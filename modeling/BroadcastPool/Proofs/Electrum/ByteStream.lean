import BroadcastPool.Proofs.Electrum.Answered
import BroadcastPool.Proofs.Electrum.Lines
import BroadcastPool.Sample

/-!
# `BroadcastPool.Proofs.Electrum.ByteStream`: what a wallet's bytes can do to its session

The log lines about a transaction quote the beginning of the wallet's line, cut at a byte offset.
Where the cut falls inside a character, the slice panics and the session is gone. This is the
only way to make a session panic: a line is handled without a panic exactly if it is
`LineSafe`, and a stream of bytes, read in any pieces, exactly if all its complete lines are.
-/

set_option autoImplicit false

namespace BroadcastPool

open Effects
open Text (newline joinLines splitLines Unbroken)

variable {env : Env} {libs : ElectrumLibs} {config : Config} {p : Proc}
  {settings : SessionSettings} {headers : HeaderLibs} {α β : Type}

/-! ### Panics -/

/-- The program can end in a panic. -/
def CanPanic (answers : (a : Act) → a.Res → Prop) (prog : M α) : Prop :=
  ∃ text, prog.Ends answers (.error (.panic text))

/-- The program can return. -/
def CanReturn (answers : (a : Act) → a.Res → Prop) (prog : M α) : Prop :=
  ∃ a, prog.Ends answers (.ok a)

/-- The program does not panic. -/
abbrev PanicFree (answers : (a : Act) → a.Res → Prop) (prog : M α) : Prop :=
  prog.Within answers Failure.IsError

section
variable {answers : (a : Act) → a.Res → Prop}

theorem panicFree_iff {prog : M α} : PanicFree answers prog ↔ ¬ CanPanic answers prog := by
  constructor
  · rintro h ⟨text, htext⟩
    exact h _ htext
  · intro h e he
    cases e with
    | error text => trivial
    | panic text => exact h ⟨text, he⟩

theorem canPanic_fail (text : String) : CanPanic answers (.fail (.panic text) : M α) :=
  ⟨text, Prog.ends_fail_iff.2 rfl⟩

theorem not_canPanic_ret (a : α) : ¬ CanPanic answers (.ret a : M α) :=
  panicFree_iff.1 (Prog.within_ret a)

theorem canPanic_bind_iff {prog : M α} {f : α → M β} :
    CanPanic answers (prog.bind f) ↔
      CanPanic answers prog ∨ ∃ a, prog.Ends answers (.ok a) ∧ CanPanic answers (f a) := by
  constructor
  · rintro ⟨text, h⟩
    rcases Prog.ends_bind_error_iff.1 h with h | ⟨a, ha, h⟩
    · exact Or.inl ⟨text, h⟩
    · exact Or.inr ⟨a, ha, text, h⟩
  · rintro (⟨text, h⟩ | ⟨a, ha, text, h⟩)
    · exact ⟨text, Prog.ends_bind_error_iff.2 (Or.inl h)⟩
    · exact ⟨text, Prog.ends_bind_error_iff.2 (Or.inr ⟨a, ha, h⟩)⟩

/-- After a part that does not panic, a panic is one of the rest. -/
theorem canPanic_seq_iff {prog : M α} {f : α → M β} (h : PanicFree answers prog) :
    CanPanic answers (prog.bind f) ↔
      ∃ a, prog.Ends answers (.ok a) ∧ CanPanic answers (f a) := by
  rw [canPanic_bind_iff]
  exact or_iff_right (panicFree_iff.1 h)

theorem canReturn_bind {prog : M α} {f : α → M β} {a : α} (ha : prog.Ends answers (.ok a))
    (hf : CanReturn answers (f a)) : CanReturn answers (prog.bind f) := by
  obtain ⟨b, hb⟩ := hf
  exact ⟨b, Prog.ends_bind_ok_iff.2 ⟨a, ha, hb⟩⟩

theorem canReturn_ret (a : α) : CanReturn answers (.ret a : M α) :=
  ⟨a, Prog.ends_ret_iff.2 rfl⟩

theorem panicFree_of_neverFails {prog : M α} (h : prog.NeverFails answers) :
    PanicFree answers prog :=
  h.mono fun _ hfalse => hfalse.elim

theorem panicFree_write (response : Json) :
    PanicFree answers (orRaise (writeLine libs response)) :=
  within_orRaise (fun _ => trivial) (within_act _)

end

/-- A program without errors can return, since every question has an answer. -/
theorem canReturn_of_neverFails {prog : M α}
    (h : prog.NeverFails (expected env libs config)) :
    CanReturn (expected env libs config) prog :=
  h.returns exists_expected

/-- A write can succeed. -/
theorem ends_write (response : Json) :
    (orRaise (writeLine libs response)).Ends (expected env libs config) (.ok ()) :=
  Prog.ends_bind_ok_iff.2 ⟨.ok (), Prog.ends_perform_iff.2 ⟨.ok (), trivial, rfl⟩,
    Prog.ends_ret_iff.2 rfl⟩

/-! ### The answers to a line -/

theorem neverFails_interceptAndHandleBroadcast (id : Json) (txHex sourceLabel : String)
    (session : ClientSession) {answers : (a : Act) → a.Res → Prop} :
    (interceptAndHandleBroadcast env libs p id txHex sourceLabel session).NeverFails answers := by
  refine Prog.within_seq (within_act _) fun start => ?_
  refine Prog.within_seq (within_act _) fun finished => ?_
  dsimp only
  split
  · exact Prog.within_seq (within_act _) fun _ => Prog.within_ret _
  · refine Prog.within_seq (within_act _) fun _ => ?_
    refine Prog.within_seq (within_act _) fun written => ?_
    cases written with
    | error e => exact Prog.within_ret _
    | ok u => exact Prog.within_seq (within_act _) fun _ => Prog.within_ret _

/-- The loop over the requests of a line answers each of them. -/
theorem neverFails_answerAll (hfit : LibsFit env libs) (indexerUrl sourceLabel : String)
    (requests : List JsonRpcRequest) (session : ClientSession) :
    (answerAll settings libs headers p indexerUrl sourceLabel requests session).NeverFails
      (fitting env libs) := by
  induction requests generalizing session with
  | nil => exact Prog.within_ret _
  | cons request requests ih =>
    exact Prog.within_seq (neverFails_handleOneSubrequest hfit _ _ _ _)
      fun _ => Prog.within_seq (ih _) fun _ => Prog.within_ret _

theorem length_of_answerAll {indexerUrl sourceLabel : String} {requests : List JsonRpcRequest}
    {session : ClientSession} {answers : (a : Act) → a.Res → Prop}
    {r : List Json × ClientSession}
    (h : (answerAll settings libs headers p indexerUrl sourceLabel requests session).Ends answers
      (.ok r)) : r.1.length = requests.length := by
  induction requests generalizing session r with
  | nil =>
    cases Prog.ends_ret_iff.1 h
    rfl
  | cons request requests ih =>
    obtain ⟨⟨reply, session⟩, -, h⟩ := Prog.ends_bind_ok_iff.1 h
    obtain ⟨⟨responses, session⟩, hrest, h⟩ := Prog.ends_bind_ok_iff.1 h
    cases Prog.ends_ret_iff.1 h
    exact congrArg (· + 1) (ih hrest)

/-- A line without a request is a batch. -/
theorem lineIsBatch_of_empty (hfit : LibsFit env libs) {line : String}
    (h : parseSubrequests libs line = some []) : lineIsBatch line = true := by
  unfold parseSubrequests at h
  split at h
  · cases h
  · rename_i items hitems
    exact Text.startsWith_trimStart (hfit.bracket line items hitems)
  · rename_i v _ _
    cases hrequest : JsonRpcRequest.fromValue v <;> rw [hrequest] at h <;> cases h

/-- The answers to a line are written without an index out of bounds. -/
theorem writeClientResponses_eq {responses : List Json} {batch : Bool}
    (h : responses = [] → batch = true) :
    ∃ response, writeClientResponses libs responses batch = orRaise (writeLine libs response) := by
  cases batch with
  | true => exact ⟨_, rfl⟩
  | false =>
    cases responses with
    | nil => cases h rfl
    | cons response responses => exact ⟨response, rfl⟩

/-- The answers to the requests of a line can be written. -/
theorem exists_write_of_answerAll (hfit : LibsFit env libs) {line : String}
    {requests : List JsonRpcRequest} (hparse : parseSubrequests libs line = some requests)
    {indexerUrl sourceLabel : String} {session : ClientSession}
    {answers : (a : Act) → a.Res → Prop} {r : List Json × ClientSession}
    (h : (answerAll settings libs headers p indexerUrl sourceLabel requests session).Ends answers
      (.ok r)) :
    ∃ response,
      writeClientResponses libs r.1 (lineIsBatch line) = orRaise (writeLine libs response) := by
  refine writeClientResponses_eq fun hnil => ?_
  have hlength := length_of_answerAll h
  rw [hnil] at hlength
  rw [List.length_eq_zero_iff.1 hlength.symm] at hparse
  exact lineIsBatch_of_empty hfit hparse

theorem panicFree_answerRequests (hfit : LibsFit env libs) {line : String}
    {requests : List JsonRpcRequest} (hparse : parseSubrequests libs line = some requests)
    (indexerUrl sourceLabel : String) (session : ClientSession) :
    PanicFree (expected env libs config)
      (answerRequests settings env libs headers p line indexerUrl sourceLabel requests
        session) := by
  unfold answerRequests
  split
  · split
    · exact panicFree_of_neverFails (neverFails_interceptAndHandleBroadcast _ _ _ _)
    · exact Prog.within_seq (panicFree_write _) fun _ => Prog.within_ret _
  · refine Prog.within_bind (panicFree_of_neverFails
      (Prog.Within.anti fitting_of_expected (neverFails_answerAll hfit _ _ _ _)))
      fun r hr => ?_
    obtain ⟨response, hwrite⟩ := exists_write_of_answerAll hfit hparse hr
    dsimp only
    rw [hwrite]
    exact Prog.within_seq (panicFree_write _) fun _ => Prog.within_ret _

theorem canReturn_answerRequests (hfit : LibsFit env libs) {line : String}
    {requests : List JsonRpcRequest} (hparse : parseSubrequests libs line = some requests)
    (indexerUrl sourceLabel : String) (session : ClientSession) :
    CanReturn (expected env libs config)
      (answerRequests settings env libs headers p line indexerUrl sourceLabel requests
        session) := by
  unfold answerRequests
  split
  · split
    · exact canReturn_of_neverFails (neverFails_interceptAndHandleBroadcast _ _ _ _)
    · exact canReturn_bind (ends_write _) (canReturn_ret _)
  · have hreturns : CanReturn (expected env libs config) (answerAll settings libs headers p
        indexerUrl sourceLabel requests
        { session with wallet := { session.wallet with clientBusy := true } }) :=
      canReturn_of_neverFails
        (Prog.Within.anti fitting_of_expected (neverFails_answerAll hfit _ _ _ _))
    obtain ⟨r, hr⟩ := hreturns
    refine canReturn_bind hr ?_
    obtain ⟨response, hwrite⟩ := exists_write_of_answerAll hfit hparse hr
    dsimp only
    rw [hwrite]
    exact canReturn_bind (ends_write _) (canReturn_ret _)

/-! ### One line -/

/-- Every log line about this line that is written quotes it up to a character boundary. -/
structure LogsCleanly (settings : SessionSettings) (libs : ElectrumLibs) (line : String) :
    Prop where
  incoming : lineMentionsTxRpc line = true → settings.logs .info = true → CutsCleanly line 200
  unreadBroadcast : extractBroadcastHex libs line = none → lineLooksLikeBroadcast line = true →
    settings.logs .error = true → CutsCleanly line 240
  notRequests : extractBroadcastHex libs line = none → lineLooksLikeBroadcast line = false →
    parseSubrequests libs line = none → lineMentionsTxRpc line = true →
    settings.logs .error = true → CutsCleanly line 200

/-- The line is ignored, or answered as a handshake, or no log line cuts it inside a
character. -/
def LineSafe (settings : SessionSettings) (libs : ElectrumLibs) (line : String) : Prop :=
  Text.trim line = "" ∨ handshakeRequests libs line ≠ none ∨ LogsCleanly settings libs line

section
variable {answers : (a : Act) → a.Res → Prop} {level : LogLevel} {s : String} {n : Nat}
  {f : Unit → M α}

theorem canPanic_logSlice_iff :
    CanPanic answers ((logSlice settings level s n).bind f) ↔
      (settings.logs level = true ∧ ¬ CutsCleanly s n) ∨ CanPanic answers (f ()) := by
  by_cases h : settings.logs level = true ∧ ¬ CutsCleanly s n
  · rw [logSlice_torn h.1 h.2]
    exact iff_of_true (canPanic_fail _) (Or.inl h)
  · rw [logSlice_clean fun hlogs => not_not.1 fun htorn => h ⟨hlogs, htorn⟩, or_iff_right h]
    exact Iff.rfl

theorem canReturn_logSlice (h : settings.logs level = true → CutsCleanly s n)
    (hf : CanReturn answers (f ())) :
    CanReturn answers ((logSlice settings level s n).bind f) := by
  rw [logSlice_clean h]
  exact hf

/-- The log line about the incoming line comes before everything else. -/
theorem canPanic_logIncoming_iff {line : String} :
    CanPanic answers ((logIncomingClientLine settings line).bind f) ↔
      (lineMentionsTxRpc line = true ∧ settings.logs .info = true ∧ ¬ CutsCleanly line 200) ∨
        CanPanic answers (f ()) := by
  unfold logIncomingClientLine
  cases lineMentionsTxRpc line with
  | true => simpa using canPanic_logSlice_iff
  | false => simp [Prog.bind]

theorem canReturn_logIncoming {line : String}
    (h : lineMentionsTxRpc line = true → settings.logs .info = true → CutsCleanly line 200)
    (hf : CanReturn answers (f ())) :
    CanReturn answers ((logIncomingClientLine settings line).bind f) := by
  unfold logIncomingClientLine
  split
  · rename_i hmentions
    exact canReturn_logSlice (h hmentions) hf
  · exact hf

theorem panicFree_write_then {response : Json} {b : α} :
    PanicFree answers ((orRaise (writeLine libs response)).bind fun _ => .ret b) :=
  Prog.within_seq (panicFree_write _) fun _ => Prog.within_ret _

/-- A refusal panics in its log line or not at all. -/
theorem canPanic_refuseBroadcast_iff {line : String} {b : α} :
    CanPanic answers ((refuseBroadcast settings libs line).bind fun _ => .ret b) ↔
      settings.logs .error = true ∧ ¬ CutsCleanly line 240 := by
  unfold refuseBroadcast
  rw [Prog.bind_eq, Prog.bind_assoc, canPanic_logSlice_iff]
  exact or_iff_left (panicFree_iff.1 panicFree_write_then)

theorem canPanic_refuseUnparsed_iff {line : String} {b : α} :
    CanPanic answers ((refuseUnparsed settings libs line).bind fun _ => .ret b) ↔
      lineMentionsTxRpc line = true ∧ settings.logs .error = true ∧
        ¬ CutsCleanly line 200 := by
  unfold refuseUnparsed logUnparsed
  rw [Prog.bind_eq, Prog.bind_assoc]
  cases lineMentionsTxRpc line with
  | true =>
    rw [if_pos rfl, canPanic_logSlice_iff, or_iff_left (panicFree_iff.1 panicFree_write_then)]
    exact (and_iff_right rfl).symm
  | false =>
    exact iff_of_false (panicFree_iff.1 panicFree_write_then) fun h => Bool.false_ne_true h.1

end

/-- A line without an early answer panics exactly if a log line cuts it inside a character. -/
theorem canPanic_routeLine_iff (hfit : LibsFit env libs)
    (line indexerUrl sourceLabel : String) (session : ClientSession) :
    CanPanic (expected env libs config)
        (routeLine settings env libs headers p line indexerUrl sourceLabel session) ↔
      extractBroadcastHex libs line = none ∧ settings.logs .error = true ∧
        ((lineLooksLikeBroadcast line = true ∧ ¬ CutsCleanly line 240) ∨
          (lineLooksLikeBroadcast line = false ∧ parseSubrequests libs line = none ∧
            lineMentionsTxRpc line = true ∧ ¬ CutsCleanly line 200)) := by
  unfold routeLine
  cases hextract : extractBroadcastHex libs line with
  | some found =>
    refine iff_of_false (panicFree_iff.1 (panicFree_of_neverFails ?_)) fun h => by cases h.1
    exact neverFails_interceptAndHandleBroadcast _ _ _ _
  | none =>
    cases hlooks : lineLooksLikeBroadcast line with
    | true =>
      refine canPanic_refuseBroadcast_iff.trans ?_
      simp
    | false =>
      cases hparse : parseSubrequests libs line with
      | none =>
        refine canPanic_refuseUnparsed_iff.trans ?_
        simp [and_left_comm]
      | some requests =>
        refine iff_of_false (panicFree_iff.1 (panicFree_answerRequests hfit hparse _ _ _)) ?_
        rintro ⟨-, -, ⟨h, -⟩ | ⟨-, h, -⟩⟩ <;> cases h

theorem canPanic_answerLine_iff (hfit : LibsFit env libs)
    (line indexerUrl sourceLabel : String) (session : ClientSession) :
    CanPanic (expected env libs config)
        (answerLine settings env libs headers p line indexerUrl sourceLabel session) ↔
      ¬ LogsCleanly settings libs line := by
  unfold answerLine
  rw [Prog.bind_eq, canPanic_logIncoming_iff, canPanic_routeLine_iff hfit]
  constructor
  · rintro (⟨hmentions, hlogs, htorn⟩ | ⟨hextract, hlogs, ⟨hlooks, htorn⟩ | h⟩) hclean
    · exact htorn (hclean.incoming hmentions hlogs)
    · exact htorn (hclean.unreadBroadcast hextract hlooks hlogs)
    · obtain ⟨hlooks, hparse, hmentions, htorn⟩ := h
      exact htorn (hclean.notRequests hextract hlooks hparse hmentions hlogs)
  · intro hunclean
    by_contra hno
    refine hunclean ⟨fun hmentions hlogs => ?_, fun hextract hlooks hlogs => ?_,
      fun hextract hlooks hparse hmentions hlogs => ?_⟩
    all_goals by_contra htorn
    · exact hno (Or.inl ⟨hmentions, hlogs, htorn⟩)
    · exact hno (Or.inr ⟨hextract, hlogs, Or.inl ⟨hlooks, htorn⟩⟩)
    · exact hno (Or.inr ⟨hextract, hlogs, Or.inr ⟨hlooks, hparse, hmentions, htorn⟩⟩)

theorem canReturn_answerLine (hfit : LibsFit env libs) {line : String}
    (hclean : LogsCleanly settings libs line) (indexerUrl sourceLabel : String)
    (session : ClientSession) :
    CanReturn (expected env libs config)
      (answerLine settings env libs headers p line indexerUrl sourceLabel session) := by
  refine canReturn_logIncoming hclean.incoming ?_
  unfold routeLine
  cases hextract : extractBroadcastHex libs line with
  | some found =>
    exact canReturn_of_neverFails (neverFails_interceptAndHandleBroadcast _ _ _ _)
  | none =>
    cases hlooks : lineLooksLikeBroadcast line with
    | true =>
      show CanReturn _ ((refuseBroadcast settings libs line).bind fun _ => .ret session)
      unfold refuseBroadcast
      rw [Prog.bind_eq, Prog.bind_assoc]
      exact canReturn_logSlice (hclean.unreadBroadcast hextract hlooks)
        (canReturn_bind (ends_write _) (canReturn_ret _))
    | false =>
      cases hparse : parseSubrequests libs line with
      | none =>
        show CanReturn _ ((refuseUnparsed settings libs line).bind fun _ => .ret session)
        unfold refuseUnparsed logUnparsed
        rw [Prog.bind_eq, Prog.bind_assoc]
        split
        · rename_i hmentions
          exact canReturn_logSlice (hclean.notRequests hextract hlooks hparse hmentions)
            (canReturn_bind (ends_write _) (canReturn_ret _))
        · exact canReturn_bind (Prog.ends_ret_iff.2 rfl)
            (canReturn_bind (ends_write _) (canReturn_ret _))
      | some requests => exact canReturn_answerRequests hfit hparse _ _ _

/-! ### The early answers -/

theorem neverFails_localResponses (requests : List JsonRpcRequest)
    {answers : (a : Act) → a.Res → Prop} :
    (localResponses settings p requests).NeverFails answers := by
  induction requests with
  | nil => exact Prog.within_ret _
  | cons request requests ih =>
    refine Prog.within_seq (neverFails_localElectrumResponse request) fun response => ?_
    cases response with
    | none => exact Prog.within_ret _
    | some response => exact Prog.within_seq ih fun _ => Prog.within_ret _

/-- A handshake method has a local answer. -/
theorem exists_localElectrumResponse {request : JsonRpcRequest}
    (h : isLocalHandshakeMethod request.method = true) {answers : (a : Act) → a.Res → Prop}
    {response : Option Json}
    (hends : (localElectrumResponse settings p request).Ends answers (.ok response)) :
    ∃ v, response = some v := by
  have hmethod : request.method = "server.version" ∨ request.method = "server.banner" ∨
      request.method = "server.ping" ∨ request.method = "server.features" := by
    simpa [isLocalHandshakeMethod, localElectrumMethods] using h
  unfold localElectrumResponse at hends
  rcases hmethod with hmethod | hmethod | hmethod | hmethod
  all_goals rw [hmethod] at hends
  · cases Prog.ends_ret_iff.1 hends
    exact ⟨_, rfl⟩
  · cases Prog.ends_ret_iff.1 hends
    exact ⟨_, rfl⟩
  · cases Prog.ends_ret_iff.1 hends
    exact ⟨_, rfl⟩
  · obtain ⟨config, -, hret⟩ := Prog.ends_bind_ok_iff.1 hends
    cases Prog.ends_ret_iff.1 hret
    exact ⟨_, rfl⟩

/-- A handshake has an answer to each of its requests. -/
theorem length_of_localResponses {requests : List JsonRpcRequest}
    (h : requests.all (isLocalHandshakeMethod ·.method) = true)
    {answers : (a : Act) → a.Res → Prop} {responses : Option (List Json)}
    (hends : (localResponses settings p requests).Ends answers (.ok responses)) :
    ∃ vs, responses = some vs ∧ vs.length = requests.length := by
  induction requests generalizing responses with
  | nil =>
    cases Prog.ends_ret_iff.1 hends
    exact ⟨[], rfl, rfl⟩
  | cons request requests ih =>
    rw [List.all_cons, Bool.and_eq_true] at h
    obtain ⟨response, hresponse, hends⟩ := Prog.ends_bind_ok_iff.1 hends
    obtain ⟨v, rfl⟩ := exists_localElectrumResponse h.1 hresponse
    obtain ⟨rest, hrest, hends⟩ := Prog.ends_bind_ok_iff.1 hends
    obtain ⟨vs, rfl, hlength⟩ := ih h.2 hrest
    cases Prog.ends_ret_iff.1 hends
    exact ⟨v :: vs, rfl, congrArg (· + 1) hlength⟩

/-- The requests of a handshake all have a local answer. -/
theorem local_of_handshakeRequests {line : String} {requests : List JsonRpcRequest}
    (h : handshakeRequests libs line = some requests) :
    requests ≠ [] ∧ requests.all (isLocalHandshakeMethod ·.method) = true := by
  unfold handshakeRequests at h
  split at h
  · split at h
    · rename_i hlocal
      cases h
      exact hlocal
    · cases h
  · cases h

/-- The answer to a handshake is the one write of its responses. -/
theorem answerHandshake_some {line : String} {requests : List JsonRpcRequest}
    (h : handshakeRequests libs line = some requests) :
    answerHandshake settings libs p line =
      (localResponses settings p requests).bind (finishHandshake libs line) := by
  unfold answerHandshake
  rw [h]
  rfl

theorem answerHandshake_none {line : String} (h : handshakeRequests libs line = none) :
    answerHandshake settings libs p line = .ret false := by
  unfold answerHandshake
  rw [h]
  rfl

variable (env config settings p) in
/-- A handshake is answered, and a panic is no answer to it. -/
theorem handshake_answered {line : String} (h : handshakeRequests libs line ≠ none) :
    PanicFree (expected env libs config) (answerHandshake settings libs p line) ∧
      (∀ b, (answerHandshake settings libs p line).Ends (expected env libs config) (.ok b) →
        b = true) ∧
      (answerHandshake settings libs p line).Ends (expected env libs config) (.ok true) := by
  obtain ⟨requests, hrequests⟩ := Option.ne_none_iff_exists'.1 h
  obtain ⟨hne, hlocal⟩ := local_of_handshakeRequests hrequests
  rw [answerHandshake_some hrequests]
  have hresponses : ∀ responses,
      (localResponses settings p requests).Ends (expected env libs config) (.ok responses) →
        ∃ vs response, responses = some vs ∧
          writeClientResponses libs vs (lineIsBatch line) = orRaise (writeLine libs response) := by
    intro responses hends
    obtain ⟨vs, rfl, hlength⟩ := length_of_localResponses hlocal hends
    have hvs : vs ≠ [] := by
      rintro rfl
      exact hne (List.length_eq_zero_iff.1 hlength.symm)
    obtain ⟨response, hwrite⟩ : ∃ response, writeClientResponses libs vs (lineIsBatch line) =
        orRaise (writeLine libs response) :=
      writeClientResponses_eq fun hnil => absurd hnil hvs
    exact ⟨vs, response, rfl, hwrite⟩
  refine ⟨?_, ?_, ?_⟩
  · refine Prog.within_bind (panicFree_of_neverFails (neverFails_localResponses requests))
      fun responses hends => ?_
    obtain ⟨vs, response, rfl, hwrite⟩ := hresponses responses hends
    rw [finishHandshake, hwrite]
    exact panicFree_write_then
  · intro b hb
    obtain ⟨responses, hends, hb⟩ := Prog.ends_bind_ok_iff.1 hb
    obtain ⟨vs, response, rfl, -⟩ := hresponses responses hends
    obtain ⟨u, -, hret⟩ := Prog.ends_bind_ok_iff.1 hb
    cases Prog.ends_ret_iff.1 hret
    rfl
  · have hreturns : CanReturn (expected env libs config) (localResponses settings p requests) :=
      canReturn_of_neverFails (neverFails_localResponses requests)
    obtain ⟨responses, hends⟩ := hreturns
    obtain ⟨vs, response, rfl, hwrite⟩ := hresponses responses hends
    refine Prog.ends_bind_ok_iff.2 ⟨some vs, hends, ?_⟩
    rw [finishHandshake, hwrite]
    exact Prog.ends_bind_ok_iff.2 ⟨(), ends_write response, Prog.ends_ret_iff.2 rfl⟩

theorem panicFree_answerFromCache (line sourceLabel : String) (session : ClientSession)
    {answers : (a : Act) → a.Res → Prop} :
    PanicFree answers (answerFromCache libs p line sourceLabel session) := by
  unfold answerFromCache
  split
  · exact Prog.within_ret _
  · refine Prog.within_seq (within_orRaise (fun _ => trivial) (within_act _)) fun config => ?_
    dsimp only
    split
    · refine Prog.within_seq (panicFree_of_neverFails (neverFails_cachedTipResponse _))
        fun response => ?_
      cases response with
      | some response => exact panicFree_write_then
      | none => exact Prog.within_ret _
    · exact Prog.within_ret _

variable (env libs config p) in
/-- With no tip in the cache there is no early answer. -/
theorem exists_answerFromCache (line sourceLabel : String) (session : ClientSession) :
    ∃ session', (answerFromCache libs p line sourceLabel session).Ends
      (expected env libs config) (.ok (false, session')) := by
  unfold answerFromCache
  split
  · exact ⟨_, Prog.ends_ret_iff.2 rfl⟩
  · have hconfig : (orRaise (perform (.lockConfig p))).Ends (expected env libs config)
        (.ok config) :=
      Prog.ends_bind_ok_iff.2 ⟨.ok config, Prog.ends_perform_iff.2
        ⟨.ok config, fun c hc => (Except.ok.inj hc).symm, rfl⟩, Prog.ends_ret_iff.2 rfl⟩
    have hcached : ∀ request, (cachedTipResponse p request).Ends (expected env libs config)
        (.ok none) := fun request =>
      Prog.ends_bind_ok_iff.2 ⟨none, Prog.ends_perform_iff.2 ⟨none, trivial, rfl⟩,
        Prog.ends_ret_iff.2 rfl⟩
    refine ⟨{ session with wallet := { session.wallet with subscribedHeaders := true } },
      Prog.ends_bind_ok_iff.2 ⟨config, hconfig, ?_⟩⟩
    dsimp only
    split
    · exact Prog.ends_bind_ok_iff.2 ⟨none, hcached _, Prog.ends_ret_iff.2 rfl⟩
    · exact Prog.ends_ret_iff.2 rfl

/-- A line is handled without a panic exactly if it is safe. -/
theorem canPanic_processClientLine_iff (hfit : LibsFit env libs)
    (line indexerUrl sourceLabel : String) (session : ClientSession) :
    CanPanic (expected env libs config)
        (processClientLine settings env libs headers p line indexerUrl sourceLabel session) ↔
      ¬ LineSafe settings libs line := by
  unfold processClientLine LineSafe
  split
  · rename_i hblank
    exact iff_of_false (not_canPanic_ret _) fun h => h (Or.inl hblank)
  · rename_i hblank
    by_cases hshake : handshakeRequests libs line = none
    · rw [answerHandshake_none hshake]
      show CanPanic _ ((answerFromCache libs p line sourceLabel _).bind _) ↔ _
      rw [canPanic_seq_iff (panicFree_answerFromCache _ _ _)]
      constructor
      · rintro ⟨⟨answered, session'⟩, -, hpanic⟩ hsafe
        cases answered with
        | true => exact not_canPanic_ret _ hpanic
        | false =>
          refine (canPanic_answerLine_iff hfit _ _ _ _).1 hpanic ?_
          exact (hsafe.resolve_left hblank).resolve_left fun h => h hshake
      · intro hbad
        obtain ⟨session', hends⟩ := exists_answerFromCache env libs config p line
          sourceLabel _
        refine ⟨(false, session'), hends, (canPanic_answerLine_iff hfit _ _ _ _).2 ?_⟩
        exact fun hclean => hbad (Or.inr (Or.inr hclean))
    · obtain ⟨hfree, htrue, -⟩ := handshake_answered env config p settings hshake
      refine iff_of_false ?_ fun h => h (Or.inr (Or.inl hshake))
      rw [Prog.bind_eq, canPanic_seq_iff hfree]
      rintro ⟨b, hb, hpanic⟩
      cases htrue b hb
      exact not_canPanic_ret _ hpanic

variable (config p headers) in
/-- A safe line can be handled to its end. -/
theorem canReturn_processClientLine (hfit : LibsFit env libs) {line : String}
    (hsafe : LineSafe settings libs line) (indexerUrl sourceLabel : String)
    (session : ClientSession) :
    CanReturn (expected env libs config)
      (processClientLine settings env libs headers p line indexerUrl sourceLabel session) := by
  unfold processClientLine
  split
  · exact canReturn_ret _
  · rename_i hblank
    by_cases hshake : handshakeRequests libs line = none
    · rw [answerHandshake_none hshake]
      show CanReturn _ ((answerFromCache libs p line sourceLabel _).bind _)
      obtain ⟨session', hends⟩ := exists_answerFromCache env libs config p line
        sourceLabel _
      refine canReturn_bind hends (canReturn_answerLine hfit ?_ _ _ _)
      exact (hsafe.resolve_left hblank).resolve_left fun h => h hshake
    · obtain ⟨-, -, hends⟩ := handshake_answered env config p settings hshake
      exact canReturn_bind hends (canReturn_ret _)

/-! ### A stream of bytes -/

theorem neverFails_resolveLiveIndexerUrl {answers : (a : Act) → a.Res → Prop} :
    (resolveLiveIndexerUrl p).NeverFails answers := by
  have hurl : (indexerUrlOrEmpty p).NeverFails answers :=
    Prog.within_seq (within_act _) fun config => by cases config <;> exact Prog.within_ret _
  refine Prog.within_seq hurl fun url => ?_
  split
  · exact hurl
  · exact Prog.within_ret _

variable (env libs config p) in
theorem canReturn_resolveLiveIndexerUrl :
    CanReturn (expected env libs config) (resolveLiveIndexerUrl p) :=
  canReturn_of_neverFails neverFails_resolveLiveIndexerUrl

variable (env libs p settings headers) in
/-- One round of the loop over the lines of the buffer: one of them is handled, and the others
are left. -/
theorem exists_round {lines : List (List UInt8)} {rest : List UInt8} (h : Unbroken lines rest)
    (hne : lines ≠ []) :
    ∃ before line after, lines = before ++ line :: after ∧ Unbroken (before ++ after) rest ∧
      ∀ sourceLabel rounds session,
        serveLines settings env libs headers p sourceLabel (rounds + 1) (joinLines lines rest)
            session =
          (resolveLiveIndexerUrl p).bind fun indexerUrl =>
            (processClientLine settings env libs headers p (lineText line) indexerUrl
              sourceLabel session).bind
              (serveLines settings env libs headers p sourceLabel rounds
                (joinLines (before ++ after) rest)) := by
  obtain ⟨before, line, after, rfl, hserved⟩ := exists_served libs hne
  refine ⟨before, line, after, rfl, ⟨fun l hl => h.lines l ?_, h.rest⟩, ?_⟩
  · rcases List.mem_append.1 hl with hl | hl
    · exact List.mem_append_left _ hl
    · exact List.mem_append_right _ (List.mem_cons_of_mem _ hl)
  · intro sourceLabel rounds session
    rw [serveLines, popClientLine_joinLines libs h hserved]
    rfl

/-- Without a complete line nothing is done. -/
theorem serveLines_rest {rest : List UInt8} (h : newline ∉ rest) (sourceLabel : String)
    (rounds : Nat) (session : ClientSession) :
    serveLines settings env libs headers p sourceLabel rounds rest session =
      .ret (rest, session) := by
  cases rounds with
  | zero => rfl
  | succ rounds =>
    rw [serveLines, popClientLine_rest libs h]
    rfl

/-- The lines of the buffer are all served, unless one of them cannot be handled. -/
theorem rest_of_serveLines {rest : List UInt8} {sourceLabel : String} {rounds : Nat}
    {lines : List (List UInt8)} (h : Unbroken lines rest) (hrounds : lines.length ≤ rounds)
    {session : ClientSession} {answers : (a : Act) → a.Res → Prop}
    {r : List UInt8 × ClientSession}
    (hends : (serveLines settings env libs headers p sourceLabel rounds (joinLines lines rest)
      session).Ends answers (.ok r)) : r.1 = rest := by
  induction rounds generalizing lines session with
  | zero =>
    rw [List.length_eq_zero_iff.1 (Nat.le_zero.1 hrounds)] at hends
    cases Prog.ends_ret_iff.1 hends
    rfl
  | succ rounds ih =>
    by_cases hnil : lines = []
    · rw [hnil, joinLines, serveLines_rest h.rest] at hends
      cases Prog.ends_ret_iff.1 hends
      rfl
    · obtain ⟨before, line, after, hlines, hleft, hround⟩ := exists_round env libs p settings
        headers h hnil
      rw [hround] at hends
      obtain ⟨indexerUrl, -, hends⟩ := Prog.ends_bind_ok_iff.1 hends
      obtain ⟨session', -, hends⟩ := Prog.ends_bind_ok_iff.1 hends
      refine ih hleft ?_ hends
      rw [hlines] at hrounds
      simp only [List.length_append, List.length_cons] at hrounds ⊢
      omega

variable (config p headers) in
theorem canReturn_serveLines (hfit : LibsFit env libs) {rest : List UInt8}
    (sourceLabel : String) (rounds : Nat) {lines : List (List UInt8)} (h : Unbroken lines rest)
    (hsafe : ∀ line ∈ lines, LineSafe settings libs (lineText line)) (session : ClientSession) :
    CanReturn (expected env libs config)
      (serveLines settings env libs headers p sourceLabel rounds (joinLines lines rest)
        session) := by
  induction rounds generalizing lines session with
  | zero => exact canReturn_ret _
  | succ rounds ih =>
    by_cases hnil : lines = []
    · rw [hnil, joinLines, serveLines_rest h.rest]
      exact canReturn_ret _
    · obtain ⟨before, line, after, rfl, hleft, hround⟩ := exists_round env libs p settings
        headers h hnil
      rw [hround]
      obtain ⟨indexerUrl, hurl⟩ := canReturn_resolveLiveIndexerUrl env libs config p
      obtain ⟨session', hprocess⟩ := canReturn_processClientLine config p headers hfit
        (hsafe line (by simp)) indexerUrl sourceLabel session
      refine canReturn_bind hurl (canReturn_bind hprocess (ih hleft (fun l hl => ?_) session'))
      exact hsafe l (by
        rw [List.mem_append] at hl
        rw [List.mem_append, List.mem_cons]
        tauto)

variable (config p settings headers) in
/-- The lines of the buffer are served without a panic exactly if they are safe. -/
theorem canPanic_serveLines_iff (hfit : LibsFit env libs) {rest : List UInt8}
    (sourceLabel : String) {rounds : Nat} {lines : List (List UInt8)} (h : Unbroken lines rest)
    (hrounds : lines.length ≤ rounds) (session : ClientSession) :
    CanPanic (expected env libs config)
        (serveLines settings env libs headers p sourceLabel rounds (joinLines lines rest)
          session) ↔
      ∃ line ∈ lines, ¬ LineSafe settings libs (lineText line) := by
  induction rounds generalizing lines session with
  | zero =>
    rw [List.length_eq_zero_iff.1 (Nat.le_zero.1 hrounds)]
    exact iff_of_false (not_canPanic_ret _) (by simp)
  | succ rounds ih =>
    by_cases hnil : lines = []
    · rw [hnil, joinLines, serveLines_rest h.rest]
      exact iff_of_false (not_canPanic_ret _) (by simp)
    · obtain ⟨before, line, after, rfl, hleft, hround⟩ := exists_round env libs p settings
        headers h hnil
      have hfewer : (before ++ after).length ≤ rounds := by
        simp only [List.length_append, List.length_cons] at hrounds ⊢
        omega
      have hsplit : (∃ l ∈ before ++ line :: after, ¬ LineSafe settings libs (lineText l)) ↔
          ¬ LineSafe settings libs (lineText line) ∨
            ∃ l ∈ before ++ after, ¬ LineSafe settings libs (lineText l) := by
        simp only [List.mem_append, List.mem_cons]
        constructor
        · rintro ⟨l, hl | rfl | hl, hbad⟩
          · exact Or.inr ⟨l, Or.inl hl, hbad⟩
          · exact Or.inl hbad
          · exact Or.inr ⟨l, Or.inr hl, hbad⟩
        · rintro (hbad | ⟨l, hl | hl, hbad⟩)
          · exact ⟨line, Or.inr (Or.inl rfl), hbad⟩
          · exact ⟨l, Or.inl hl, hbad⟩
          · exact ⟨l, Or.inr (Or.inr hl), hbad⟩
      rw [hround, canPanic_seq_iff (panicFree_of_neverFails neverFails_resolveLiveIndexerUrl),
        hsplit]
      constructor
      · rintro ⟨indexerUrl, -, hpanic⟩
        rcases canPanic_bind_iff.1 hpanic with hpanic | ⟨session', -, hpanic⟩
        · exact Or.inl ((canPanic_processClientLine_iff hfit _ _ _ _).1 hpanic)
        · exact Or.inr ((ih hleft hfewer session').1 hpanic)
      · intro hbad
        obtain ⟨indexerUrl, hurl⟩ := canReturn_resolveLiveIndexerUrl env libs config p
        refine ⟨indexerUrl, hurl, canPanic_bind_iff.2 ?_⟩
        by_cases hline : LineSafe settings libs (lineText line)
        · obtain ⟨session', hprocess⟩ := canReturn_processClientLine config p headers hfit
            hline indexerUrl sourceLabel session
          have hleftover := hbad.resolve_left (not_not.2 hline)
          exact Or.inr ⟨session', hprocess, (ih hleft hfewer session').2 hleftover⟩
        · exact Or.inl ((canPanic_processClientLine_iff hfit _ _ _ _).2 hline)

/-- The bytes of a connection, up to the read that ends it. -/
def receivedBytes (reads : List (List UInt8)) : List UInt8 :=
  (reads.takeWhile (· ≠ [])).flatten

/-- The complete lines of a connection, as the session reads them. -/
def receivedLines (reads : List (List UInt8)) : List String :=
  (splitLines (receivedBytes reads)).1.map lineText

/-- A read that is not the end completes some lines, and the others follow from what is left. -/
theorem splitLines_received (buf read : List UInt8) (reads : List (List UInt8)) (h : read ≠ []) :
    (splitLines (buf ++ receivedBytes (read :: reads))).1 =
      (splitLines (buf ++ read)).1 ++
        (splitLines ((splitLines (buf ++ read)).2 ++ receivedBytes reads)).1 := by
  have hreceived : receivedBytes (read :: reads) = read ++ receivedBytes reads := by
    simp [receivedBytes, h]
  rw [hreceived, ← List.append_assoc, Text.splitLines_append]

/-- The reads of a connection are served without a panic exactly if all its complete lines are
safe. The induction is on the reads, with an unfinished line in the buffer. -/
theorem canPanic_serveReads_iff (hfit : LibsFit env libs) (sourceLabel : String)
    (reads : List (List UInt8)) {buf : List UInt8} (hbuf : newline ∉ buf)
    (session : ClientSession) :
    CanPanic (expected env libs config)
        (serveReads settings env libs headers p sourceLabel reads buf session) ↔
      ∃ line ∈ (splitLines (buf ++ receivedBytes reads)).1,
        ¬ LineSafe settings libs (lineText line) := by
  induction reads generalizing buf session with
  | nil =>
    refine iff_of_false (not_canPanic_ret _) ?_
    simp [receivedBytes, Text.splitLines_of_notMem hbuf]
  | cons read reads ih =>
    by_cases hend : read = []
    · rw [serveReads, if_pos hend]
      refine iff_of_false (not_canPanic_ret _) ?_
      simp [receivedBytes, hend, Text.splitLines_of_notMem hbuf]
    · have hunbroken := Text.unbroken_splitLines (buf ++ read)
      have hjoin := Text.joinLines_splitLines (buf ++ read)
      have hlines : (splitLines (buf ++ read)).1.length ≤ (buf ++ read).length := by
        have hle := Text.length_le_joinLines (splitLines (buf ++ read)).1
          (splitLines (buf ++ read)).2
        rwa [hjoin] at hle
      have hserve := canPanic_serveLines_iff config p settings headers hfit sourceLabel
        hunbroken hlines session
      rw [hjoin] at hserve
      rw [serveReads, if_neg hend, splitLines_received buf read reads hend, Prog.bind_eq,
        canPanic_bind_iff, hserve]
      simp only [List.mem_append, or_and_right, exists_or]
      constructor
      · rintro (hnow | ⟨⟨rest, session'⟩, hends, hpanic⟩)
        · exact Or.inl hnow
        · have hrest : rest = (splitLines (buf ++ read)).2 :=
            rest_of_serveLines hunbroken hlines (by rw [hjoin]; exact hends)
          subst hrest
          exact Or.inr ((ih hunbroken.rest session').1 hpanic)
      · rintro (hnow | hlater)
        · exact Or.inl hnow
        · by_cases hsafe : ∀ line ∈ (splitLines (buf ++ read)).1,
              LineSafe settings libs (lineText line)
          · obtain ⟨⟨rest, session'⟩, hends⟩ := canReturn_serveLines config p headers hfit
              sourceLabel (buf ++ read).length hunbroken hsafe session
            have hrest : rest = (splitLines (buf ++ read)).2 :=
              rest_of_serveLines hunbroken hlines hends
            subst hrest
            rw [hjoin] at hends
            exact Or.inr ⟨_, hends, (ih hunbroken.rest session').2 hlater⟩
          · left
            simpa using hsafe

end BroadcastPool
