import BroadcastPool.Proofs.Rules
import BroadcastPool.ElectrumServer.Requests
import BroadcastPool.Sample

/-!
# `BroadcastPool.Proofs.Electrum.Tracking`: which request changes an answer

`forward_subrequest_sync` notes the method and the scripthash of a tracked request under its id
before it asks the indexer, and takes the note back when it has an answer that parses. Every
other exit leaves the note behind. A later request with the same id finds it, and if that
request is not tracked itself, its answer is changed for the earlier one.

An `Exchange` is one request of a session with everything that happened until its reply.
`OwnChange` says that the reply is the indexer's answer, changed with the method and the
scripthash of this request alone, and `Released` that no note is left under its id. `Follows`
puts the exchanges of a session in order; what other tasks do in between only shows in the
answers that a request gets, so every list of answers is allowed.

`Answered` is the condition: a tracked request gets an answer that parses.
`every_answer_own_iff` says that all requests of a session have both properties if and only if
all its tracked requests are answered. `timed_out_balance_changes_header` is a session in which
one is not.
-/

set_option autoImplicit false

namespace BroadcastPool

open Effects

/-- The scripthash of a request, empty if it names none. -/
def JsonRpcRequest.scripthash (r : JsonRpcRequest) : String :=
  (scripthashFromParams r.params).getD ""

/-- The request is one of the five whose answers are changed. -/
def JsonRpcRequest.isTracked (r : JsonRpcRequest) : Bool := trackedMethods.contains r.method

/-- A request of a session, the answers it saw, its reply, and the session after it. -/
structure Exchange where
  request : JsonRpcRequest
  seen : List (Seen Act Act.Res)
  reply : Except String Json
  session : SessionState

variable (libs : ElectrumLibs) (p : Proc)

/-- The change that a request calls for by itself. -/
def ownChange (request : JsonRpcRequest) (msg : Json) : M Json :=
  if request.isTracked then
    modifyUpstreamResponse libs p msg request.method request.scripthash
  else pure msg

/-- The question of a request to the indexer. -/
def JsonRpcRequest.question (request : JsonRpcRequest) : Act :=
  .forwardToIndexer (libs.toText request.toJson)

namespace Exchange

/-- The indexer answered with `msg`, and the rest of the exchange saw `rest`. -/
def Receives (x : Exchange) (msg : Json) (rest : List (Seen Act Act.Res)) : Prop :=
  ∃ answer : String, libs.fromStr (Text.trim answer) = some msg ∧
    x.seen = ⟨x.request.question libs, (.ok answer : Except String String)⟩ :: rest

/-- An answer of the indexer is changed for this request, and for no other. -/
def OwnChange (x : Exchange) : Prop :=
  ∀ msg rest, x.Receives libs msg rest →
    ∃ changed, x.reply = .ok changed ∧
      (ownChange libs p x.request msg).Path anyAnswer rest (.ok changed)

/-- Nothing is noted under the request's id any more. -/
def Released (x : Exchange) : Prop := x.session.pendingMethods.lookup x.request.id = none

/-- If the request is tracked, the indexer gives it an answer that parses. -/
def Answered (x : Exchange) : Prop :=
  x.request.isTracked = true → ∃ msg rest, x.Receives libs msg rest

end Exchange

/-- The notes of a session. -/
abbrev Notes : Type := AList (fun _ : Json => String × String)

/-- The exchanges of a session follow each other. Between two of them the session can change,
but not its notes. -/
def Follows : Notes → List Exchange → Prop
  | _, [] => True
  | notes, x :: xs =>
      (∃ session : SessionState, session.pendingMethods = notes ∧
        (forwardSubrequestSync libs p x.request session).Path anyAnswer x.seen
          (.ok (x.reply, x.session))) ∧
      Follows x.session.pendingMethods xs

/-! ### One request -/

section
variable {libs : ElectrumLibs} {p : Proc}

theorem isTracked_not_broadcast {request : JsonRpcRequest} (h : request.isTracked = true) :
    isBroadcastMethod request.method = false := by
  have hmem : request.method ∈ trackedMethods := List.contains_iff_mem.1 h
  unfold trackedMethods at hmem
  simp only [List.mem_cons, List.not_mem_nil, or_false] at hmem
  rcases hmem with h | h | h | h | h <;> rw [h] <;> decide

/-- The notes after a request has been noted. -/
theorem trackRequest_notes (session : SessionState) (request : JsonRpcRequest) :
    (session.trackRequest request).pendingMethods =
      if request.isTracked then
        session.pendingMethods.insert request.id (request.method, request.scripthash)
      else session.pendingMethods := by
  unfold SessionState.trackRequest SessionState.insertScripthash JsonRpcRequest.isTracked
    JsonRpcRequest.scripthash
  dsimp only
  repeat' split
  all_goals rfl

/-- What is noted for a request, when nothing was noted under its id before it. -/
theorem lookup_trackRequest_of_none {session : SessionState} {request : JsonRpcRequest}
    (hnone : session.pendingMethods.lookup request.id = none) :
    (session.trackRequest request).pendingMethods.lookup request.id =
      if request.isTracked then some (request.method, request.scripthash) else none := by
  rw [trackRequest_notes]
  split
  · exact AList.lookup_insert _
  · exact hnone

/-- The three ways in which a request can end. -/
theorem forward_cases {session session' : SessionState} {request : JsonRpcRequest}
    {seen : List (Seen Act Act.Res)} {reply : Except String Json}
    (h : (forwardSubrequestSync libs p request session).Path anyAnswer seen
      (.ok (reply, session'))) :
    (request.isTracked = false ∧ seen = [] ∧ session' = session) ∨
      (∃ r : Except String String, seen = [⟨request.question libs, r⟩] ∧
        (∀ answer, r = .ok answer → libs.fromStr (Text.trim answer) = none) ∧
        session' = session.trackRequest request) ∨
      ∃ answer msg rest, libs.fromStr (Text.trim answer) = some msg ∧
        seen = ⟨request.question libs, (.ok answer : Except String String)⟩ :: rest ∧
        (receiveAnswer libs p answer request.id (session.trackRequest request)).Path anyAnswer
          rest (.ok (reply, session')) := by
  unfold forwardSubrequestSync at h
  split at h
  · rename_i hbroadcast
    obtain ⟨hseen, ho⟩ := Prog.path_ret_iff.1 h
    cases ho
    refine Or.inl ⟨?_, hseen, rfl⟩
    by_contra htracked
    rw [Bool.not_eq_false] at htracked
    rw [isTracked_not_broadcast htracked] at hbroadcast
    cases hbroadcast
  · obtain ⟨r, l₁, l₂, hask, hrest, rfl⟩ := Prog.path_bind_ok h
    obtain ⟨r', -, rfl, hr⟩ := Prog.path_perform_iff.1 hask
    cases hr
    refine Or.inr ?_
    -- The indexer is asked: it fails, or its answer cannot be read, or a message comes of it.
    cases r with
    | error e =>
      obtain ⟨rfl, ho⟩ := Prog.path_ret_iff.1 hrest
      cases ho
      exact Or.inl ⟨.error e, rfl, (fun answer h => by cases h), rfl⟩
    | ok answer =>
      cases hparse : libs.fromStr (Text.trim answer) with
      | some msg => exact Or.inr ⟨answer, msg, l₂, hparse, rfl, hrest⟩
      | none =>
        have hrest' : (receiveAnswer libs p answer request.id
            (session.trackRequest request)).Path anyAnswer l₂ (.ok (reply, session')) := hrest
        unfold receiveAnswer at hrest'
        rw [hparse] at hrest'
        obtain ⟨rfl, ho⟩ := Prog.path_ret_iff.1 hrest'
        cases ho
        refine Or.inl ⟨.ok answer, rfl, fun answer' h => ?_, rfl⟩
        cases h
        exact hparse

/-- An answer that is received with the request's own note is changed for it, and nothing stays
noted under its id. -/
theorem receiveAnswer_own {session session' : SessionState} {request : JsonRpcRequest}
    {answer : String} {msg : Json} {rest : List (Seen Act Act.Res)} {reply : Except String Json}
    (hparse : libs.fromStr (Text.trim answer) = some msg)
    (hnote : session.pendingMethods.lookup request.id =
      if request.isTracked then some (request.method, request.scripthash) else none)
    (h : (receiveAnswer libs p answer request.id session).Path anyAnswer rest
      (.ok (reply, session'))) :
    (∃ changed, reply = .ok changed ∧
      (ownChange libs p request msg).Path anyAnswer rest (.ok changed)) ∧
      ∀ id, session'.pendingMethods.lookup id =
        if id = request.id then none else session.pendingMethods.lookup id := by
  unfold receiveAnswer at h
  unfold ownChange
  rw [hparse] at h
  dsimp only at h
  rw [hnote] at h
  -- A tracked request finds its own note and takes it back; any other one finds none.
  split at hnote <;> rename_i htracked
  · rw [if_pos htracked] at h ⊢
    obtain ⟨changed, l₁, l₂, hchange, hret, rfl⟩ := Prog.path_bind_ok h
    obtain ⟨rfl, ho⟩ := Prog.path_ret_iff.1 hret
    cases ho
    rw [List.append_nil]
    refine ⟨⟨changed, rfl, hchange⟩, fun id => ?_⟩
    split
    · rename_i hid
      rw [hid]
      exact AList.lookup_erase _ _
    · rename_i hid
      exact AList.lookup_erase_ne hid
  · rw [if_neg htracked] at h ⊢
    obtain ⟨rfl, ho⟩ := Prog.path_ret_iff.1 h
    cases ho
    refine ⟨⟨msg, rfl, .ret msg⟩, fun id => ?_⟩
    split
    · rename_i hid
      rw [hid]
      exact hnote
    · rfl

/-- Nothing is noted. -/
def Notes.Clear (notes : Notes) : Prop := ∀ id, notes.lookup id = none

/-- A request that meets a session without notes has its own answer and leaves no note if and
only if it is answered, and then it leaves no note at all. -/
theorem exchange_of_clear {x : Exchange} {session : SessionState}
    (hclear : Notes.Clear session.pendingMethods)
    (h : (forwardSubrequestSync libs p x.request session).Path anyAnswer x.seen
      (.ok (x.reply, x.session))) :
    (x.OwnChange libs p ∧ x.Released ↔ x.Answered libs) ∧
      (x.Answered libs → Notes.Clear x.session.pendingMethods) := by
  have hnote := lookup_trackRequest_of_none (hclear x.request.id)
  rcases forward_cases h with ⟨htracked, hseen, hsession⟩ |
    ⟨r, hseen, hlost, hsession⟩ | ⟨answer, msg, rest, hparse, hseen, hreceive⟩
  · -- A broadcast is refused before anything is noted.
    have hown : x.OwnChange libs p := by
      rintro msg rest ⟨answer, -, hseen'⟩
      rw [hseen] at hseen'
      cases hseen'
    have hanswered : x.Answered libs := fun h => by rw [htracked] at h; cases h
    have hnone : Notes.Clear x.session.pendingMethods := by
      rw [hsession]
      exact hclear
    exact ⟨iff_of_true ⟨hown, hnone _⟩ hanswered, fun _ => hnone⟩
  · -- No message was received: the note of a tracked request stays behind.
    have hnever : ∀ msg rest, ¬ x.Receives libs msg rest := by
      rintro msg rest ⟨answer, hparse, hseen'⟩
      rw [hseen] at hseen'
      cases hseen'
      rw [hlost answer rfl] at hparse
      cases hparse
    have hown : x.OwnChange libs p := fun msg rest hmsg => absurd hmsg (hnever msg rest)
    have hreleased : x.Released ↔ x.request.isTracked = false := by
      unfold Exchange.Released
      rw [hsession, hnote]
      split <;> simp_all
    have hanswered : x.Answered libs ↔ x.request.isTracked = false := by
      constructor
      · intro hanswered
        by_contra htracked
        obtain ⟨msg, rest, hmsg⟩ := hanswered (by simpa using htracked)
        exact hnever msg rest hmsg
      · intro htracked h
        rw [htracked] at h
        cases h
    refine ⟨?_, fun h id => ?_⟩
    · rw [hreleased, hanswered]
      exact and_iff_right hown
    · rw [hsession, trackRequest_notes, hanswered.1 h]
      exact hclear id
  · -- The message is changed by the note of its own request, which goes.
    obtain ⟨⟨changed, hreply, hchange⟩, hafter⟩ := receiveAnswer_own hparse hnote hreceive
    have hown : x.OwnChange libs p := by
      rintro msg' rest' ⟨answer', hparse', hseen'⟩
      rw [hseen] at hseen'
      cases hseen'
      rw [hparse] at hparse'
      cases hparse'
      exact ⟨changed, hreply, hchange⟩
    have hanswered : x.Answered libs := fun _ => ⟨msg, rest, answer, hparse, hseen⟩
    have hnone : Notes.Clear x.session.pendingMethods := by
      intro id
      rw [hafter]
      split
      · rfl
      · rename_i hid
        rw [trackRequest_notes]
        split
        · rw [AList.lookup_insert_ne hid]
          exact hclear id
        · exact hclear id
    exact ⟨iff_of_true ⟨hown, hnone _⟩ hanswered, fun _ => hnone⟩

end

/-! ### A session -/

/-- In a session that starts without notes, every answer is changed for its own request only,
and every request takes its note back, if and only if every tracked request is answered. -/
theorem every_answer_own_iff (libs : ElectrumLibs) (p : Proc) (xs : List Exchange)
    (hfollows : Follows libs p ∅ xs) :
    (∀ x ∈ xs, x.OwnChange libs p ∧ x.Released) ↔ ∀ x ∈ xs, x.Answered libs := by
  suffices h : ∀ (xs : List Exchange) (notes : Notes), notes.Clear → Follows libs p notes xs →
      ((∀ x ∈ xs, x.OwnChange libs p ∧ x.Released) ↔ ∀ x ∈ xs, x.Answered libs) from
    h xs ∅ (fun _ => rfl) hfollows
  intro xs
  induction xs with
  | nil => exact fun _ _ _ => by simp
  | cons x xs ih =>
    rintro notes hclear ⟨⟨session, rfl, hpath⟩, hrest⟩
    obtain ⟨hfirst, hnext⟩ := exchange_of_clear hclear hpath
    simp only [List.forall_mem_cons]
    -- Once the first request is answered, the rest starts without notes again.
    constructor
    · rintro ⟨hx, hxs⟩
      have hanswered := hfirst.1 hx
      exact ⟨hanswered, (ih _ (hnext hanswered) hrest).1 hxs⟩
    · rintro ⟨hx, hxs⟩
      exact ⟨hfirst.2 hx, (ih _ (hnext hx) hrest).2 hxs⟩

/-! ### An id that is used again -/

/-- The indexer's answer to a request for a block header. -/
def headerAnswer : Json := resultResponse (.ofInt 1) (.str "00ff")

/-- The indexer's answer to a request for a balance. -/
def balanceAnswer : Json :=
  resultResponse (.ofInt 1) (.obj [("confirmed", .ofInt 0), ("unconfirmed", .ofInt 0)])

/-- Libraries that read these two answers. -/
def replyLibs : ElectrumLibs := sampleLibs [headerAnswer, balanceAnswer]

/-- A request for a block header, with the id that `sampleRequest` has. -/
def headerRequest : JsonRpcRequest where
  jsonrpc := some "2.0"
  method := "blockchain.block.header"
  params := some (.arr [.ofInt 100])
  id := .ofInt 1

/-- The indexer does not answer a request for a balance in time. -/
def timedOutBalance : Exchange where
  request := sampleRequest "blockchain.scripthash.get_balance"
  seen := [⟨(sampleRequest "blockchain.scripthash.get_balance").question replyLibs,
    (.error "timeout" : Except String String)⟩]
  reply := .ok (unavailableResponse (.ofInt 1))
  session := ({} : SessionState).trackRequest (sampleRequest "blockchain.scripthash.get_balance")

/-- The wallet uses the id again, for a block header. -/
def changedHeader : Exchange where
  request := headerRequest
  seen := [⟨headerRequest.question replyLibs,
      (.ok (sampleText headerAnswer) : Except String String)⟩,
    ⟨.pendingTxs .daemon, (some holdingWorld.daemon.pendingTxs : Option PendingTxs)⟩]
  reply := .ok (headerAnswer.setField "result" (injectBalanceUnconfirmed (.str "00ff") 5000))
  session := { timedOutBalance.session with
    pendingMethods := timedOutBalance.session.pendingMethods.erase (.ofInt 1) }

theorem follows_timedOut : Follows replyLibs .daemon ∅ [timedOutBalance, changedHeader] := by
  refine ⟨⟨{}, rfl, .act rfl (.ret _)⟩, ⟨timedOutBalance.session, rfl, ?_⟩, trivial⟩
  exact .act rfl (.act rfl (.ret _))

/-- The header that the wallet gets is a balance. -/
theorem timed_out_balance_changes_header :
    Follows replyLibs .daemon ∅ [timedOutBalance, changedHeader] ∧
      ¬ ∀ x ∈ [timedOutBalance, changedHeader], x.OwnChange replyLibs .daemon ∧ x.Released := by
  refine ⟨follows_timedOut, fun h => ?_⟩
  have hown := (h changedHeader (by simp)).1
  obtain ⟨changed, -, hchange⟩ := hown headerAnswer _ ⟨_, rfl, rfl⟩
  obtain ⟨hrest, -⟩ := Prog.path_ret_iff.1 hchange
  cases hrest

/-- The same request for a balance, answered in time. -/
def answeredBalance : Exchange where
  request := sampleRequest "blockchain.scripthash.get_balance"
  seen := [⟨(sampleRequest "blockchain.scripthash.get_balance").question replyLibs,
      (.ok (sampleText balanceAnswer) : Except String String)⟩,
    ⟨.pendingTxs .daemon, (some holdingWorld.daemon.pendingTxs : Option PendingTxs)⟩]
  reply := .ok (balanceAnswer.setField "result"
    (injectBalanceUnconfirmed
      (.obj [("confirmed", .ofInt 0), ("unconfirmed", .ofInt 0)]) 5000))
  session := { timedOutBalance.session with
    pendingMethods := timedOutBalance.session.pendingMethods.erase (.ofInt 1) }

/-- The header of a session without a stale note. -/
def plainHeader : Exchange where
  request := headerRequest
  seen := [⟨headerRequest.question replyLibs,
    (.ok (sampleText headerAnswer) : Except String String)⟩]
  reply := .ok headerAnswer
  session := answeredBalance.session

/-- The two again, in the session after them. -/
def answeredTwice : List Exchange := [answeredBalance, plainHeader, answeredBalance, plainHeader]

/-- The theorem on a session that uses an id four times, and on one with an unanswered request. -/
theorem every_answer_own_iff_answeredBalance :
    ((answeredBalance.OwnChange replyLibs .daemon ∧ answeredBalance.Released) ∧
        plainHeader.OwnChange replyLibs .daemon ∧ plainHeader.Released) ∧
      ((∀ x ∈ [timedOutBalance, changedHeader], x.OwnChange replyLibs .daemon ∧ x.Released) ↔
        ∀ x ∈ [timedOutBalance, changedHeader], x.Answered replyLibs) := by
  have howns : ∀ x ∈ answeredTwice, x.OwnChange replyLibs .daemon ∧ x.Released := by
    refine (every_answer_own_iff replyLibs .daemon answeredTwice ?_).2 ?_
    · refine ⟨⟨{}, rfl, .act rfl (.act rfl (.ret _))⟩, ⟨answeredBalance.session, rfl, ?_⟩,
        ⟨plainHeader.session, rfl, ?_⟩, ⟨answeredBalance.session, rfl, ?_⟩, trivial⟩
      · exact .act rfl (.ret _)
      · exact .act rfl (.act rfl (.ret _))
      · exact .act rfl (.ret _)
    · intro x hx _
      simp only [answeredTwice, List.mem_cons, List.not_mem_nil, or_false] at hx
      rcases hx with rfl | rfl | rfl | rfl
      · exact ⟨balanceAnswer, _, _, rfl, rfl⟩
      · exact ⟨headerAnswer, _, _, rfl, rfl⟩
      · exact ⟨balanceAnswer, _, _, rfl, rfl⟩
      · exact ⟨headerAnswer, _, _, rfl, rfl⟩
  exact ⟨⟨howns _ (by simp [answeredTwice]), howns _ (by simp [answeredTwice])⟩,
    every_answer_own_iff replyLibs .daemon _ follows_timedOut⟩

end BroadcastPool
