import BroadcastPool.Proofs.Electrum.Crash
import BroadcastPool.Proofs.Electrum.Writes
import Mathlib.Data.List.Forall2

/-!
# `BroadcastPool.Proofs.Electrum.Replies`: one response for every request

A line that asks for no broadcast is answered with one text. It holds a response for every request
of the line, in their order, each with the id of its own request: also where the indexer is not
there or sends no JSON, where an answer is changed for held transactions, and where a request is
answered here (`replies_complete`). Of the indexer it is assumed that it answers a request with the
request's id, and as in `fitting`; of the line, that no log line cuts it inside a character.

`RespondsTo` is this property of the answer to one request. Every branch of
`handle_one_subrequest` has it and writes nothing itself (`responds_handleOneSubrequest`).
`LineEnds` says how the handling of the line can end, a failure included: nothing stops the reply
but a configuration that cannot be read, and then nothing has been written, or a wallet that is gone
when the reply is written.
-/

set_option autoImplicit false

namespace BroadcastPool

open Effects

/-- The indexer gives its answers the id of the request. -/
def echoesIds (libs : ElectrumLibs) : (a : Act) → a.Res → Prop
  | .forwardToIndexer text, r =>
    ∀ request answer msg, text = libs.toText (JsonRpcRequest.toJson request) → r = .ok answer →
      libs.fromStr (Text.trim answer) = some msg → msg.get? "id" = some request.id
  | _, _ => True

/-- A response has the id. An error gets it later. -/
def RespondsTo (id : Json) : Except String Json → Prop
  | .ok response => response.get? "id" = some id
  | .error _ => True

section
variable {settings : SessionSettings} {env : Env} {libs : ElectrumLibs} {headers : HeaderLibs}
variable {p : Proc} {α β : Type}

theorem respondsTo_resultResponse (id result : Json) :
    RespondsTo id (.ok (resultResponse id result)) := rfl

/-- A silent program whose reply is one to a request with this id. -/
def Responds (libs : ElectrumLibs) (id : Json) (reply : α → Except String Json) (prog : M α) :
    Prop :=
  Writes (echoesIds libs) (fun texts a => texts = [] ∧ RespondsTo id (reply a)) prog

variable {id : Json} {reply : α → Except String Json}

theorem responds_ret {a : α} (h : RespondsTo id (reply a)) :
    Responds libs id reply (.ret a : M α) :=
  writes_ret ⟨rfl, h⟩

/-- The rest of a program, after a silent part. -/
theorem responds_seq {prog : M β} {f : β → M α} (hp : IsSilent (echoesIds libs) prog)
    (hf : ∀ b, Responds libs id reply (f b)) : Responds libs id reply (prog.bind f) :=
  writes_seq hp hf

/-- The rest of a program that passes a reply on. -/
theorem responds_bind {between : β → Except String Json} {prog : M β} {f : β → M α}
    (hp : Responds libs id between prog)
    (hf : ∀ b, RespondsTo id (between b) → Responds libs id reply (f b)) :
    Responds libs id reply (prog.bind f) := by
  refine writes_bind hp fun texts b hb => ?_
  rw [hb.1]
  exact hf b hb.2

/-! ### One request -/

theorem responds_modifyUpstreamResponse {msg : Json} (h : msg.get? "id" = some id)
    (method scripthash : String) :
    Responds libs id Except.ok (modifyUpstreamResponse libs p msg method scripthash) := by
  have hfield : ∀ value, RespondsTo id (.ok (msg.setField "result" value)) := by
    intro value
    show (msg.setField "result" value).get? "id" = some id
    rw [Json.get?_setField_ne (by decide), h]
  have hset : ∀ value, Responds libs id Except.ok (setResult msg value) := by
    intro value
    cases msg with
    | obj fields => exact responds_ret (hfield value)
    | _ => cases h
  unfold modifyUpstreamResponse
  split
  · split
    · exact responds_seq (silent_getPendingTxids _) fun _ => responds_ret (hfield _)
    · exact responds_ret h
  split
  · refine responds_seq (silent_getPendingTxids _) fun pending => ?_
    split
    · exact hset _
    · exact responds_ret h
  split
  · split
    · exact responds_seq (writes_seq (silent_act rfl) fun _ => writes_ret rfl)
        fun _ => responds_ret (hfield _)
    · exact responds_ret h
  split
  · split
    · exact responds_seq (writes_seq (silent_act rfl) fun _ => writes_ret rfl)
        fun _ => responds_ret (hfield _)
    · exact responds_ret h
  split
  · split
    · exact responds_seq (silent_getPendingTxids _) fun _ => responds_ret (hfield _)
    · exact responds_ret h
  · exact responds_ret h

/-- An answer of the indexer, if it is JSON, has the id of the request. -/
theorem responds_receiveAnswer {answer : String} {request : JsonRpcRequest}
    (h : echoesIds libs (.forwardToIndexer (libs.toText request.toJson))
      (.ok answer : Except String String)) (session : SessionState) :
    Responds libs request.id Prod.fst (receiveAnswer libs p answer request.id session) := by
  unfold receiveAnswer
  split
  · exact responds_ret trivial
  · rename_i msg hmsg
    have hid := h request answer msg rfl rfl hmsg
    split
    · exact responds_ret hid
    · exact responds_bind (responds_modifyUpstreamResponse hid _ _)
        fun _ hchanged => responds_ret hchanged

theorem responds_forwardSubrequestSync (request : JsonRpcRequest) (session : SessionState) :
    Responds libs request.id Prod.fst (forwardSubrequestSync libs p request session) := by
  unfold forwardSubrequestSync
  split
  · exact responds_ret trivial
  · refine writes_ask rfl fun answer hanswer => ?_
    cases answer with
    | error e => exact responds_ret (by rfl)
    | ok text => exact responds_receiveAnswer hanswer _

theorem responds_forwardOrUnavailable (request : JsonRpcRequest) (indexerUrl : String)
    (session : SessionState) :
    Responds libs request.id Prod.fst
      (forwardOrUnavailable libs p request indexerUrl session) := by
  unfold forwardOrUnavailable
  split
  · exact responds_ret (by rfl)
  · exact responds_forwardSubrequestSync request session

theorem silent_sliceAt (s : String) (n : Nat) : IsSilent (echoesIds libs) (sliceAt s n) := by
  unfold sliceAt
  split
  · exact writes_ret rfl
  · exact writes_fail _

theorem silent_logSlice (level : LogLevel) (s : String) (n : Nat) :
    IsSilent (echoesIds libs) (logSlice settings level s n) := by
  unfold logSlice
  split
  · exact silent_sliceAt s _
  · exact writes_ret rfl

theorem silent_trackScripthashInterest (session : SessionState) (scripthash : String) :
    IsSilent (echoesIds libs) (trackScripthashInterest p session scripthash) := by
  unfold trackScripthashInterest
  split
  · exact writes_ret rfl
  · exact writes_seq (silent_act rfl) fun _ => writes_ret rfl

theorem respondsTo_fastResponse {request : JsonRpcRequest} {pending : List String}
    {response : Json} (h : fastResponse libs request pending = some response) :
    RespondsTo request.id (.ok response) := by
  unfold fastResponse at h
  split at h
  · cases h
  split at h
  · obtain ⟨hash, -, rfl⟩ := Option.map_eq_some_iff.1 h
    exact respondsTo_resultResponse _ _
  · cases h
    exact respondsTo_resultResponse _ _

theorem responds_handleFastSubrequest (request : JsonRpcRequest) (indexerUrl : String)
    (session : SessionState) :
    Responds libs request.id Prod.fst
      (handleFastSubrequest settings libs p request indexerUrl session) := by
  unfold handleFastSubrequest
  split
  · refine responds_seq (silent_trackScripthashInterest session _) fun session => ?_
    refine responds_seq (silent_getPendingTxids _) fun pending => ?_
    split
    · rename_i response hresponse
      exact responds_seq (silent_logSlice _ _ _) fun _ =>
        responds_ret (respondsTo_fastResponse hresponse)
    · exact responds_forwardOrUnavailable request indexerUrl session
  · exact responds_forwardOrUnavailable request indexerUrl session

theorem responds_handleTransactionGet (request : JsonRpcRequest) (indexerUrl : String)
    (session : SessionState) :
    Responds libs request.id Prod.fst
      (handleTransactionGet libs p request indexerUrl session) := by
  unfold handleTransactionGet
  split
  · refine responds_seq (lookup_lookupTxHex p _).memory.silent fun hex => ?_
    cases hex with
    | some hex => exact responds_ret (respondsTo_resultResponse _ _)
    | none => exact responds_forwardOrUnavailable request indexerUrl session
  · exact responds_forwardOrUnavailable request indexerUrl session

/-- A response, if there is one. -/
abbrev RespondsIfSome (libs : ElectrumLibs) (id : Json) (prog : M (Option Json)) : Prop :=
  Responds libs id (fun response => response.elim (.error "") .ok) prog

theorem responds_localElectrumResponse (request : JsonRpcRequest) :
    RespondsIfSome libs request.id (localElectrumResponse settings p request) := by
  unfold localElectrumResponse
  split
  · exact responds_ret (respondsTo_resultResponse _ _)
  split
  · exact responds_ret (respondsTo_resultResponse _ _)
  split
  · exact responds_ret (respondsTo_resultResponse _ _)
  split
  · exact responds_seq (silent_act rfl) fun _ =>
      responds_ret (respondsTo_resultResponse _ _)
  · exact responds_ret trivial

theorem responds_cachedTipResponse (request : JsonRpcRequest) :
    RespondsIfSome libs request.id (cachedTipResponse p request) := by
  refine responds_seq (silent_act rfl) fun tip => ?_
  rcases tip with _ | ⟨height, hex⟩
  · exact responds_ret trivial
  · exact responds_ret (respondsTo_resultResponse _ _)

theorem responds_virtualTipResponse (request : JsonRpcRequest) (virtualTip : Option Nat) :
    RespondsIfSome libs request.id (virtualTipResponse headers p request virtualTip) := by
  unfold virtualTipResponse
  split
  · exact responds_ret trivial
  · refine responds_seq (silent_act rfl) fun tip => ?_
    rcases tip with _ | ⟨height, hex⟩
    · exact responds_ret trivial
    · dsimp only
      split
      · exact responds_ret (respondsTo_resultResponse _ _)
      · exact responds_ret trivial

theorem responds_askTip (request : JsonRpcRequest) (indexerUrl : String) :
    RespondsIfSome libs request.id (askTip libs p request indexerUrl) := by
  unfold askTip
  split
  · exact responds_ret trivial
  · refine writes_ask rfl fun answer hanswer => ?_
    cases answer with
    | error e => exact responds_ret trivial
    | ok text =>
      dsimp only
      split
      · exact responds_ret trivial
      · rename_i msg hmsg
        split
        · exact responds_ret trivial
        · exact responds_seq (silent_act rfl) fun _ =>
            responds_ret (hanswer request text msg rfl rfl hmsg)

theorem responds_handleHeadersSubscribe (request : JsonRpcRequest) (indexerUrl : String)
    (virtualTip : Option Nat) :
    Responds libs request.id Except.ok
      (handleHeadersSubscribe libs headers p request indexerUrl virtualTip) := by
  refine responds_bind (responds_virtualTipResponse request virtualTip) fun virtual h => ?_
  cases virtual with
  | some response => exact responds_ret h
  | none =>
    refine responds_bind (responds_cachedTipResponse request) fun cached h => ?_
    cases cached with
    | some response => exact responds_ret h
    | none =>
      refine responds_bind (responds_askTip request indexerUrl) fun asked h => ?_
      cases asked with
      | some response => exact responds_ret h
      | none =>
        refine responds_bind (responds_cachedTipResponse request) fun again h => ?_
        cases again with
        | some response => exact responds_ret h
        | none => exact responds_ret (by rfl)

theorem responds_serveVirtualBlockHeader (request : JsonRpcRequest) (virtualTip : Option Nat) :
    RespondsIfSome libs request.id
      (serveVirtualBlockHeader headers p request virtualTip) := by
  unfold serveVirtualBlockHeader
  split
  · split
    · exact responds_ret trivial
    · split
      · refine responds_seq (silent_act rfl) fun tip => ?_
        rcases tip with _ | ⟨height, hex⟩
        · exact responds_ret trivial
        · dsimp only
          split
          · exact responds_ret (respondsTo_resultResponse _ _)
          · exact responds_ret trivial
      · exact responds_ret trivial
  · exact responds_ret trivial

theorem responds_handleHeaderSubrequest (request : JsonRpcRequest)
    (indexerUrl sourceLabel : String) (wallet : HeaderSession) (session : SessionState) :
    Responds libs request.id (fun r : Reply × HeaderSession => r.1.1)
      (handleHeaderSubrequest libs headers p request indexerUrl sourceLabel wallet session) := by
  refine responds_seq (silent_act rfl) fun cfg => ?_
  cases cfg with
  | error e => exact responds_ret trivial
  | ok cfg =>
    dsimp only
    split
    · exact responds_bind (responds_handleHeadersSubscribe request _ _)
        fun _ h => responds_ret h
    · refine responds_bind (responds_serveVirtualBlockHeader request _) fun served h => ?_
      cases served with
      | some response => exact responds_ret h
      | none =>
        exact responds_bind (responds_forwardOrUnavailable request _ _)
          fun _ h => responds_ret h

theorem responds_onScripthashes (session : ClientSession) {branch : SessionState → M Reply}
    (h : Responds libs id Prod.fst (branch session.scripthashes)) :
    Responds libs id Prod.fst (onScripthashes session branch) :=
  responds_bind h fun _ hreply => responds_ret hreply

theorem respondsTo_localFastResponse {request : JsonRpcRequest} {response : Json}
    (h : localFastResponse request = some response) : RespondsTo request.id (.ok response) := by
  unfold localFastResponse at h
  repeat' split at h
  all_goals cases h
  all_goals exact respondsTo_resultResponse _ _

/-- Whatever answers a request, the answer is one to that request. -/
theorem responds_handleOneSubrequest (request : JsonRpcRequest)
    (indexerUrl sourceLabel : String) (session : ClientSession) :
    Responds libs request.id Prod.fst
      (handleOneSubrequest settings libs headers p request indexerUrl sourceLabel session) := by
  unfold handleOneSubrequest
  split
  · refine responds_bind (responds_localElectrumResponse request) fun response h => ?_
    cases response with
    | some response => exact responds_ret h
    | none => exact responds_ret trivial
  split
  · rename_i response hresponse
    exact responds_ret (respondsTo_localFastResponse hresponse)
  split
  · exact responds_ret (by rfl)
  split
  · exact responds_onScripthashes session (responds_handleFastSubrequest request _ _)
  split
  · exact responds_onScripthashes session (responds_handleTransactionGet request _ _)
  split
  · exact responds_bind (responds_handleHeaderSubrequest request _ _ _ _)
      fun _ h => responds_ret h
  · exact responds_onScripthashes session (responds_forwardOrUnavailable request _ _)

/-! ### One line -/

/-- The responses answer the requests, one by one. -/
def AnswersAll (requests : List JsonRpcRequest) (responses : List Json) : Prop :=
  List.Forall₂ (fun request response => response.get? "id" = some request.id) requests responses

/-- How the responses to a line are put into one value. A batch gets an array. A single request
gets its response, and so does a batch of one request for the headers that is answered from the
cached tip. -/
inductive IsReply (libs : ElectrumLibs) (line : String) : List Json → Json → Prop
  | array (responses : List Json) (hbatch : lineIsBatch line = true) :
      IsReply libs line responses (.arr responses)
  | single (response : Json) (responses : List Json)
      (hline : lineIsBatch line = false ∨ headersRequest libs line ≠ none) :
      IsReply libs line (response :: responses) response

/-- The text is the reply to the line: it holds the responses to its requests. -/
def IsReplyText (libs : ElectrumLibs) (line : String) (requests : List JsonRpcRequest)
    (text : String) : Prop :=
  ∃ responses body, text = libs.toText body ++ "\n" ∧ IsReply libs line responses body ∧
    AnswersAll requests responses

/-- How the handling of a line can end. The reply is the one text that is written, and the last
thing that is done, whether the wallet takes it or not. Before that, only the lock on the
configuration can fail. -/
inductive LineEnds (libs : ElectrumLibs) (line : String) (requests : List JsonRpcRequest)
    {α : Type} : List (Seen Act Act.Res) → Except Failure α → Prop
  | replied (before : List (Seen Act Act.Res)) (text : String) (a : α)
      (hsilent : writtenTexts before = []) (hreply : IsReplyText libs line requests text) :
      LineEnds libs line requests
        (before ++ [⟨.writeClient text, (.ok () : Except String Unit)⟩]) (.ok a)
  | gone (before : List (Seen Act Act.Res)) (text e : String)
      (hsilent : writtenTexts before = []) (hreply : IsReplyText libs line requests text) :
      LineEnds libs line requests
        (before ++ [⟨.writeClient text, (.error e : Except String Unit)⟩]) (.error (.error e))
  | noConfig (before : List (Seen Act Act.Res)) (p : Proc) (e : String)
      (hsilent : writtenTexts before = []) :
      LineEnds libs line requests
        (before ++ [⟨.lockConfig p, (.error e : Except String Config)⟩]) (.error (.error e))

/-- The answers of the outside world to the questions of a session. -/
def heard (env : Env) (libs : ElectrumLibs) (a : Act) (r : a.Res) : Prop :=
  fitting env libs a r ∧ echoesIds libs a r

theorem fitting_of_heard (a : Act) (r : a.Res) (h : heard env libs a r) : fitting env libs a r :=
  h.1

theorem echoesIds_of_heard (a : Act) (r : a.Res) (h : heard env libs a r) : echoesIds libs a r :=
  h.2

variable {answers : (a : Act) → a.Res → Prop} {requests : List JsonRpcRequest} {line : String}
  {l l' : List (Seen Act Act.Res)}

theorem LineEnds.after (hl : writtenTexts l = []) {o : Except Failure α}
    (h : LineEnds libs line requests l' o) : LineEnds libs line requests (l ++ l') o := by
  have hboth : ∀ {before}, writtenTexts before = [] → writtenTexts (l ++ before) = [] := by
    intro before hbefore
    rw [writtenTexts_append, hl, hbefore, List.append_nil]
  cases h with
  | replied before text a hsilent hreply =>
    rw [← List.append_assoc]
    exact .replied _ text a (hboth hsilent) hreply
  | gone before text e hsilent hreply =>
    rw [← List.append_assoc]
    exact .gone _ text e (hboth hsilent) hreply
  | noConfig before p e hsilent =>
    rw [← List.append_assoc]
    exact .noConfig _ p e (hboth hsilent)

/-- What follows a silent part ends the line. -/
theorem concludes_after {R : α → Prop} {prog : M α} {f : α → M β}
    (hp : Writes answers (fun texts a => texts = [] ∧ R a) prog) (hno : prog.NeverFails answers)
    (hf : ∀ a, R a → (f a).Concludes answers (LineEnds libs line requests)) :
    (prog.bind f).Concludes answers (LineEnds libs line requests) := by
  refine Prog.concludes_bind (Prog.Yields.concludes hp hno) (fun l e h => ?_) fun l a h => ?_
  · obtain ⟨a, ha, -⟩ := h
    cases ha
  · obtain ⟨a, ha, hsilent, hr⟩ := h
    cases ha
    exact (hf a hr).mono fun l' o h => h.after hsilent

/-- Nothing is done after the reply. -/
theorem concludes_finish {prog : M α}
    (hp : prog.Concludes answers (LineEnds libs line requests)) {f : α → M β} {b : α → β}
    (hf : ∀ a, f a = .ret (b a)) :
    (prog.bind f).Concludes answers (LineEnds libs line requests) := by
  refine Prog.concludes_bind hp (fun l e h => ?_) fun l a h => ?_
  · cases h with
    | gone before text e hsilent hreply => exact .gone before text e hsilent hreply
    | noConfig before p e hsilent => exact .noConfig before p e hsilent
  · rw [hf a]
    refine Prog.concludes_ret ?_
    rw [List.append_nil]
    cases h with
    | replied before text a hsilent hreply => exact .replied before text _ hsilent hreply

/-- The configuration is read, and the line goes on. -/
theorem concludes_readConfig {f : Config → M α}
    (hf : ∀ config, (f config).Concludes answers (LineEnds libs line requests)) :
    ((orRaise (perform (.lockConfig p))).bind f).Concludes answers
      (LineEnds libs line requests) := by
  unfold orRaise
  rw [Prog.bind_assoc]
  refine Prog.concludes_perform_bind fun locked _ => ?_
  cases locked with
  | ok config => exact (hf config).mono fun l o h => h.after (l := [_]) rfl
  | error e => exact Prog.concludes_fail (.noConfig [] p e rfl)

theorem concludes_write {response : Json}
    (h : IsReplyText libs line requests (libs.toText response ++ "\n")) :
    (orRaise (writeLine libs response)).Concludes answers (LineEnds libs line requests) := by
  refine Prog.concludes_perform_bind fun written _ => ?_
  cases written with
  | ok u => exact Prog.concludes_ret (.replied [] _ () rfl h)
  | error e => exact Prog.concludes_fail (.gone [] _ e rfl h)

theorem concludes_writeClientResponses {responses : List Json}
    (h : AnswersAll requests responses) (hnil : responses = [] → lineIsBatch line = true) :
    (writeClientResponses libs responses (lineIsBatch line)).Concludes answers
      (LineEnds libs line requests) := by
  unfold writeClientResponses
  split
  · rename_i hbatch
    exact concludes_write ⟨responses, _, rfl, .array responses hbatch, h⟩
  · rename_i hsingle
    cases responses with
    | nil => exact absurd (hnil rfl) hsingle
    | cons response responses =>
      exact concludes_write
        ⟨_, _, rfl, .single response responses (Or.inl (by simpa using hsingle)), h⟩

/-- A line without requests is a batch, so that there is a first response where one is needed. -/
theorem lineIsBatch_of_answersAll (hfit : LibsFit env libs)
    (hparse : parseSubrequests libs line = some requests) {responses : List Json}
    (h : AnswersAll requests responses) (hnil : responses = []) : lineIsBatch line = true := by
  rw [hnil] at h
  cases h
  exact lineIsBatch_of_empty hfit hparse

theorem writes_answerAll (indexerUrl sourceLabel : String) (requests : List JsonRpcRequest)
    (session : ClientSession) :
    Writes (echoesIds libs) (fun texts r => texts = [] ∧ AnswersAll requests r.1)
      (answerAll settings libs headers p indexerUrl sourceLabel requests session) := by
  induction requests generalizing session with
  | nil => exact writes_ret ⟨rfl, .nil⟩
  | cons request requests ih =>
    refine writes_bind (responds_handleOneSubrequest request indexerUrl sourceLabel session)
      fun texts reply hreply => ?_
    rw [hreply.1]
    refine writes_bind (ih reply.2) fun more rest hrest => ?_
    rw [hrest.1]
    refine writes_ret ⟨rfl, .cons ?_ hrest.2⟩
    -- An error is answered with the id too.
    cases hresponse : reply.1 with
    | ok response =>
      have h := hreply.2
      rw [hresponse] at h
      exact h
    | error e => rfl

/-- The answers to a handshake, if all its requests have one. -/
theorem writes_localResponses (requests : List JsonRpcRequest) :
    Writes (echoesIds libs)
      (fun texts r => texts = [] ∧ ∀ responses, r = some responses → AnswersAll requests responses)
      (localResponses settings p requests) := by
  induction requests with
  | nil =>
    refine writes_ret ⟨rfl, fun responses h => ?_⟩
    cases h
    exact .nil
  | cons request requests ih =>
    refine writes_bind (responds_localElectrumResponse request) fun texts response h => ?_
    rw [h.1]
    cases response with
    | none => exact writes_ret ⟨rfl, fun _ hnone => by cases hnone⟩
    | some response =>
      refine writes_bind ih fun more rest hrest => ?_
      rw [hrest.1]
      refine writes_ret ⟨rfl, fun responses hresponses => ?_⟩
      obtain ⟨others, hothers, rfl⟩ := Option.map_eq_some_iff.1 hresponses
      exact .cons h.2 (hrest.2 others hothers)

theorem handshakeRequests_eq (h : handshakeRequests libs line = some requests) :
    parseSubrequests libs line = some requests := by
  unfold handshakeRequests at h
  split at h
  · rename_i hparse
    split at h
    · cases h
      exact hparse
    · cases h
  · cases h

/-- Every request of a handshake has an answer. -/
theorem writes_handshake (h : handshakeRequests libs line = some requests) :
    Writes (heard env libs)
      (fun texts r => texts = [] ∧ ∃ responses, r = some responses ∧ AnswersAll requests responses)
      (localResponses settings p requests) := by
  intro l r hpath
  have hlocal := (local_of_handshakeRequests h).2
  obtain ⟨responses, rfl, -⟩ := length_of_localResponses hlocal ⟨l, hpath⟩
  have hwrites := writes_localResponses requests l _ (hpath.mono echoesIds_of_heard)
  exact ⟨hwrites.1, responses, rfl, hwrites.2 responses rfl⟩

/-- A handshake ends with its reply. -/
theorem concludes_handshake (hfit : LibsFit env libs)
    (hhandshake : handshakeRequests libs line = some requests) {f : Bool → M α} {a : α}
    (hf : f true = .ret a) :
    ((answerHandshake settings libs p line).bind f).Concludes (heard env libs)
      (LineEnds libs line requests) := by
  rw [answerHandshake_some hhandshake, Prog.bind_assoc]
  refine concludes_after (writes_handshake hhandshake) (neverFails_localResponses requests)
    fun responses h => ?_
  obtain ⟨vs, rfl, hall⟩ := h
  have hreply : (writeClientResponses libs vs (lineIsBatch line)).Concludes (heard env libs)
      (LineEnds libs line requests) :=
    concludes_writeClientResponses hall
      (lineIsBatch_of_answersAll hfit (handshakeRequests_eq hhandshake) hall)
  show (((writeClientResponses libs vs (lineIsBatch line)).bind fun _ => .ret true).bind
    f).Concludes _ _
  rw [Prog.bind_assoc]
  exact concludes_finish hreply fun _ => hf

theorem headersRequest_eq {request : JsonRpcRequest}
    (h : headersRequest libs line = some request) :
    parseSubrequests libs line = some [request] := by
  unfold headersRequest at h
  split at h
  · rename_i hparse
    split at h
    · cases h
      exact hparse
    · cases h
  · cases h

/-- A line that only subscribes to the headers is answered from the cached tip, or as any other. -/
theorem concludes_answerFromCache (hparse : parseSubrequests libs line = some requests)
    (sourceLabel : String) (session : ClientSession) {f : Bool × ClientSession → M ClientSession}
    (hdone : ∀ session, f (true, session) = .ret session)
    (hrest : ∀ session,
      (f (false, session)).Concludes (heard env libs) (LineEnds libs line requests)) :
    ((answerFromCache libs p line sourceLabel session).bind f).Concludes (heard env libs)
      (LineEnds libs line requests) := by
  unfold answerFromCache
  split
  · exact hrest _
  · rename_i request hrequest
    have hsame := headersRequest_eq hrequest
    rw [hparse] at hsame
    cases hsame
    have hline : lineIsBatch line = false ∨ headersRequest libs line ≠ none := by
      rw [hrequest]
      exact Or.inr (Option.some_ne_none _)
    rw [Prog.bind_eq, Prog.bind_assoc]
    refine concludes_readConfig fun config => ?_
    split
    · rw [Prog.bind_eq, Prog.bind_assoc]
      refine concludes_after
        (Prog.Yields.anti echoesIds_of_heard (responds_cachedTipResponse request))
        (neverFails_cachedTipResponse request) fun cached h => ?_
      cases cached with
      | none => exact hrest _
      | some response =>
        show (((orRaise (writeLine libs response)).bind _).bind f).Concludes _ _
        rw [Prog.bind_assoc]
        exact concludes_finish
          (concludes_write ⟨[response], response, rfl, .single response [] hline, .cons h .nil⟩)
          fun _ => hdone _
    · exact hrest _

/-- The line asks for no broadcast, whichever way it is read. -/
structure NoBroadcast (libs : ElectrumLibs) (line : String) (requests : List JsonRpcRequest) :
    Prop where
  value : extractBroadcastHex libs line = none
  text : lineLooksLikeBroadcast line = false
  requests : requests.find? (isBroadcastMethod ·.method) = none

theorem concludes_answerRequests (hfit : LibsFit env libs)
    (hparse : parseSubrequests libs line = some requests) (hno : NoBroadcast libs line requests)
    (indexerUrl sourceLabel : String) (session : ClientSession) :
    (answerRequests settings env libs headers p line indexerUrl sourceLabel requests
      session).Concludes (heard env libs) (LineEnds libs line requests) := by
  unfold answerRequests
  rw [hno.requests]
  refine concludes_after
    (Prog.Yields.anti echoesIds_of_heard (writes_answerAll indexerUrl sourceLabel requests _))
    (Prog.Within.anti fitting_of_heard (neverFails_answerAll hfit _ _ _ _)) fun r hall => ?_
  exact concludes_finish
    (concludes_writeClientResponses hall (lineIsBatch_of_answersAll hfit hparse hall))
    fun _ => rfl

/-- A line whose log lines are whole is answered as its requests are. -/
theorem answerLine_eq (hclean : LogsCleanly settings libs line)
    (hparse : parseSubrequests libs line = some requests) (hno : NoBroadcast libs line requests)
    (indexerUrl sourceLabel : String) (session : ClientSession) :
    answerLine settings env libs headers p line indexerUrl sourceLabel session =
      answerRequests settings env libs headers p line indexerUrl sourceLabel requests session := by
  have hlog : logIncomingClientLine settings line = .ret () := by
    unfold logIncomingClientLine
    split
    · rename_i hmentions
      exact logSlice_clean (hclean.incoming hmentions)
    · rfl
  unfold answerLine routeLine
  rw [hlog, hno.value, hparse, hno.text]
  rfl

/-- A line that is no handshake and does more than subscribe to the headers has no early
answer. -/
theorem processClientLine_eq (hline : Text.trim line ≠ "")
    (hhandshake : handshakeRequests libs line = none) (hheaders : headersRequest libs line = none)
    (indexerUrl sourceLabel : String) (session : ClientSession) :
    processClientLine settings env libs headers p line indexerUrl sourceLabel session =
      answerLine settings env libs headers p line indexerUrl sourceLabel
        { session.countLine with
          wallet := captureWalletFingerprint libs line session.countLine.wallet } := by
  unfold processClientLine answerFromCache
  simp only [if_neg hline, answerHandshake_none hhandshake, hheaders, Prog.bind_eq,
    Prog.pure_eq_ret, Prog.bind, Bool.false_eq_true, if_false]

/-- A line that asks for no broadcast gets one text, with a response for every request, unless the
configuration cannot be read or the wallet is gone. -/
theorem replies_complete (hfit : LibsFit env libs) (hsafe : LineSafe settings libs line)
    (hline : Text.trim line ≠ "") (hparse : parseSubrequests libs line = some requests)
    (hno : NoBroadcast libs line requests) (indexerUrl sourceLabel : String)
    (session : ClientSession) :
    (processClientLine settings env libs headers p line indexerUrl sourceLabel
      session).Concludes (heard env libs) (LineEnds libs line requests) := by
  unfold processClientLine
  rw [if_neg hline]
  cases hhandshake : handshakeRequests libs line with
  | some handshake =>
    have hsame := handshakeRequests_eq hhandshake
    rw [hparse] at hsame
    cases hsame
    exact concludes_handshake hfit hhandshake rfl
  | none =>
    rw [answerHandshake_none hhandshake]
    have hclean := (hsafe.resolve_left hline).resolve_left fun h => h hhandshake
    refine concludes_answerFromCache hparse sourceLabel _ (fun _ => rfl) fun session => ?_
    show (answerLine settings env libs headers p line indexerUrl sourceLabel session).Concludes _ _
    rw [answerLine_eq hclean hparse hno]
    exact concludes_answerRequests hfit hparse hno indexerUrl sourceLabel session

end

/-! ### A batch of two requests -/

/-- An indexer that is not there, a script with the scripthash "ab", and a wallet that may be
gone. -/
def lonelyEnv (gone : Option String) : Env :=
  { sampleEnv with scripthash := fun _ => "ab", clientGone := fun _ => gone }

/-- A question that is answered for the held transaction, and one for the indexer. -/
def sampleMixed : List JsonRpcRequest :=
  [⟨none, "blockchain.scripthash.get_mempool", some (.arr [.str "ab"]), .ofInt 1⟩,
    ⟨none, "blockchain.transaction.get_merkle", none, .ofInt 2⟩]

/-- The two as a batch. -/
def sampleBatch : Json := .arr (sampleMixed.map (·.toJson))

/-- Libraries that read the batch. -/
def batchLibs : ElectrumLibs := sampleLibs [sampleBatch]

theorem fromStr_sampleText (v : Json) : (sampleLibs [v]).fromStr (sampleText v) = some v :=
  List.find?_cons_of_pos (p := fun w => decide (sampleText w = sampleText v)) (decide_eq_true rfl)

/-- The handling of the batch. -/
def serveBatch (gone : Option String) : M ClientSession :=
  processClientLine ⟨fun _ => true, none⟩ (lonelyEnv gone) batchLibs sampleHeaders .daemon
    (sampleText sampleBatch) "tcp://127.0.0.1:50001" "sparrow" {}

/-- The reply to the batch. -/
def batchReply : Json :=
  .arr [resultResponse (.ofInt 1)
      (buildScripthashMempoolResult "blockchain.scripthash.get_mempool" ["07"]),
    unavailableResponse (.ofInt 2)]

theorem libsFit_batch (gone : Option String) : LibsFit (lonelyEnv gone) batchLibs where
  scripthash _ := (by decide : Text.IsAscii "ab")
  bracket := (libsFit_sample [sampleBatch]).bracket

theorem trim_batch : Text.trim (sampleText sampleBatch) = sampleText sampleBatch := by
  decide +kernel

theorem trim_batch_ne : Text.trim (sampleText sampleBatch) ≠ "" := by
  rw [trim_batch]
  decide +kernel

theorem lineValue_batch : lineValue batchLibs (sampleText sampleBatch) = some sampleBatch := by
  unfold lineValue
  rw [trim_batch]
  exact fromStr_sampleText sampleBatch

section
variable {line : String}

/-- A line is read by its value alone. -/
theorem parseSubrequests_of_value (h : lineValue batchLibs line = some sampleBatch) :
    parseSubrequests batchLibs line = some sampleMixed := by
  unfold parseSubrequests
  rw [h]
  rfl

theorem extractBroadcastHex_of_value (h : lineValue batchLibs line = some sampleBatch) :
    extractBroadcastHex batchLibs line = none := by
  unfold extractBroadcastHex
  rw [h]
  rfl

theorem handshakeRequests_of_value (h : lineValue batchLibs line = some sampleBatch) :
    handshakeRequests batchLibs line = none := by
  unfold handshakeRequests
  rw [parseSubrequests_of_value h]
  rfl

theorem headersRequest_of_value (h : lineValue batchLibs line = some sampleBatch) :
    headersRequest batchLibs line = none := by
  unfold headersRequest
  rw [parseSubrequests_of_value h]
  rfl

end

theorem ascii_batch : Text.IsAscii (sampleText sampleBatch) := by decide +kernel

theorem logsCleanly_batch :
    LogsCleanly ⟨fun _ => true, none⟩ batchLibs (sampleText sampleBatch) where
  incoming _ _ := cutsCleanly_ascii ascii_batch _
  unreadBroadcast _ _ _ := cutsCleanly_ascii ascii_batch _
  notRequests _ _ _ _ _ := cutsCleanly_ascii ascii_batch _

theorem noBroadcast_batch : NoBroadcast batchLibs (sampleText sampleBatch) sampleMixed :=
  ⟨extractBroadcastHex_of_value lineValue_batch, by decide +kernel, rfl⟩

theorem lineIsBatch_batch : lineIsBatch (sampleText sampleBatch) = true := by
  refine Text.startsWith_trimStart ((libsFit_batch none).bracket _ (sampleMixed.map (·.toJson)) ?_)
  rw [trim_batch]
  exact fromStr_sampleText sampleBatch

/-- The session once it has read the batch. -/
def batchSession : ClientSession :=
  let session := ({} : ClientSession).countLine
  { session with
    wallet := captureWalletFingerprint batchLibs (sampleText sampleBatch) session.wallet }

/-- No early answer is given to the batch. -/
theorem serveBatch_eq (gone : Option String) :
    serveBatch gone = answerRequests ⟨fun _ => true, none⟩ (lonelyEnv gone) batchLibs
      sampleHeaders .daemon (sampleText sampleBatch) "tcp://127.0.0.1:50001" "sparrow" sampleMixed
      batchSession :=
  (processClientLine_eq trim_batch_ne (handshakeRequests_of_value lineValue_batch)
      (headersRequest_of_value lineValue_batch) _ _ _).trans
    (answerLine_eq logsCleanly_batch (parseSubrequests_of_value lineValue_batch)
      noBroadcast_batch _ _ _)

/-- The batch is answered with one text. A wallet that is gone is written the same text, and the
handling fails. -/
theorem replies_complete_batch :
    (serveBatch none).Concludes (heard (lonelyEnv none) batchLibs)
        (LineEnds batchLibs (sampleText sampleBatch) sampleMixed) ∧
      writtenTexts ((serveBatch none).answers (World.exec (lonelyEnv none)) holdingWorld) =
        [sampleText batchReply ++ "\n"] ∧
      ((serveBatch none).run (World.exec (lonelyEnv none)) holdingWorld).1.isOk = true ∧
      writtenTexts ((serveBatch (some "Broken pipe")).answers
          (World.exec (lonelyEnv (some "Broken pipe"))) holdingWorld) =
        [sampleText batchReply ++ "\n"] ∧
      ((serveBatch (some "Broken pipe")).run (World.exec (lonelyEnv (some "Broken pipe")))
        holdingWorld).1.isOk = false := by
  refine ⟨replies_complete (libsFit_batch none) (Or.inr (Or.inr logsCleanly_batch)) trim_batch_ne
    (parseSubrequests_of_value lineValue_batch) noBroadcast_batch _ _ _, ?_⟩
  rw [serveBatch_eq, serveBatch_eq]
  unfold answerRequests
  simp only [lineIsBatch_batch]
  exact ⟨by decide +kernel, by decide +kernel, by decide +kernel, by decide +kernel⟩

end BroadcastPool
