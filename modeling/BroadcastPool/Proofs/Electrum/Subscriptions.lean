import BroadcastPool.ElectrumServer.Connection
import BroadcastPool.Lib.Yields
import BroadcastPool.Proofs.Rules

/-!
# `BroadcastPool.Proofs.Electrum.Subscriptions`: a wallet's subscriptions last

Nothing that a wallet sends takes a subscription away. `KeepsSubscriptions` follows the set of
subscribed scripthashes through the functions that answer a line, up to all lines of a read
(`keepsSession_serveLines`).
-/

set_option autoImplicit false

namespace BroadcastPool

open Effects

section
variable {settings : SessionSettings} {env : Env} {libs : ElectrumLibs} {headers : HeaderLibs}
variable {p : Proc} {α β : Type}

/-- Where the program returns, every subscription of the session is one of the session that
`after` finds in the value. -/
def KeepsSubscriptions (session : SessionState) (after : α → SessionState) (prog : M α) : Prop :=
  prog.Yields anyAnswer fun _ a =>
    session.subscribedScripthashes ⊆ (after a).subscribedScripthashes

variable {session : SessionState} {after : α → SessionState}

theorem keepsSubscriptions_ret {a : α}
    (h : session.subscribedScripthashes ⊆ (after a).subscribedScripthashes) :
    KeepsSubscriptions session after (.ret a : M α) :=
  Prog.yields_ret h

/-- The rest of a program, after a part that leaves the session alone. -/
theorem keepsSubscriptions_seq {prog : M β} {f : β → M α}
    (hf : ∀ b, KeepsSubscriptions session after (f b)) :
    KeepsSubscriptions session after (prog.bind f) :=
  Prog.yields_bind (P := fun _ _ => True) (fun _ _ _ => trivial) fun _ b _ => hf b

/-- The rest of a program, after a part that has changed the session. -/
theorem keepsSubscriptions_bind {between : β → SessionState} {prog : M β} {f : β → M α}
    (hprog : KeepsSubscriptions session between prog)
    (hf : ∀ b, KeepsSubscriptions (between b) after (f b)) :
    KeepsSubscriptions session after (prog.bind f) :=
  Prog.yields_bind hprog fun _ b hb _ a hpath =>
    List.Subset.trans hb (hf b _ a hpath)

theorem subscribed_insertScripthash (session : SessionState) (scripthash : String) :
    session.subscribedScripthashes ⊆
      (session.insertScripthash scripthash).subscribedScripthashes := by
  unfold SessionState.insertScripthash
  split
  · exact fun _ h => h
  · exact fun _ h => List.mem_append_left _ h

theorem subscribed_trackRequest (session : SessionState) (request : JsonRpcRequest) :
    session.subscribedScripthashes ⊆
      (session.trackRequest request).subscribedScripthashes := by
  have hsubscribe : session.subscribedScripthashes ⊆
      (if request.method = "blockchain.scripthash.subscribe" then
        session.insertScripthash ((scripthashFromParams request.params).getD "")
      else session).subscribedScripthashes := by
    split
    · exact subscribed_insertScripthash session _
    · exact fun _ h => h
  unfold SessionState.trackRequest
  dsimp only
  split
  · exact hsubscribe
  · exact hsubscribe

/-! ### One request -/

theorem keepsSubscriptions_receiveAnswer (answer : String) (id : Json)
    (session : SessionState) :
    KeepsSubscriptions session Prod.snd (receiveAnswer libs p answer id session) := by
  unfold receiveAnswer
  split
  · exact keepsSubscriptions_ret fun _ h => h
  · split
    · exact keepsSubscriptions_ret fun _ h => h
    · exact keepsSubscriptions_seq fun _ => keepsSubscriptions_ret fun _ h => h

theorem keepsSubscriptions_forward (request : JsonRpcRequest) (session : SessionState) :
    KeepsSubscriptions session Prod.snd (forwardSubrequestSync libs p request session) := by
  unfold forwardSubrequestSync
  split
  · exact keepsSubscriptions_ret fun _ h => h
  · refine keepsSubscriptions_seq fun answer => ?_
    have htrack := subscribed_trackRequest session request
    cases answer with
    | error e => exact keepsSubscriptions_ret htrack
    | ok text =>
      refine Prog.Yields.mono (fun _ r hr => List.Subset.trans htrack hr) ?_
      exact keepsSubscriptions_receiveAnswer text request.id _

theorem keepsSubscriptions_forwardOrUnavailable (request : JsonRpcRequest) (indexerUrl : String)
    (session : SessionState) :
    KeepsSubscriptions session Prod.snd
      (forwardOrUnavailable libs p request indexerUrl session) := by
  unfold forwardOrUnavailable
  split
  · exact keepsSubscriptions_ret fun _ h => h
  · exact keepsSubscriptions_forward request session

theorem keepsSubscriptions_trackInterest (session : SessionState) (scripthash : String) :
    KeepsSubscriptions session id (trackScripthashInterest p session scripthash) := by
  unfold trackScripthashInterest
  split
  · exact keepsSubscriptions_ret fun _ h => h
  · exact keepsSubscriptions_seq fun _ =>
      keepsSubscriptions_ret (subscribed_insertScripthash session scripthash)

theorem keepsSubscriptions_fast (request : JsonRpcRequest) (indexerUrl : String)
    (session : SessionState) :
    KeepsSubscriptions session Prod.snd
      (handleFastSubrequest settings libs p request indexerUrl session) := by
  unfold handleFastSubrequest
  split
  · refine keepsSubscriptions_bind (keepsSubscriptions_trackInterest session _)
      fun session => ?_
    refine keepsSubscriptions_seq fun pending => ?_
    dsimp only [id]
    split
    · exact keepsSubscriptions_seq fun _ => keepsSubscriptions_ret fun _ h => h
    · exact keepsSubscriptions_forwardOrUnavailable request indexerUrl session
  · exact keepsSubscriptions_forwardOrUnavailable request indexerUrl session

theorem keepsSubscriptions_transactionGet (request : JsonRpcRequest) (indexerUrl : String)
    (session : SessionState) :
    KeepsSubscriptions session Prod.snd
      (handleTransactionGet libs p request indexerUrl session) := by
  unfold handleTransactionGet
  split
  · refine keepsSubscriptions_seq fun hex => ?_
    cases hex with
    | some hex => exact keepsSubscriptions_ret fun _ h => h
    | none => exact keepsSubscriptions_forwardOrUnavailable request indexerUrl session
  · exact keepsSubscriptions_forwardOrUnavailable request indexerUrl session

theorem keepsSubscriptions_header (request : JsonRpcRequest) (indexerUrl sourceLabel : String)
    (wallet : HeaderSession) (session : SessionState) :
    KeepsSubscriptions session (fun r : Reply × HeaderSession => r.1.2)
      (handleHeaderSubrequest libs headers p request indexerUrl sourceLabel wallet session) := by
  refine keepsSubscriptions_seq fun cfg => ?_
  cases cfg with
  | error e => exact keepsSubscriptions_ret fun _ h => h
  | ok cfg =>
    dsimp only
    split
    · exact keepsSubscriptions_seq fun _ => keepsSubscriptions_ret fun _ h => h
    · refine keepsSubscriptions_seq fun served => ?_
      cases served with
      | some response => exact keepsSubscriptions_ret fun _ h => h
      | none =>
        exact keepsSubscriptions_bind (keepsSubscriptions_forwardOrUnavailable _ _ _)
          fun _ => keepsSubscriptions_ret fun _ h => h

theorem keepsSubscriptions_onScripthashes (session : ClientSession)
    {branch : SessionState → M Reply}
    (h : KeepsSubscriptions session.scripthashes Prod.snd (branch session.scripthashes)) :
    KeepsSubscriptions session.scripthashes
      (fun r : Except String Json × ClientSession => r.2.scripthashes)
      (onScripthashes session branch) :=
  keepsSubscriptions_bind h fun _ => keepsSubscriptions_ret fun _ h => h

theorem keepsSubscriptions_oneSubrequest (request : JsonRpcRequest)
    (indexerUrl sourceLabel : String) (session : ClientSession) :
    KeepsSubscriptions session.scripthashes
      (fun r : Except String Json × ClientSession => r.2.scripthashes)
      (handleOneSubrequest settings libs headers p request indexerUrl sourceLabel session) := by
  unfold handleOneSubrequest
  split
  · refine keepsSubscriptions_seq fun response => ?_
    cases response <;> exact keepsSubscriptions_ret fun _ h => h
  split
  · exact keepsSubscriptions_ret fun _ h => h
  split
  · exact keepsSubscriptions_ret fun _ h => h
  split
  · exact keepsSubscriptions_onScripthashes session (keepsSubscriptions_fast _ _ _)
  split
  · exact keepsSubscriptions_onScripthashes session (keepsSubscriptions_transactionGet _ _ _)
  split
  · exact keepsSubscriptions_bind (keepsSubscriptions_header _ _ _ _ _)
      fun _ => keepsSubscriptions_ret fun _ h => h
  · exact keepsSubscriptions_onScripthashes session
      (keepsSubscriptions_forwardOrUnavailable _ _ _)

/-! ### One line -/

/-- The same, for a session as a whole. -/
abbrev KeepsSession (session : ClientSession) (after : α → ClientSession) (prog : M α) : Prop :=
  KeepsSubscriptions session.scripthashes (fun a => (after a).scripthashes) prog

theorem keepsSession_intercept (id : Json) (txHex sourceLabel : String)
    (session : ClientSession) :
    KeepsSession session (fun session => session)
      (interceptAndHandleBroadcast env libs p id txHex sourceLabel session) := by
  refine keepsSubscriptions_seq fun start => ?_
  refine keepsSubscriptions_seq fun finished => ?_
  split
  · exact keepsSubscriptions_seq fun _ => keepsSubscriptions_ret fun _ h => h
  · refine keepsSubscriptions_seq fun _ => ?_
    refine keepsSubscriptions_seq fun written => ?_
    cases written with
    | error e => exact keepsSubscriptions_ret fun _ h => h
    | ok u => exact keepsSubscriptions_seq fun _ => keepsSubscriptions_ret fun _ h => h

theorem keepsSession_answerAll (indexerUrl sourceLabel : String) (requests : List JsonRpcRequest)
    (session : ClientSession) :
    KeepsSession session Prod.snd
      (answerAll settings libs headers p indexerUrl sourceLabel requests session) := by
  induction requests generalizing session with
  | nil => exact keepsSubscriptions_ret fun _ h => h
  | cons request requests ih =>
    refine keepsSubscriptions_bind (keepsSubscriptions_oneSubrequest _ _ _ _) fun reply => ?_
    exact keepsSubscriptions_bind (ih reply.2) fun _ => keepsSubscriptions_ret fun _ h => h

theorem keepsSession_answerRequests (line indexerUrl sourceLabel : String)
    (requests : List JsonRpcRequest) (session : ClientSession) :
    KeepsSession session (fun session => session)
      (answerRequests settings env libs headers p line indexerUrl sourceLabel requests
        session) := by
  unfold answerRequests
  split
  · split
    · exact keepsSession_intercept _ _ _ _
    · exact keepsSubscriptions_seq fun _ => keepsSubscriptions_ret fun _ h => h
  · refine keepsSubscriptions_bind
      (keepsSession_answerAll indexerUrl sourceLabel requests { session with wallet := _ })
      fun r => ?_
    exact keepsSubscriptions_seq fun _ => keepsSubscriptions_ret fun _ h => h

theorem keepsSession_routeLine (line indexerUrl sourceLabel : String)
    (session : ClientSession) :
    KeepsSession session (fun session => session)
      (routeLine settings env libs headers p line indexerUrl sourceLabel session) := by
  unfold routeLine
  split
  · exact keepsSession_intercept _ _ _ _
  split
  · exact keepsSubscriptions_seq fun _ => keepsSubscriptions_ret fun _ h => h
  split
  · exact keepsSubscriptions_seq fun _ => keepsSubscriptions_ret fun _ h => h
  · exact keepsSession_answerRequests line indexerUrl sourceLabel _ session

theorem keepsSession_answerFromCache (line sourceLabel : String) (session : ClientSession) :
    KeepsSession session Prod.snd (answerFromCache libs p line sourceLabel session) := by
  unfold answerFromCache
  split
  · exact keepsSubscriptions_ret fun _ h => h
  · refine keepsSubscriptions_seq fun config => ?_
    dsimp only
    split
    · refine keepsSubscriptions_seq fun cached => ?_
      cases cached with
      | some response => exact keepsSubscriptions_seq fun _ => keepsSubscriptions_ret fun _ h => h
      | none => exact keepsSubscriptions_ret fun _ h => h
    · exact keepsSubscriptions_ret fun _ h => h

theorem keepsSession_processClientLine (line indexerUrl sourceLabel : String)
    (session : ClientSession) :
    KeepsSession session (fun session => session)
      (processClientLine settings env libs headers p line indexerUrl sourceLabel session) := by
  unfold processClientLine
  split
  · exact keepsSubscriptions_ret fun _ h => h
  refine keepsSubscriptions_seq fun answered => ?_
  split
  · exact keepsSubscriptions_ret fun _ h => h
  refine keepsSubscriptions_bind
    (keepsSession_answerFromCache line sourceLabel
      { session.countLine with wallet := _ }) fun cached => ?_
  dsimp only
  split
  · exact keepsSubscriptions_ret fun _ h => h
  · exact keepsSubscriptions_seq fun _ =>
      keepsSession_routeLine line indexerUrl sourceLabel cached.2

/-- All lines of a read. -/
theorem keepsSession_serveLines (sourceLabel : String) (rounds : Nat) (buf : List UInt8)
    (session : ClientSession) :
    KeepsSession session Prod.snd
      (serveLines settings env libs headers p sourceLabel rounds buf session) := by
  induction rounds generalizing buf session with
  | zero => exact keepsSubscriptions_ret fun _ h => h
  | succ rounds ih =>
    unfold serveLines
    split
    · exact Prog.yields_fail _
    · exact keepsSubscriptions_ret fun _ h => h
    · refine keepsSubscriptions_seq fun indexerUrl => ?_
      exact keepsSubscriptions_bind (keepsSession_processClientLine _ indexerUrl sourceLabel
        session) fun session => ih _ session

end

end BroadcastPool
