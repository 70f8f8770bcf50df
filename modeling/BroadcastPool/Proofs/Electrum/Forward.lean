import BroadcastPool.ElectrumServer.Requests
import BroadcastPool.Proofs.Rules
import BroadcastPool.Sample

/-!
# `BroadcastPool.Proofs.Electrum.Forward`: a request that the indexer answers

`Answers` says what the indexer answers to a request, and `Shows` what the wallet gets for one.
A tracked request that is sent on gets the indexer's answer as `modify_upstream_response`
leaves it (`run_forwardSubrequestSync`). What is read of the virtual mempool on the way is
`heldTxids` and `heldOutputs`.
-/

set_option autoImplicit false

namespace BroadcastPool

open Effects

/-- The txids that a process reads as held for a scripthash with action number `tick`. A
poisoned map is read as empty. -/
def heldTxids (env : Env) (p : Proc) (w : World) (tick : Nat) (scripthash : String) :
    List String :=
  if env.pendingPoisoned tick then [] else (w.pm p).pendingTxs.txidsFor scripthash

/-- The outputs that a process reads as held for a scripthash with action number `tick`. -/
def heldOutputs (env : Env) (p : Proc) (w : World) (tick : Nat) (scripthash : String) :
    List HeldOutput :=
  if env.pendingPoisoned tick then [] else (w.pm p).pendingTxs.outputsFor scripthash

/-- The indexer answers the request with the result. -/
def Answers (libs : ElectrumLibs) (env : Env) (request result : Json) : Prop :=
  ∀ n, ∃ answer msg, env.indexerAnswer n (libs.toText request) = .ok answer ∧
    libs.fromStr (Text.trim answer) = some msg ∧ msg.get? "result" = some result

/-- The wallet gets the result as the answer to its request. -/
def Shows (libs : ElectrumLibs) (env : Env) (p : Proc) (w : World) (indexerUrl : String)
    (session : SessionState) (request : JsonRpcRequest) (result : Json) : Prop :=
  ∃ response session' w',
    (handleScripthashSubrequest libs p request indexerUrl session).run (World.exec env) w =
      (.ok (.ok response, session'), w') ∧
    response.get? "result" = some result

/-- The map has one entry for each txid. -/
theorem nodup_txidsFor (pending : PendingTxs) (scripthash : String) :
    (pending.txidsFor scripthash).Nodup :=
  (List.filter_sublist.map _).nodup pending.nodupKeys

theorem nodup_heldTxids (env : Env) (p : Proc) (w : World) (tick : Nat) (scripthash : String) :
    (heldTxids env p w tick scripthash).Nodup := by
  unfold heldTxids
  split
  · exact List.nodup_nil
  · exact nodup_txidsFor _ _

section
variable {libs : ElectrumLibs} {env : Env} {p : Proc}

theorem run_getPendingTxidsForScripthash (scripthash : String) (w : World) :
    (getPendingTxidsForScripthash p scripthash).run (World.exec env) w =
      (.ok (heldTxids env p w w.tick scripthash), w.ticked) := by
  unfold getPendingTxidsForScripthash perform heldTxids
  simp only [Prog.bind_eq, Prog.run_bind, Prog.run_perform, Prog.pure_eq_ret, Prog.run_ret,
    World.exec, World.effect]
  split <;> rfl

theorem run_getPendingUtxosForScripthash (scripthash : String) (w : World) :
    (getPendingUtxosForScripthash p scripthash).run (World.exec env) w =
      (.ok (heldOutputs env p w w.tick scripthash), w.ticked) := by
  unfold getPendingUtxosForScripthash perform heldOutputs
  simp only [Prog.bind_eq, Prog.run_bind, Prog.run_perform, Prog.pure_eq_ret, Prog.run_ret,
    World.exec, World.effect]
  split <;> rfl

theorem run_getPendingUnconfirmedValue (scripthash : String) (w : World) :
    (getPendingUnconfirmedValue p scripthash).run (World.exec env) w =
      (.ok (unconfirmedValue (heldOutputs env p w w.tick scripthash)), w.ticked) := by
  unfold getPendingUnconfirmedValue perform heldOutputs
  simp only [Prog.bind_eq, Prog.run_bind, Prog.run_perform, Prog.pure_eq_ret, Prog.run_ret,
    World.exec, World.effect]
  split <;> rfl

/-- The number of the action that reads the held transactions. A scripthash that is not empty
is put on the watch list first. -/
def readTick (w : World) (scripthash : String) : Nat :=
  if scripthash = "" then w.tick else w.tick + 1

/-- The interest in a scripthash is noted without a look at the virtual mempool. -/
theorem run_trackScripthashInterest (session : SessionState) (scripthash : String) (w : World) :
    ∃ session' w', (trackScripthashInterest p session scripthash).run (World.exec env) w =
        (.ok session', w') ∧ w'.tick = readTick w scripthash ∧
      session'.pendingMethods = session.pendingMethods ∧
      ∀ n, heldTxids env p w' n scripthash = heldTxids env p w n scripthash := by
  unfold trackScripthashInterest readTick
  by_cases hempty : scripthash = ""
  · rw [if_pos hempty, if_pos hempty]
    exact ⟨session, w, rfl, rfl, rfl, fun _ => rfl⟩
  · rw [if_neg hempty, if_neg hempty]
    have hpending : ((World.exec env (.watchScripthash p scripthash) w).2.pm p).pendingTxs =
        (w.pm p).pendingTxs := exec_pendingTxs rfl p
    refine ⟨session.insertScripthash scripthash,
      (World.exec env (.watchScripthash p scripthash) w).2, rfl, ?_, ?_, fun n => ?_⟩
    · simp only [World.exec, World.effect]
      split
      · rfl
      · exact congrArg (· + 1) (World.setPm_tick w p _)
    · unfold SessionState.insertScripthash
      split <;> rfl
    · unfold heldTxids
      rw [hpending]

/-- The entry of a request that was noted last. -/
theorem lookup_trackRequest (session : SessionState) {request : JsonRpcRequest}
    {scripthash : String} (hmethod : trackedMethods.contains request.method = true)
    (hparams : scripthashFromParams request.params = some scripthash) :
    (session.trackRequest request).pendingMethods.lookup request.id =
      some (request.method, scripthash) := by
  unfold SessionState.trackRequest
  simp only [hmethod, hparams, if_true, Option.getD_some]
  exact AList.lookup_insert _

/-- A request that is sent on gets the indexer's answer, changed for its method. -/
theorem run_forwardSubrequestSync (w : World) (session : SessionState) {request : JsonRpcRequest}
    {scripthash : String} {result : Json}
    (hmethod : trackedMethods.contains request.method = true)
    (hparams : scripthashFromParams request.params = some scripthash)
    (hanswers : Answers libs env request.toJson result) :
    ∃ msg, msg.get? "result" = some result ∧
      ∀ {changed : Json} {w' : World},
        (modifyUpstreamResponse libs p msg request.method scripthash).run (World.exec env)
          w.ticked = (.ok changed, w') →
        ∃ session', (forwardSubrequestSync libs p request session).run (World.exec env) w =
          (.ok (.ok changed, session'), w') := by
  obtain ⟨answer, msg, hanswer, hparse, hresult⟩ := hanswers w.tick
  have hrelay : isBroadcastMethod request.method = false := by
    have hmem : request.method ∈ trackedMethods := List.contains_iff_mem.1 hmethod
    unfold trackedMethods at hmem
    simp only [List.mem_cons, List.not_mem_nil, or_false] at hmem
    rcases hmem with h | h | h | h | h <;> rw [h] <;> decide
  refine ⟨msg, hresult, fun {changed w'} hrun => ?_⟩
  have hexec : World.exec env (.forwardToIndexer (libs.toText request.toJson)) w =
      (.ok answer, w.ticked) := by
    simp only [World.exec, World.effect, hanswer]
  refine ⟨{ session.trackRequest request with
    pendingMethods := (session.trackRequest request).pendingMethods.erase request.id }, ?_⟩
  unfold forwardSubrequestSync perform
  rw [hrelay]
  simp only [Bool.false_eq_true, if_false, Prog.bind_eq, Prog.run_bind, Prog.run_perform, hexec]
  unfold receiveAnswer
  rw [hparse, lookup_trackRequest session hmethod hparams]
  simp only [Prog.bind_eq, Prog.run_bind, hrun, Prog.pure_eq_ret, Prog.run_ret]

/-- A request with an answer from the virtual mempool gets that answer. -/
theorem shows_fastResponse {w : World} {request : JsonRpcRequest}
    {indexerUrl scripthash : String} {response result : Json}
    (hfast : fastMethods.contains request.method = true)
    (hparams : scripthashFromParams request.params = some scripthash)
    (hresponse : fastResponse libs request
      (heldTxids env p w (readTick w scripthash) scripthash) = some response)
    (hresult : response.get? "result" = some result) (session : SessionState) :
    Shows libs env p w indexerUrl session request result := by
  obtain ⟨session₁, w₁, htrack, htick, -, hheld⟩ :=
    @run_trackScripthashInterest env p session scripthash w
  unfold Shows handleScripthashSubrequest
  rw [if_pos hfast, hparams]
  simp only [Prog.bind_eq, Prog.run_bind, htrack, run_getPendingTxidsForScripthash, hheld, htick,
    hresponse]
  exact ⟨_, _, _, rfl, hresult⟩

/-- Without such an answer it gets the indexer's, as it is changed on the way. -/
theorem shows_forwarded {w : World} {request : JsonRpcRequest}
    {indexerUrl scripthash : String} {result : Json} {Q : Json → Prop}
    (hfast : fastMethods.contains request.method = true)
    (hparams : scripthashFromParams request.params = some scripthash)
    (hurl : indexerUrl ≠ "") (hanswers : Answers libs env request.toJson result)
    (hnone : heldTxids env p w (readTick w scripthash) scripthash = [])
    (hchanged : ∀ msg w', msg.get? "result" = some result →
      (∀ n, heldTxids env p w' n scripthash = heldTxids env p w n scripthash) →
      ∃ changed w'', (modifyUpstreamResponse libs p msg request.method scripthash).run
          (World.exec env) w' = (.ok changed, w'') ∧
        ∃ result', changed.get? "result" = some result' ∧ Q result')
    (session : SessionState) :
    ∃ result', Shows libs env p w indexerUrl session request result' ∧ Q result' := by
  obtain ⟨session₁, w₁, htrack, htick, -, hheld⟩ :=
    @run_trackScripthashInterest env p session scripthash w
  have htracked : trackedMethods.contains request.method = true := by
    have hmem := List.contains_iff_mem.1 hfast
    unfold fastMethods at hmem
    simp only [List.mem_cons, List.not_mem_nil, or_false] at hmem
    rcases hmem with h | h | h <;> rw [h] <;> decide
  obtain ⟨msg, hmsg, hforward⟩ := run_forwardSubrequestSync (p := p) w₁.ticked session₁
    htracked hparams hanswers
  obtain ⟨changed, w₂, hrun, result', hresult, hQ⟩ := hchanged msg w₁.ticked.ticked hmsg hheld
  obtain ⟨session₂, hrun₂⟩ := hforward hrun
  unfold Shows handleScripthashSubrequest
  rw [if_pos hfast, hparams]
  simp only [Prog.bind_eq, Prog.run_bind, htrack, run_getPendingTxidsForScripthash, hheld, htick,
    hnone, fastResponse, if_true, forwardOrUnavailable, if_neg hurl, hrun₂]
  exact ⟨result', ⟨_, _, _, rfl, hresult⟩, hQ⟩

end

/-- The indexer of the sample session answers every request with one result. -/
theorem answers_sample (result request : Json)
    (htrim : Text.trim (sampleText (resultResponse (.ofInt 1) result)) =
      sampleText (resultResponse (.ofInt 1) result)) :
    Answers (sampleLibs [resultResponse (.ofInt 1) result])
      (answeringEnv (resultResponse (.ofInt 1) result)) request result := by
  intro n
  refine ⟨_, resultResponse (.ofInt 1) result, rfl, ?_, rfl⟩
  rw [htrim]
  simp [sampleLibs]

end BroadcastPool
