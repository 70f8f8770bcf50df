import BroadcastPool.Proofs.Electrum.Forward

/-!
# `BroadcastPool.Proofs.Electrum.History`: what a wallet is shown as its history

While nothing is held for a scripthash, the answer to `get_history` is the indexer's own. While
something is held it is the list of the held transactions, and the indexer is not asked. So the
answer is complete exactly if nothing is held or the indexer's history has no entry beyond the
held ones (`getHistory_complete_iff`). The injection into an answer of the indexer, which the
same request gets when it is sent on, keeps every entry (`complete_injectInHistory`).
-/

set_option autoImplicit false

namespace BroadcastPool

open Effects

/-- The list shows every entry of the history, and each held txid once. -/
structure Complete (history : List Json) (held : List String) (shown : List Json) : Prop where
  keeps : ∀ entry ∈ history, entry ∈ shown
  once : ∀ txid ∈ held, (shown.countP fun entry => txHash? entry = some txid) = 1

@[simp] theorem txHash?_historyEntry (txid : String) :
    txHash? (historyEntry txid) = some txid := rfl

/-- How often a txid stands in a list of entries of held transactions. -/
theorem countP_historyEntry (txid : String) (held : List String) :
    ((held.map historyEntry).countP fun entry => txHash? entry = some txid) =
      held.count txid := by
  rw [List.countP_map, List.count_eq_countP]
  refine List.countP_congr fun t _ => ?_
  simp

/-- The list of the held transactions alone is complete if the history names nothing else. -/
theorem complete_historyEntries_iff {history : List Json} {held : List String}
    (hnodup : held.Nodup) :
    Complete history held (held.map historyEntry) ↔
      ∀ entry ∈ history, ∃ txid ∈ held, entry = historyEntry txid := by
  constructor
  · intro h entry hentry
    obtain ⟨txid, htxid, heq⟩ := List.mem_map.1 (h.keeps entry hentry)
    exact ⟨txid, htxid, heq.symm⟩
  · intro h
    refine ⟨fun entry hentry => ?_, fun txid htxid => ?_⟩
    · obtain ⟨txid, htxid, rfl⟩ := h entry hentry
      exact List.mem_map_of_mem htxid
    · rw [countP_historyEntry]
      exact List.count_eq_one_of_mem hnodup htxid

/-- The injection into the indexer's history keeps every entry and adds what is missing. It
needs a history that names no transaction twice. -/
theorem complete_injectInHistory {history : List Json} {held : List String}
    (hnodup : held.Nodup) (hhistory : (history.filterMap txHash?).Nodup) :
    Complete history held (injectInHistory history held) := by
  refine ⟨fun entry hentry => List.mem_append_left _ hentry, fun txid htxid => ?_⟩
  have hlisted : (history.countP fun entry => txHash? entry = some txid) =
      (history.filterMap txHash?).count txid := by
    rw [List.count_filterMap]
    refine List.countP_congr fun entry _ => ?_
    simp
  unfold injectInHistory
  rw [List.countP_append, countP_historyEntry, hlisted]
  by_cases hmem : txid ∈ history.filterMap txHash?
  · have hadded : txid ∉ held.filter (· ∉ history.filterMap txHash?) := by
      intro h
      exact absurd hmem (of_decide_eq_true (List.mem_filter.1 h).2)
    rw [List.count_eq_one_of_mem hhistory hmem, List.count_eq_zero_of_not_mem hadded]
  · have hadded : txid ∈ held.filter (· ∉ history.filterMap txHash?) :=
      List.mem_filter.2 ⟨htxid, decide_eq_true hmem⟩
    rw [List.count_eq_zero_of_not_mem hmem,
      List.count_eq_one_of_mem (hnodup.filter _) hadded]

/-- With nothing held, every list that has the entries of the history is complete. -/
theorem complete_nil {history shown : List Json} (h : ∀ entry ∈ history, entry ∈ shown) :
    Complete history [] shown :=
  ⟨h, fun _ htxid => by cases htxid⟩

/-! ### The answer to `get_history` -/

section
variable {libs : ElectrumLibs} {env : Env} {p : Proc}

/-- The history of an answer is changed by the injection. -/
theorem run_modifyUpstreamResponse_history {msg : Json} {history : List Json}
    (hresult : msg.get? "result" = some (.arr history)) (scripthash : String) (w : World) :
    (modifyUpstreamResponse libs p msg "blockchain.scripthash.get_history" scripthash).run
        (World.exec env) w =
      (.ok (msg.setField "result"
        (.arr (injectInHistory history (heldTxids env p w w.tick scripthash)))), w.ticked) := by
  unfold modifyUpstreamResponse
  rw [if_pos rfl, hresult]
  simp only [Option.bind_some, Json.asArray?_arr, Prog.bind_eq, Prog.run_bind,
    run_getPendingTxidsForScripthash, Prog.pure_eq_ret, Prog.run_ret]

/-- While something is held, the held transactions are all that is shown. -/
theorem shows_history_held {w : World} {request : JsonRpcRequest} {indexerUrl scripthash : String}
    (hmethod : request.method = "blockchain.scripthash.get_history")
    (hparams : scripthashFromParams request.params = some scripthash)
    (hheld : heldTxids env p w (readTick w scripthash) scripthash ≠ [])
    (session : SessionState) :
    Shows libs env p w indexerUrl session request
      (.arr ((heldTxids env p w (readTick w scripthash) scripthash).map historyEntry)) := by
  have hresponse : fastResponse libs request (heldTxids env p w (readTick w scripthash)
      scripthash) = some (resultResponse request.id (.arr
        ((heldTxids env p w (readTick w scripthash) scripthash).map historyEntry))) := by
    unfold fastResponse buildScripthashMempoolResult
    rw [if_neg hheld, hmethod]
    simp
  refine shows_fastResponse ?_ hparams hresponse rfl session
  rw [hmethod]
  decide

/-- While nothing is held, the indexer's history is shown, with what a later reading of the
virtual mempool adds. -/
theorem shows_history_forwarded {w : World} {request : JsonRpcRequest}
    {indexerUrl scripthash : String} {history : List Json}
    (hmethod : request.method = "blockchain.scripthash.get_history")
    (hparams : scripthashFromParams request.params = some scripthash)
    (hurl : indexerUrl ≠ "") (hanswers : Answers libs env request.toJson (.arr history))
    (hnone : heldTxids env p w (readTick w scripthash) scripthash = [])
    (session : SessionState) :
    ∃ shown, Shows libs env p w indexerUrl session request shown ∧
      ∃ n, shown = .arr (injectInHistory history (heldTxids env p w n scripthash)) := by
  refine shows_forwarded (by rw [hmethod]; decide) hparams hurl hanswers hnone
    (fun msg w' hresult hheld => ?_) session
  rw [hmethod]
  refine ⟨_, _, run_modifyUpstreamResponse_history hresult scripthash w', _,
    Json.get?_setField hresult _, w'.tick, ?_⟩
  rw [hheld]

/-- Whether the answer to `get_history` is complete. -/
theorem getHistory_complete_iff (w : World) (session : SessionState) {request : JsonRpcRequest}
    {indexerUrl scripthash : String} {history : List Json}
    (hmethod : request.method = "blockchain.scripthash.get_history")
    (hparams : scripthashFromParams request.params = some scripthash)
    (hurl : indexerUrl ≠ "") (hanswers : Answers libs env request.toJson (.arr history)) :
    ∃ shown, Shows libs env p w indexerUrl session request (.arr shown) ∧
      let held := heldTxids env p w (readTick w scripthash) scripthash
      (Complete history held shown ↔
        held = [] ∨ ∀ entry ∈ history, ∃ txid ∈ held, entry = historyEntry txid) := by
  by_cases hnone : heldTxids env p w (readTick w scripthash) scripthash = []
  · -- Nothing is held, so the indexer answers and its entries all stay.
    obtain ⟨_, hshows, n, rfl⟩ :
        ∃ shown, Shows libs env p w indexerUrl session request shown ∧ _ :=
      shows_history_forwarded hmethod hparams hurl hanswers hnone session
    refine ⟨_, hshows, ?_⟩
    show Complete history (heldTxids env p w (readTick w scripthash) scripthash) _ ↔ _
    rw [hnone]
    exact iff_of_true (complete_nil fun entry hentry => List.mem_append_left _ hentry)
      (Or.inl rfl)
  · -- Something is held, so the held transactions are all that is shown.
    refine ⟨_, shows_history_held hmethod hparams hnone session, ?_⟩
    show Complete history (heldTxids env p w (readTick w scripthash) scripthash) _ ↔ _ ∨ _
    rw [complete_historyEntries_iff (nodup_heldTxids env p w _ scripthash)]
    simp only [hnone, false_or]

end

/-- With the transaction "07" held and "aa" confirmed, the answer does not name "aa". -/
theorem getHistory_drops_confirmed :
    ∃ shown, Shows (sampleLibs [resultResponse (.ofInt 1) (.arr [sampleEntry "aa" 5])])
        (answeringEnv (resultResponse (.ofInt 1) (.arr [sampleEntry "aa" 5]))) .daemon
        holdingWorld "tcp://127.0.0.1:50001" {}
        (sampleRequest "blockchain.scripthash.get_history") (.arr shown) ∧
      ¬ Complete [sampleEntry "aa" 5] ["07"] shown := by
  refine ⟨_, ⟨_, _, _, rfl, rfl⟩, fun h => ?_⟩
  have hmem := h.keeps (sampleEntry "aa" 5) (List.mem_cons_self ..)
  revert hmem
  decide

theorem getHistory_complete_iff_holdingWorld :
    ∃ shown, Shows (sampleLibs [resultResponse (.ofInt 1) (.arr [sampleEntry "aa" 5])])
        (answeringEnv (resultResponse (.ofInt 1) (.arr [sampleEntry "aa" 5]))) .daemon
        holdingWorld "tcp://127.0.0.1:50001" {}
        (sampleRequest "blockchain.scripthash.get_history") (.arr shown) ∧
      let held := heldTxids (answeringEnv (resultResponse (.ofInt 1) (.arr [sampleEntry "aa" 5])))
        .daemon holdingWorld (readTick holdingWorld "ab") "ab"
      (Complete [sampleEntry "aa" 5] held shown ↔
        held = [] ∨ ∀ entry ∈ [sampleEntry "aa" 5], ∃ txid ∈ held, entry = historyEntry txid) :=
  getHistory_complete_iff holdingWorld {} rfl rfl (by decide)
    (answers_sample _ _ (by decide))

end BroadcastPool
