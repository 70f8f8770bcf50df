import BroadcastPool.Proofs.Electrum.History
import BroadcastPool.Proofs.Electrum.StatusText

/-!
# `BroadcastPool.Proofs.Electrum.OneStatus`: every place gives one status

A wallet gets the status of a scripthash in four places. The answer to `subscribe` comes from the
virtual mempool alone while something is held, and from the indexer otherwise. So does what
`modify_upstream_response` and `modify_upstream_notification` leave of a status of the indexer.
The push hashes the indexer's history together with the held transactions. `givenStatus` is what
the first three places give, and `pushedStatus` is what the push gives.

The two are one status, and the status of the history that the wallet is served, exactly if the
wallet would see the same entries either way (`oneStatus_iff`). With something held, this says that
the indexer knows nothing but held transactions, all in its mempool. With nothing held, it says
that the indexer's history is in the order in which `compute_status_hash` hashes it.
-/

set_option autoImplicit false

namespace BroadcastPool

open Effects

/-! ### The statuses -/

/-- The status of the protocol: the hash of the entries in their order. -/
def protocolStatus (sha256Hex : String → String) (history : List Json) : Option String :=
  if history = [] then none else some (sha256Hex (statusText history))

/-- A status as the wallet gets it. -/
def statusValue (status : Option String) : Json := Json.ofOption (status.map .str)

/-- What the answers and the indexer's notifications give. -/
def givenStatus (sha256Hex : String → String) (history : List Json) (held : List String) :
    Option String :=
  if held = [] then protocolStatus sha256Hex history
  else computeModifiedStatusHash sha256Hex [] held

/-- The history that the wallet is served. -/
def servedHistory (history : List Json) (held : List String) : List Json :=
  if held = [] then history else held.map historyEntry

/-- The history has held transactions only, each once and in the mempool. -/
structure OnlyHeld (history : List Json) (held : List String) : Prop where
  entry : ∀ entry ∈ history, heightOf entry = 0 ∧ ∃ txid ∈ held, txHash? entry = some txid
  once : (history.filterMap txHash?).Nodup

theorem statusValue_injective : Function.Injective statusValue := by
  intro a b h
  cases a <;> cases b <;> cases h <;> rfl

/-! ### The keys of the entries -/

@[simp] theorem statusKey_historyEntry (txid : String) :
    statusKey (historyEntry txid) = (0, txid) := rfl

theorem txHashOf_of_txHash? {entry : Json} {txid : String} (h : txHash? entry = some txid) :
    txHashOf entry = txid := by
  unfold txHashOf
  rw [h]
  rfl

/-- What the injection adds is taken away on both sides. -/
theorem perm_injectInHistory_iff (history : List Json) (held : List String) :
    ((injectInHistory history held).map statusKey).Perm
        ((held.map historyEntry).map statusKey) ↔
      (history.map statusKey).Perm
        ((held.filter (· ∈ history.filterMap txHash?)).map fun txid => (0, txid)) := by
  have hadded : ∀ l : List String,
      (l.map historyEntry).map statusKey = l.map fun txid => (0, txid) := by
    intro l
    rw [List.map_map]
    rfl
  have hsplit : (held.map fun txid => ((0 : Int), txid)).Perm
      ((held.filter (· ∈ history.filterMap txHash?)).map (fun txid => (0, txid)) ++
        (held.filter (· ∉ history.filterMap txHash?)).map fun txid => (0, txid)) := by
    rw [← List.map_append]
    refine List.Perm.map _ ?_
    simpa only [decide_not] using
      (List.filter_append_perm (· ∈ history.filterMap txHash?) held).symm
  unfold injectInHistory
  rw [List.map_append, hadded, hadded]
  constructor
  · exact fun h => (List.perm_append_right_iff _).1 (h.trans hsplit)
  · exact fun h => ((List.perm_append_right_iff _).2 h).trans hsplit.symm

/-- If every entry has a txid, the txids are what is read of the entries. -/
theorem filterMap_txHash? {history : List Json}
    (h : ∀ v ∈ history, txHash? v = some (txHashOf v)) :
    history.filterMap txHash? = history.map txHashOf := by
  rw [List.filterMap_congr h]
  exact congrFun (List.filterMap_eq_map (f := txHashOf)) history

/-- The keys of the history are those of the held transactions it names. -/
theorem perm_held_iff {history : List Json} {held : List String} (hnodup : held.Nodup) :
    (history.map statusKey).Perm
        ((held.filter (· ∈ history.filterMap txHash?)).map fun txid => (0, txid)) ↔
      OnlyHeld history held := by
  constructor
  · intro hperm
    have htxids : (history.map txHashOf).Perm
        (held.filter (· ∈ history.filterMap txHash?)) := by
      have hsnd := hperm.map Prod.snd
      rw [List.map_map, List.map_map] at hsnd
      exact hsnd.trans (List.Perm.of_eq (List.map_id _))
    have hdistinct : (history.map txHashOf).Nodup := htxids.nodup_iff.2 (hnodup.filter _)
    have hentry : ∀ v ∈ history,
        heightOf v = 0 ∧ txHashOf v ∈ held ∧ txHash? v = some (txHashOf v) := by
      intro v hv
      obtain ⟨txid, htxid, hkey⟩ := List.mem_map.1 (hperm.mem_iff.1 (List.mem_map_of_mem hv))
      obtain ⟨hheight, rfl⟩ := Prod.mk.inj hkey
      obtain ⟨hheld, hnamed⟩ := List.mem_filter.1 htxid
      obtain ⟨v', hv', htxid'⟩ := List.mem_filterMap.1 (of_decide_eq_true hnamed)
      -- The entry that names the txid is this one, because the txids differ.
      have hsame : v' = v :=
        List.inj_on_of_nodup_map hdistinct hv' hv (txHashOf_of_txHash? htxid')
      exact ⟨hheight.symm, hheld, hsame ▸ htxid'⟩
    refine ⟨fun v hv => ?_, ?_⟩
    · obtain ⟨hheight, hheld, htxid⟩ := hentry v hv
      exact ⟨hheight, _, hheld, htxid⟩
    · rw [filterMap_txHash? fun v hv => (hentry v hv).2.2]
      exact hdistinct
  · intro h
    have htxid : ∀ v ∈ history, txHash? v = some (txHashOf v) := by
      intro v hv
      obtain ⟨-, txid, -, htxid⟩ := h.entry v hv
      rw [htxid, txHashOf_of_txHash? htxid]
    have hkeys : history.map statusKey =
        (history.filterMap txHash?).map fun txid => ((0 : Int), txid) := by
      rw [filterMap_txHash? htxid, List.map_map]
      exact List.map_congr_left fun v hv => Prod.ext (h.entry v hv).1 rfl
    rw [hkeys]
    refine List.Perm.map _ ((List.perm_ext_iff_of_nodup h.once (hnodup.filter _)).2 ?_)
    intro txid
    rw [List.mem_filter, decide_eq_true_eq]
    refine ⟨fun hnamed => ⟨?_, hnamed⟩, fun hmem => hmem.2⟩
    obtain ⟨v, hv, hv'⟩ := List.mem_filterMap.1 hnamed
    obtain ⟨-, t, ht, ht'⟩ := h.entry v hv
    rw [hv'] at ht'
    exact Option.some.inj ht' ▸ ht

/-! ### When the statuses are one -/

theorem injectInHistory_nil_held (history : List Json) : injectInHistory history [] = history := by
  simp [injectInHistory]

theorem injectInHistory_nil_history (held : List String) :
    injectInHistory [] held = held.map historyEntry := by
  simp [injectInHistory]

/-- With something held, the answers give the status of the served history. -/
theorem givenStatus_of_held {sha256Hex : String → String} {history : List Json}
    {held : List String} (h : held ≠ []) :
    givenStatus sha256Hex history held =
      computeStatusHash sha256Hex (servedHistory history held) := by
  unfold givenStatus servedHistory computeModifiedStatusHash
  rw [if_neg h, if_neg h, injectInHistory_nil_history]

/-- The combined status is the given one and that of the served history, exactly if the wallet
sees the same entries either way. -/
theorem statuses_agree_iff {sha256Hex : String → String} (hsha : Function.Injective sha256Hex)
    {history : List Json} {held : List String} (hnodup : held.Nodup)
    (hcolon : ∀ entry ∈ history, ':' ∉ (txHashOf entry).toList)
    (hheld : ∀ txid ∈ held, ':' ∉ txid.toList) :
    (givenStatus sha256Hex history held = computeModifiedStatusHash sha256Hex history held ∧
        computeModifiedStatusHash sha256Hex history held =
          computeStatusHash sha256Hex (servedHistory history held)) ↔
      (held = [] ∧ history.Pairwise statusLe) ∨ (held ≠ [] ∧ OnlyHeld history held) := by
  by_cases hnone : held = []
  · subst hnone
    have hcombined : computeModifiedStatusHash sha256Hex history [] =
        computeStatusHash sha256Hex history := by
      unfold computeModifiedStatusHash
      rw [injectInHistory_nil_held]
    rw [hcombined, ← hashedText_eq_iff hcolon]
    simp only [givenStatus, servedHistory, if_true, and_true, true_and, ne_eq, not_true,
      false_and, or_false]
    unfold protocolStatus computeStatusHash hashedText
    by_cases hnil : history = []
    · subst hnil
      exact iff_of_true rfl rfl
    · rw [if_neg hnil, if_neg hnil, Option.some_inj, hsha.eq_iff]
      exact eq_comm
  · have hcolons : ∀ v ∈ injectInHistory history held, ':' ∉ (txHashOf v).toList := by
      intro v hv
      rcases List.mem_append.1 hv with hv | hv
      · exact hcolon v hv
      · obtain ⟨txid, htxid, rfl⟩ := List.mem_map.1 hv
        exact hheld txid (List.mem_of_mem_filter htxid)
    have hcolons' : ∀ v ∈ held.map historyEntry, ':' ∉ (txHashOf v).toList := by
      intro v hv
      obtain ⟨txid, htxid, rfl⟩ := List.mem_map.1 hv
      exact hheld txid htxid
    have hserved : servedHistory history held = held.map historyEntry := if_neg hnone
    rw [givenStatus_of_held hnone, hserved]
    simp only [hnone, false_and, false_or, ne_eq, not_false_eq_true, true_and]
    rw [← perm_held_iff hnodup, ← perm_injectInHistory_iff,
      ← computeStatusHash_perm_iff hsha hcolons hcolons']
    exact ⟨fun h => h.2, fun h => ⟨h.symm, h⟩⟩

/-! ### The places -/

section
variable {libs : ElectrumLibs} {env : Env} {p : Proc} {w : World}
variable {indexerUrl scripthash : String} {history : List Json} {held : List String}

/-- The process holds the txids for the scripthash, and the indexer has the history for it. -/
structure Watches (libs : ElectrumLibs) (env : Env) (p : Proc) (w : World)
    (indexerUrl scripthash : String) (history : List Json) (held : List String) : Prop where
  url : indexerUrl ≠ ""
  live : ((resolveLiveIndexerUrl p).run (World.exec env) w).1 = .ok indexerUrl
  held : ∀ n, heldTxids env p w n scripthash = held
  fetched : Answers libs env (historyRequest scripthash) (.arr history)

/-- A wallet's request of a method for a scripthash, with what the indexer answers to it. -/
structure AsksFor (libs : ElectrumLibs) (env : Env) (scripthash method : String)
    (request : JsonRpcRequest) (result : Json) : Prop where
  method : request.method = method
  params : scripthashFromParams request.params = some scripthash
  answer : Answers libs env request.toJson result

theorem Shows.eq {session : SessionState} {request : JsonRpcRequest} {a b : Json}
    (ha : Shows libs env p w indexerUrl session request a)
    (hb : Shows libs env p w indexerUrl session request b) : a = b := by
  obtain ⟨response, session', w', hrun, hresult⟩ := ha
  obtain ⟨response', session'', w'', hrun', hresult'⟩ := hb
  rw [hrun] at hrun'
  cases hrun'
  exact Option.some.inj (hresult.symm.trans hresult')

/-- A list of entries that is not empty has a status. -/
theorem pendingStatus_eq_some (sha256Hex : String → String) (hheld : held ≠ []) :
    ∃ hash, computeModifiedStatusHash sha256Hex [] held = some hash := by
  unfold computeModifiedStatusHash computeStatusHash
  rw [injectInHistory_nil_history, if_neg fun h => hheld (List.map_eq_nil_iff.1 h)]
  exact ⟨_, rfl⟩

/-- `modify_upstream_response` gives the status in the place of the indexer's. -/
theorem run_modifyUpstreamResponse_status {msg : Json} (w : World)
    (hheld : ∀ n, heldTxids env p w n scripthash = held)
    (hmsg : msg.get? "result" = some (statusValue (protocolStatus libs.sha256Hex history))) :
    ∃ changed w', (modifyUpstreamResponse libs p msg "blockchain.scripthash.subscribe"
        scripthash).run (World.exec env) w = (.ok changed, w') ∧
      changed.get? "result" = some (statusValue (givenStatus libs.sha256Hex history held)) := by
  by_cases hnone : held = []
  · refine ⟨msg, w.ticked, run_modifyUpstreamResponse_subscribe ((hheld _).trans hnone), ?_⟩
    rw [hmsg, givenStatus, if_pos hnone]
  · obtain ⟨hash, hhash⟩ := pendingStatus_eq_some libs.sha256Hex hnone
    have hobj : setResult msg (.str hash) = pure (msg.setField "result" (.str hash)) := by
      cases msg <;> first | rfl | cases hmsg
    refine ⟨msg.setField "result" (.str hash), w.ticked, ?_, ?_⟩
    · unfold modifyUpstreamResponse
      rw [if_neg (by decide), if_pos rfl]
      simp only [Prog.bind_eq, Prog.run_bind, run_getPendingTxidsForScripthash, hheld, hhash, hobj]
      rfl
    · rw [Json.get?_setField hmsg, givenStatus, if_neg hnone, hhash]
      rfl

/-- The fast path of `subscribe` gives the status, or else the indexer does. -/
theorem shows_subscribe {request : JsonRpcRequest}
    (h : Watches libs env p w indexerUrl scripthash history held)
    (hasks : AsksFor libs env scripthash "blockchain.scripthash.subscribe" request
      (statusValue (protocolStatus libs.sha256Hex history))) (session : SessionState) :
    Shows libs env p w indexerUrl session request
      (statusValue (givenStatus libs.sha256Hex history held)) := by
  have hfast : fastMethods.contains request.method = true := by
    rw [hasks.method]
    decide
  by_cases hnone : held = []
  · obtain ⟨_, hshows, rfl⟩ : ∃ status, Shows libs env p w indexerUrl session request status ∧
        status = statusValue (givenStatus libs.sha256Hex history held) := by
      refine shows_forwarded hfast hasks.params h.url hasks.answer ((h.held _).trans hnone)
        (fun msg w' hresult hsame => ?_) session
      rw [hasks.method]
      obtain ⟨changed, w'', hrun, hstatus⟩ :=
        run_modifyUpstreamResponse_status w' (fun n => (hsame n).trans (h.held n)) hresult
      exact ⟨changed, w'', hrun, _, hstatus, rfl⟩
    exact hshows
  · obtain ⟨hash, hhash⟩ := pendingStatus_eq_some libs.sha256Hex hnone
    have hresponse : fastResponse libs request
        (heldTxids env p w (readTick w scripthash) scripthash) =
          some (resultResponse request.id (.str hash)) := by
      unfold fastResponse
      rw [h.held, if_neg hnone, if_pos hasks.method, hhash]
      rfl
    refine shows_fastResponse hfast hasks.params hresponse ?_ session
    rw [givenStatus, if_neg hnone, hhash]
    rfl

/-- The history that `get_history` serves. -/
theorem shows_served {request : JsonRpcRequest}
    (h : Watches libs env p w indexerUrl scripthash history held)
    (hasks : AsksFor libs env scripthash "blockchain.scripthash.get_history" request
      (.arr history)) (session : SessionState) :
    Shows libs env p w indexerUrl session request (.arr (servedHistory history held)) := by
  by_cases hnone : held = []
  · obtain ⟨_, hshows, n, rfl⟩ : ∃ shown,
        Shows libs env p w indexerUrl session request shown ∧ _ :=
      shows_history_forwarded hasks.method hasks.params h.url hasks.answer
        ((h.held _).trans hnone) session
    rw [h.held, hnone, injectInHistory_nil_held] at hshows
    rwa [servedHistory, if_pos hnone]
  · have hshows : Shows libs env p w indexerUrl session request _ :=
      shows_history_held hasks.method hasks.params (fun hnil => hnone ((h.held _).symm.trans hnil))
        session
    rw [h.held] at hshows
    rwa [servedHistory, if_neg hnone]

/-- The reading of the held transactions leaves them as they are. -/
theorem heldTxids_ticked (w : World) (n : Nat) :
    heldTxids env p w.ticked n scripthash = heldTxids env p w n scripthash := rfl

/-- `modify_upstream_notification` gives the status in the place of the indexer's. -/
theorem run_modifyUpstreamNotification {msg : Json} (w : World)
    (hheld : ∀ n, heldTxids env p w n scripthash = held)
    (hmethod : msg.get? "method" = some (.str "blockchain.scripthash.subscribe"))
    (hparams : msg.get? "params" = some (.arr [.str scripthash,
      statusValue (protocolStatus libs.sha256Hex history)])) :
    ∃ changed w', (modifyUpstreamNotification libs p msg).run (World.exec env) w =
        (.ok changed, w') ∧
      changed.get? "params" = some (.arr [.str scripthash,
        statusValue (givenStatus libs.sha256Hex history held)]) := by
  have hpending : (hasPendingForScripthash p scripthash).run (World.exec env) w =
      (.ok (!held.isEmpty), w.ticked) := by
    unfold hasPendingForScripthash
    simp only [Prog.bind_eq, Prog.run_bind, run_getPendingTxidsForScripthash, hheld,
      Prog.pure_eq_ret, Prog.run_ret]
  unfold modifyUpstreamNotification
  rw [hmethod, hparams]
  simp only [Option.bind_some, Json.asStr?_str, Json.asArray?_arr, Option.getD_some, ne_eq,
    not_true, if_false, Prog.bind_eq, Prog.run_bind, hpending]
  by_cases hnone : held = []
  · subst hnone
    refine ⟨msg, w.ticked, rfl, ?_⟩
    rw [hparams, givenStatus, if_pos rfl]
  · obtain ⟨hash, hhash⟩ := pendingStatus_eq_some libs.sha256Hex hnone
    have hsome : (!held.isEmpty) = true := by simp [hnone]
    rw [if_pos hsome]
    refine ⟨_, w.ticked.ticked, ?_, Json.get?_setField hparams (.arr [.str scripthash,
      statusValue (givenStatus libs.sha256Hex history held)])⟩
    simp only [Prog.run_bind, run_getPendingTxidsForScripthash, heldTxids_ticked, hheld, hhash]
    rw [givenStatus, if_neg hnone, hhash]
    rfl

theorem clock_resolveLiveIndexerUrl : IsClock (resolveLiveIndexerUrl p) := by
  refine Prog.uses_bind (clock_indexerUrlOrEmpty p) fun url => ?_
  show IsClock (if _ then _ else _)
  split
  · exact clock_indexerUrlOrEmpty p
  · exact Prog.uses_ret _

/-- The configuration is read without a look at the virtual mempool. -/
theorem heldTxids_resolveLiveIndexerUrl (env : Env) (p : Proc) (w : World) (n : Nat)
    (scripthash : String) :
    heldTxids env p ((resolveLiveIndexerUrl p).run (World.exec env) w).2 n scripthash =
      heldTxids env p w n scripthash := by
  have hkeep : (((resolveLiveIndexerUrl p).run (World.exec env) w).2.pm p).pendingTxs =
      (w.pm p).pendingTxs := by
    refine Prog.run_of_uses (World.exec env)
      (I := fun w' => (w'.pm p).pendingTxs = (w.pm p).pendingTxs)
      (fun a w' ha hsame => ?_) clock_resolveLiveIndexerUrl rfl
    have hquiet : a.writesPending = false := by
      cases a <;> first | rfl | cases ha
    exact (exec_pendingTxs hquiet p).trans hsame
  unfold heldTxids
  rw [hkeep]

/-- The push gives the status of the combined history. -/
theorem trace_pushStatus (h : Watches libs env p w indexerUrl scripthash history held) :
    ∃ w', (w', Act.writeClient (libs.toText (statusNotification scripthash
        (computeModifiedStatusHash libs.sha256Hex history held)) ++ "\n")) ∈
      (pushStatus libs p scripthash).trace (World.exec env) w := by
  obtain ⟨w₁, hlive⟩ : ∃ w₁, (resolveLiveIndexerUrl p).run (World.exec env) w =
      (.ok indexerUrl, w₁) := ⟨_, Prod.ext h.live rfl⟩
  have hsame : ∀ n, heldTxids env p w₁ n scripthash = held := by
    intro n
    have hread := heldTxids_resolveLiveIndexerUrl env p w n scripthash
    rw [hlive] at hread
    exact hread.trans (h.held n)
  refine ⟨w₁.ticked.ticked, ?_⟩
  unfold pushStatus
  simp only [Prog.bind_eq, Prog.trace_bind, hlive, run_getPendingTxidsForScripthash, hsame,
    run_fetchScripthashHistory h.url h.fetched]
  simp only [perform, Prog.perform, Prog.trace, Prog.run, List.mem_append]
  exact Or.inr (Or.inr (Or.inr (Or.inl (List.mem_singleton_self _))))

/-- Every place gives the wallet the status, and it is that of the history it is served. -/
structure OneStatus (libs : ElectrumLibs) (env : Env) (p : Proc) (w : World)
    (indexerUrl scripthash : String) (history : List Json) (session : SessionState)
    (subscribe getHistory : JsonRpcRequest) (status : Option String) : Prop where
  /-- The answer to `subscribe`, from the fast path if it answers. -/
  subscribed : Shows libs env p w indexerUrl session subscribe (statusValue status)
  /-- The indexer's answer to `subscribe`, as it is passed on. -/
  passedOn : ∀ msg,
    msg.get? "result" = some (statusValue (protocolStatus libs.sha256Hex history)) →
    ∃ changed w', (modifyUpstreamResponse libs p msg "blockchain.scripthash.subscribe"
        scripthash).run (World.exec env) w = (.ok changed, w') ∧
      changed.get? "result" = some (statusValue status)
  /-- The indexer's notification, as it is passed on. -/
  notified : ∀ msg, msg.get? "method" = some (.str "blockchain.scripthash.subscribe") →
    msg.get? "params" = some (.arr [.str scripthash,
      statusValue (protocolStatus libs.sha256Hex history)]) →
    ∃ changed w', (modifyUpstreamNotification libs p msg).run (World.exec env) w =
        (.ok changed, w') ∧
      changed.get? "params" = some (.arr [.str scripthash, statusValue status])
  /-- The push after a change. -/
  pushed : ∃ w', (w', Act.writeClient (libs.toText (statusNotification scripthash status) ++
    "\n")) ∈ (pushStatus libs p scripthash).trace (World.exec env) w
  /-- The history that the wallet is served has the status. -/
  served : ∃ shown, Shows libs env p w indexerUrl session getHistory (.arr shown) ∧
    status = computeStatusHash libs.sha256Hex shown

/-- Every place gives the combined status exactly if nothing is held and the indexer's history is
in the order that is hashed, or the indexer has held transactions only, all in its mempool. -/
theorem oneStatus_iff (session : SessionState) {subscribe getHistory : JsonRpcRequest}
    (hsha : Function.Injective libs.sha256Hex)
    (h : Watches libs env p w indexerUrl scripthash history held)
    (hsubscribe : AsksFor libs env scripthash "blockchain.scripthash.subscribe" subscribe
      (statusValue (protocolStatus libs.sha256Hex history)))
    (hget : AsksFor libs env scripthash "blockchain.scripthash.get_history" getHistory
      (.arr history))
    (hcolon : ∀ entry ∈ history, ':' ∉ (txHashOf entry).toList)
    (hheld : ∀ txid ∈ held, ':' ∉ txid.toList) :
    OneStatus libs env p w indexerUrl scripthash history session subscribe getHistory
        (computeModifiedStatusHash libs.sha256Hex history held) ↔
      (held = [] ∧ history.Pairwise statusLe) ∨ (held ≠ [] ∧ OnlyHeld history held) := by
  have hnodup : held.Nodup := h.held 0 ▸ nodup_heldTxids env p w 0 scripthash
  have hgiven := shows_subscribe h hsubscribe session
  have hserved := shows_served h hget session
  rw [← statuses_agree_iff hsha hnodup hcolon hheld]
  constructor
  · intro hone
    refine ⟨statusValue_injective (hgiven.eq hone.subscribed), ?_⟩
    obtain ⟨shown, hshown, hstatus⟩ := hone.served
    rw [hstatus, Json.arr.inj (hshown.eq hserved)]
  · rintro ⟨hsame, hstatus⟩
    rw [← hsame]
    refine ⟨hgiven, fun msg => run_modifyUpstreamResponse_status w h.held,
      fun msg => run_modifyUpstreamNotification w h.held, ?_, _, hserved, hsame.trans hstatus⟩
    rw [hsame]
    exact trace_pushStatus h

end

/-! ### A held transaction beside a confirmed one -/

/-- The indexer has confirmed the transaction "aa". -/
def confirmedHistory : List Json := [sampleEntry "aa" 5]

/-- Its answer to `subscribe`, where a text is its own hash. -/
def statusAnswer : Json :=
  resultResponse (.ofInt 1) (statusValue (protocolStatus id confirmedHistory))

/-- Its answer to `get_history`. -/
def historyAnswer : Json := resultResponse (.ofInt 1) (.arr confirmedHistory)

/-- An indexer with that history. -/
def confirmedEnv : Env :=
  repliesEnv [((sampleRequest "blockchain.scripthash.subscribe").toJson, statusAnswer),
    ((sampleRequest "blockchain.scripthash.get_history").toJson, historyAnswer),
    (historyRequest "ab", historyAnswer)]

/-- Libraries that can read its answers. -/
def confirmedLibs : ElectrumLibs := sampleLibs [statusAnswer, historyAnswer]

theorem watches_confirmed :
    Watches confirmedLibs confirmedEnv .daemon holdingWorld "tcp://127.0.0.1:50001" "ab"
      confirmedHistory ["07"] :=
  ⟨by decide, rfl, fun _ => rfl, fun _ => ⟨_, historyAnswer, rfl, by decide, rfl⟩⟩

theorem asksFor_subscribe_confirmed :
    AsksFor confirmedLibs confirmedEnv "ab" "blockchain.scripthash.subscribe"
      (sampleRequest "blockchain.scripthash.subscribe")
      (statusValue (protocolStatus id confirmedHistory)) :=
  ⟨rfl, rfl, fun _ => ⟨_, statusAnswer, rfl, by decide, rfl⟩⟩

theorem asksFor_getHistory_confirmed :
    AsksFor confirmedLibs confirmedEnv "ab" "blockchain.scripthash.get_history"
      (sampleRequest "blockchain.scripthash.get_history") (.arr confirmedHistory) :=
  ⟨rfl, rfl, fun _ => ⟨_, historyAnswer, rfl, by decide, rfl⟩⟩

/-- With the transaction "07" held and "aa" confirmed, the answer to `subscribe` is the status of
"07" alone, which is not the status of both. -/
theorem subscribe_omits_confirmed :
    Watches confirmedLibs confirmedEnv .daemon holdingWorld "tcp://127.0.0.1:50001" "ab"
        confirmedHistory ["07"] ∧
      ¬ OneStatus confirmedLibs confirmedEnv .daemon holdingWorld "tcp://127.0.0.1:50001" "ab"
        confirmedHistory {} (sampleRequest "blockchain.scripthash.subscribe")
        (sampleRequest "blockchain.scripthash.get_history")
        (computeModifiedStatusHash id confirmedHistory ["07"]) := by
  refine ⟨watches_confirmed, fun hone => ?_⟩
  have hgiven := hone.subscribed.eq
    (shows_subscribe watches_confirmed asksFor_subscribe_confirmed {})
  have hsame := statusValue_injective hgiven
  revert hsame
  decide

theorem oneStatus_iff_confirmed :
    OneStatus confirmedLibs confirmedEnv .daemon holdingWorld "tcp://127.0.0.1:50001" "ab"
        confirmedHistory {} (sampleRequest "blockchain.scripthash.subscribe")
        (sampleRequest "blockchain.scripthash.get_history")
        (computeModifiedStatusHash id confirmedHistory ["07"]) ↔
      (["07"] = [] ∧ confirmedHistory.Pairwise statusLe) ∨
        (["07"] ≠ [] ∧ OnlyHeld confirmedHistory ["07"]) :=
  oneStatus_iff {} Function.injective_id watches_confirmed asksFor_subscribe_confirmed
    asksFor_getHistory_confirmed (by decide) (by decide)

end BroadcastPool
