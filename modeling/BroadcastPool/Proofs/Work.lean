import BroadcastPool.Pool.TableOps
import BroadcastPool.Proofs.Rules

/-!
# `BroadcastPool.Proofs.Work`: which actions each function can perform

Most actions are of no interest to a claim: they read something, or they write a MAC or a cache.
These are basic (`Act.isBasic`). The others start a process, read or write the safe-mode flag,
insert, update, delete or archive rows, store or extend an entry in the virtual mempool, hand a
transaction over or talk to a wallet.

`Act.Work K` allows the basic actions and those that satisfy `K`. Each function has one lemma
here: it is work for `K` if `K` allows the actions that are named in the hypotheses.
-/

set_option autoImplicit false

namespace BroadcastPool

open Effects

/-- An action that any function may perform. -/
def Act.isBasic : Act → Bool
  | startProcess .. | isSafeMode _ | enterSafeMode .. | clearSafeMode _ => false
  | insert _ | update _ | delete _ | archiveRow .. | storePending .. | mergePending .. => false
  | indexerBroadcast _ | rpcBroadcast _ => false
  | forwardToIndexer _ | writeClient _ | spawnIngest .. => false
  | _ => true

/-- The action is basic or satisfies `K`. -/
def Act.Work (K : Act → Prop) (a : Act) : Prop := a.isBasic = true ∨ K a

/-- A program of such actions. -/
abbrev IsWork {α : Type} (K : Act → Prop) (prog : M α) : Prop := prog.Uses (Act.Work K)

/-- The row is one that `insert_broadcast_tx` makes of the request. -/
def IsNewRow (env : Env) (req : NewBroadcastTx) (row : Row) : Prop :=
  req.nlocktime.getD 0 < 2 ^ 63 ∧ ∃ id now encTxHex encDest encSource,
    row = newRow env req id now encTxHex encDest encSource

section
variable {α : Type} {K : Act → Prop} (env : Env) (p : Proc)

theorem isBasic_of_isQuiet {a : Act} (h : a.isQuiet = true) : a.isBasic = true := by
  cases a <;> first | rfl | cases h

theorem IsQuiet.work {prog : M α} (h : IsQuiet prog) : IsWork K prog :=
  Prog.Uses.mono (fun _ ha => Or.inl (isBasic_of_isQuiet ha)) h

theorem IsClock.work {prog : M α} (h : IsClock prog) : IsWork K prog := h.quiet.work

/-- A program that reads, and extends entries. -/
theorem IsLookup.work {prog : M α} (h : IsLookup prog)
    (hmerge : ∀ p txid extra, K (.mergePending p txid extra)) : IsWork K prog := by
  refine Prog.Uses.mono (fun a ha => ?_) h
  cases a
  case mergePending p txid extra => exact Or.inr (hmerge p txid extra)
  all_goals first | exact Or.inl rfl | cases ha

theorem work_basic {a : Act} (h : a.isBasic = true) : IsWork K (perform a) := uses_act (Or.inl h)

theorem work_act {a : Act} (h : K a) : IsWork K (perform a) := uses_act (Or.inr h)

theorem work_resealRowMac (id : String) : IsWork K (resealRowMac id) :=
  uses_orFail _ (work_basic rfl)

theorem work_updateAndReseal (context : String) {u : Update} (hu : K (.update u)) :
    IsWork K (updateAndReseal context u) :=
  Prog.uses_bind (uses_orFail _ (work_act hu)) fun _ => work_resealRowMac _

/-- A mutator whose only preparation is the clock. -/
theorem work_clocked (context : String) {u : String → Update} (hu : ∀ now, K (.update (u now))) :
    IsWork K (do
      let now ← nowText env
      updateAndReseal context (u now) : M Unit) :=
  Prog.uses_bind (clock_nowText env).work fun now => work_updateAndReseal context (hu now)

variable {id : String}

/-! ### The statements on one row -/

theorem work_resetFailedToScheduled (hu : ∀ now, K (.update (.failedToScheduled id now))) :
    IsWork K (resetFailedToScheduled env id) :=
  Prog.uses_bind (clock_nowText env).work fun now =>
    Prog.uses_bind (uses_orFail _ (work_act (hu now))) fun _ =>
      Prog.uses_bind (uses_ensure _ _) fun _ => work_resealRowMac _

theorem work_requeueRetriableFailures
    (hu : ∀ id now, K (.update (.failedToScheduled id now))) :
    IsWork K (requeueRetriableFailures env p) := by
  refine Prog.uses_bind (clock_configNetwork p).work fun network => ?_
  refine Prog.uses_bind (quiet_select _ _).work fun failed => ?_
  refine Prog.uses_forEach failed fun tx _ => ?_
  unfold requeueFailure
  split
  · exact work_resetFailedToScheduled env fun now => hu tx.id now
  · exact Prog.uses_ret _

theorem work_retryFailedTransaction (hu : ∀ now, K (.update (.failedToScheduled id now))) :
    IsWork K (retryFailedTransaction env p id) := by
  refine Prog.uses_bind (quiet_getBroadcastTxById id).work fun tx => ?_
  refine Prog.uses_bind (uses_ensure _ _) fun _ => ?_
  refine Prog.uses_bind (work_resetFailedToScheduled env hu) fun _ => ?_
  refine Prog.uses_bind (quiet_getBroadcastTxById id).work fun updated => ?_
  exact Prog.uses_bind (clock_enrichTxLocktime p updated).work fun _ => Prog.uses_ret _

theorem work_markBroadcast (txid : String) (feeRate : F64)
    (hu : ∀ now, K (.update (.broadcast id txid feeRate now))) :
    IsWork K (markBroadcast env p id txid feeRate) :=
  Prog.uses_bind (work_clocked env _ hu) fun _ =>
    Prog.uses_bind (work_basic rfl) fun _ => Prog.uses_ret _

theorem work_scheduleAt {time : DateTime} {fee : F64}
    (hu : ∀ t d now, d = none ∨ d = some t → K (.update (.reschedule id t d fee now))) :
    IsWork K (scheduleAt env p id time fee) := by
  refine Prog.uses_bind (quiet_getBroadcastTxById id).work fun tx => ?_
  refine Prog.uses_bind (work_basic rfl) fun now => ?_
  refine Prog.uses_bind (uses_ensure _ _) fun _ => ?_
  refine Prog.uses_bind (uses_ensure _ _) fun _ => ?_
  refine Prog.uses_bind (work_clocked env _ fun now => hu _ _ now ?_) fun _ => ?_
  · split
    · exact Or.inr rfl
    · exact Or.inl rfl
  · refine Prog.uses_bind (quiet_getBroadcastTxById id).work fun updated => ?_
    exact Prog.uses_bind (clock_enrichTxLocktime p updated).work fun _ => Prog.uses_ret _

theorem work_scheduleByPrice {target : F64} {currency condition : String} {fee : F64}
    (hu : ∀ c d now, K (.update (.priceSchedule id target c d fee now))) :
    IsWork K (scheduleByPrice env p id target currency condition fee) := by
  refine Prog.uses_bind (uses_ensure _ _) fun _ => ?_
  refine Prog.uses_bind (uses_ensure _ _) fun _ => ?_
  refine Prog.uses_bind (uses_ensure _ _) fun _ => ?_
  refine Prog.uses_bind (quiet_getBroadcastTxById id).work fun tx => ?_
  refine Prog.uses_bind (uses_ensure _ _) fun _ => ?_
  refine Prog.uses_bind (uses_ensure _ _) fun _ => ?_
  refine Prog.uses_bind (uses_ensure _ _) fun _ => ?_
  refine Prog.uses_bind (work_clocked env _ fun now => hu _ _ now) fun _ => ?_
  refine Prog.uses_bind (quiet_getBroadcastTxById id).work fun updated => ?_
  exact Prog.uses_bind (clock_enrichTxLocktime p updated).work fun _ => Prog.uses_ret _

theorem work_scheduleTransaction {minDelay maxDelay : Option Nat}
    {minFee maxFee fixedFee : Option F64}
    (hu : ∀ t f now, K (.update (.scheduleRaw id t f now))) :
    IsWork K (scheduleTransaction env p id minDelay maxDelay minFee maxFee fixedFee) := by
  refine Prog.uses_bind (uses_orRaise (work_basic rfl)) fun config => ?_
  refine Prog.uses_bind (clock_genRange _ _).work fun delayHours => ?_
  refine Prog.uses_bind (clock_chooseFeeRate env _ _ _).work fun feeRate => ?_
  refine Prog.uses_bind (work_basic rfl) fun now => ?_
  refine Prog.uses_bind (clock_durationHours _).work fun delay => ?_
  split
  · exact Prog.uses_fail _
  · refine Prog.uses_bind (clock_nowText env).work fun updated => ?_
    exact Prog.uses_bind (uses_orFail _ (work_act (hu _ _ _))) fun _ =>
      (quiet_getBroadcastTxById id).work

theorem work_scheduleAllPending {network : String}
    (hu : ∀ id t f now, K (.update (.scheduleRaw id t f now))) :
    IsWork K (scheduleAllPending env p network) := by
  refine Prog.uses_bind (quiet_select _ _).work fun txs => ?_
  refine Prog.uses_forEach txs fun tx _ => ?_
  exact Prog.uses_bind (work_scheduleTransaction env p (hu tx.id)) fun _ => Prog.uses_ret _

theorem work_checkConfirmations
    (hu : ∀ id height now, K (.update (.confirmed id height now))) :
    IsWork K (checkConfirmations env p) := by
  have hconfirm : ∀ id height, IsWork K (markConfirmed env id height) := by
    intro id height
    refine Prog.uses_bind (clock_nowText env).work fun now => ?_
    exact Prog.uses_bind (uses_ensure _ _) fun _ => work_updateAndReseal _ (hu id height now)
  have hcheck : ∀ tx : BroadcastTx, IsWork K (checkConfirmation env tx) := by
    intro tx
    unfold checkConfirmation
    split
    · exact Prog.uses_ret _
    · refine Prog.uses_bind (work_basic rfl) fun found => ?_
      split
      · refine Prog.uses_bind (work_basic rfl) fun height => ?_
        split
        · exact Prog.uses_bind (uses_catchErr (hconfirm _ _)) fun _ => Prog.uses_ret _
        · exact Prog.uses_ret _
      · exact Prog.uses_ret _
  refine Prog.uses_bind (clock_configNetwork p).work fun network => ?_
  refine Prog.uses_bind (quiet_select _ _).work fun txs => ?_
  refine Prog.uses_bind (work_basic rfl) fun rpc => ?_
  split
  · refine Prog.uses_bind (work_basic rfl) fun up => ?_
    split
    · exact Prog.uses_forEach txs fun tx _ => hcheck tx
    · exact Prog.uses_ret _
  · exact Prog.uses_ret _

theorem work_checkPriceTriggers {prices : String → Option F64}
    (hu : ∀ id now, K (.update (.dueFromPriceTrigger id now))) :
    IsWork K (checkPriceTriggers env p prices) := by
  refine Prog.uses_bind (clock_configNetwork p).work fun network => ?_
  refine Prog.uses_bind (quiet_select _ _).work fun txs => ?_
  refine Prog.uses_forEach txs fun tx _ => ?_
  exact uses_logErrorIf _ (work_clocked env _ (hu tx.id))

theorem work_blockHeightMonitorPass (hu : ∀ id now, K (.update (.due id now))) :
    IsWork K (blockHeightMonitorPass env p) := by
  refine Prog.uses_bind (clock_configNetwork p).work fun network => ?_
  refine Prog.uses_bind (work_basic rfl) fun health => ?_
  split
  · refine Prog.uses_bind (clock_checkBlockHeight p).work fun height => ?_
    cases height with
    | none => exact Prog.uses_ret _
    | some height =>
      refine Prog.uses_bind (quiet_select _ _).work fun txs => ?_
      refine Prog.uses_forEach txs fun tx _ => ?_
      exact uses_logErrorIf _ (work_clocked env _ (hu tx.id))
  · exact Prog.uses_ret _

theorem work_recordMiss (tx : BroadcastTx) (now : DateTime)
    (hu : ∀ m o now, K (.update (.broadcastMiss tx.id m o now))) :
    IsWork K (recordMiss env p tx now) := by
  unfold recordMiss
  split
  · refine Prog.uses_bind (uses_logErrorIf _ ?_) fun _ =>
      uses_logErrorIf _ (clock_getMedianTimePastCached p).work
    exact Prog.uses_bind (clock_nowText env).work fun now =>
      Prog.uses_bind (uses_orFail _ (work_act (hu _ _ now))) fun _ => Prog.uses_ret _
  · exact Prog.uses_ret _

theorem work_removeTransaction (hdelete : K (.delete id)) :
    IsWork K (removeTransaction env p id) := by
  refine Prog.uses_bind (quiet_getBroadcastTxById id).work fun tx => ?_
  refine Prog.uses_bind (uses_orFail _ (work_act hdelete)) fun removed => ?_
  refine Prog.uses_bind (uses_ensure _ _) fun _ => ?_
  split
  · exact Prog.uses_bind (work_basic rfl) fun _ => Prog.uses_ret _
  · exact Prog.uses_ret _

theorem work_archiveTerminalOlderThan {key : Key} {network cutoff : String}
    (harchive : ∀ id entry, K (.archiveRow id entry)) :
    IsWork K (archiveTerminalOlderThan env key network cutoff) := by
  refine Prog.uses_bind (quiet_select _ _).work fun txs => ?_
  refine Prog.uses_forEach txs fun tx _ => ?_
  unfold archiveTx
  split
  · exact Prog.uses_ret _
  · refine Prog.uses_bind (work_basic rfl) fun archiveId => ?_
    refine Prog.uses_bind (work_basic rfl) fun nonce => ?_
    refine Prog.uses_bind (clock_nowText env).work fun archivedAt => ?_
    exact uses_orRaise (work_act (harchive _ _))

theorem work_retentionPass (key : Key) (harchive : ∀ id entry, K (.archiveRow id entry)) :
    IsWork K (retentionPass env p key) :=
  Prog.uses_bind (uses_orRaise (work_basic rfl)) fun _ =>
    Prog.uses_bind (work_basic rfl) fun _ => work_archiveTerminalOlderThan env harchive

theorem work_archiveFlush (key : Key) (harchive : ∀ id entry, K (.archiveRow id entry)) :
    IsWork K (archiveFlush env p key) :=
  Prog.uses_bind (uses_orRaise (work_basic rfl)) fun _ =>
    Prog.uses_bind (work_basic rfl) fun _ => work_archiveTerminalOlderThan env harchive

theorem work_saveConfig (request : SaveConfigRequest) : IsWork K (saveConfig p request) :=
  Prog.uses_bind (work_basic rfl) fun _ => uses_orRaise (work_basic rfl)

/-! ### New rows and entries -/

theorem work_importTransaction (newTx : NewBroadcastTx)
    (hinsert : ∀ row, IsNewRow env newTx row → K (.insert row)) :
    IsWork K (importTransaction env newTx) := by
  refine Prog.uses_bind (work_basic rfl) fun id => ?_
  refine Prog.uses_bind (clock_nowText env).work fun now => ?_
  refine Prog.uses_bind (clock_encode env _ _).work fun encTxHex => ?_
  refine Prog.uses_bind (clock_encode? env _ _).work fun encDest => ?_
  refine Prog.uses_bind (clock_encode? env _ _).work fun encSource => ?_
  refine Prog.uses_ensure_bind fun hlt => ?_
  refine Prog.uses_bind (uses_orFail _ (work_act (hinsert _ ?_))) fun _ =>
    (quiet_getBroadcastTxById id).work
  exact ⟨hlt, id, now, encTxHex, encDest, encSource, rfl⟩

theorem work_preAckStore (txHex : String) (hstore : ∀ txid info, K (.storePending p txid info)) :
    IsWork K (preAckStore env p txHex) := by
  unfold preAckStore
  split
  · exact work_act (hstore _ _)
  · exact Prog.uses_ret _

theorem work_captureVirtualBlock (mode : BroadcastMode) (sourceLabel : String) :
    IsWork K (captureVirtualBlock p mode sourceLabel) := by
  unfold captureVirtualBlock
  split
  · exact uses_orRaise (work_basic rfl)
  · exact Prog.uses_ret _

/-- `handle_broadcast`, where the import is of interest. -/
theorem work_handleBroadcast_of_import {txHex source : String}
    (himport : ∀ network tx plan target, IsWork K (importTransaction env
      (ingestRequest (Text.trim txHex) network source tx plan target)))
    (hstore : ∀ txid info, K (.storePending p txid info))
    (hu : ∀ id now, K (.update (.due id now))) :
    IsWork K (handleBroadcast env p txHex source) := by
  unfold handleBroadcast
  dsimp only
  split
  · exact Prog.uses_fail _
  · refine Prog.uses_bind (clock_configNetwork p).work fun network => ?_
    refine Prog.uses_bind (work_basic rfl) fun health => ?_
    refine Prog.uses_bind (uses_orRaise (work_basic rfl)) fun config => ?_
    refine Prog.uses_bind (clock_resolveIngestPlan env _ _ _ _).work fun plan => ?_
    refine Prog.uses_bind (work_captureVirtualBlock p _ _) fun target => ?_
    refine Prog.uses_bind (himport _ _ _ _) fun imported => ?_
    refine Prog.uses_bind (work_act (hstore _ _)) fun _ => ?_
    exact Prog.uses_bind (uses_logErrorIf _ (work_clocked env _ (hu imported.id)))
      fun _ => Prog.uses_ret _

/-- What the background task does after `handle_broadcast`. -/
def afterHandleBroadcast (txHex : String) (start : Nat) (outcome : Except Failure String) :
    M Unit := do
  let finished ← perform .instant
  match outcome with
  | .ok txid =>
    if finished - start < 10000000000 then
      enrichPendingInputScripthashes env p txid (Text.trim txHex)
    else pure ()
  | .error _ => pure ()

theorem work_afterHandleBroadcast {txHex : String} {start : Nat}
    (outcome : Except Failure String) (hmerge : ∀ q txid extra, K (.mergePending q txid extra)) :
    IsWork K (afterHandleBroadcast env p txHex start outcome) := by
  refine Prog.uses_bind (work_basic rfl) fun finished => ?_
  cases outcome with
  | ok txid =>
    show IsWork K (if _ then _ else _)
    split
    · exact (lookup_enrichPendingInputScripthashes env p txid _).work hmerge
    · exact Prog.uses_ret _
  | error e => exact Prog.uses_ret _

/-- The background work, where the import is of interest. -/
theorem work_ingestTask_of_import {txHex source : String}
    (himport : ∀ network tx plan target, IsWork K (importTransaction env
      (ingestRequest (Text.trim txHex) network source tx plan target)))
    (hstore : ∀ txid info, K (.storePending p txid info))
    (hmerge : ∀ q txid extra, K (.mergePending q txid extra))
    (hu : ∀ id now, K (.update (.due id now))) :
    IsWork K (ingestTask env p txHex source) := by
  refine Prog.uses_bind (work_basic rfl) fun start => ?_
  refine Prog.uses_bind (Prog.uses_attempt
    (work_handleBroadcast_of_import env p himport hstore hu)) fun outcome => ?_
  exact work_afterHandleBroadcast env p outcome hmerge

theorem work_ingestTask {txHex source : String}
    (hinsert : ∀ newTx row, IsNewRow env newTx row → K (.insert row))
    (hstore : ∀ txid info, K (.storePending p txid info))
    (hmerge : ∀ q txid extra, K (.mergePending q txid extra))
    (hu : ∀ id now, K (.update (.due id now))) :
    IsWork K (ingestTask env p txHex source) :=
  work_ingestTask_of_import env p
    (fun _ _ _ _ => work_importTransaction env _ (hinsert _)) hstore hmerge hu

/-- A program of memory actions, where the entries are of interest. -/
theorem IsMemory.work {prog : M α} (h : IsMemory prog)
    (hstore : ∀ q txid info, K (.storePending q txid info))
    (hmerge : ∀ q txid extra, K (.mergePending q txid extra)) : IsWork K prog := by
  refine Prog.Uses.mono (fun a ha => ?_) h
  cases a
  case storePending q txid info => exact Or.inr (hstore q txid info)
  case mergePending q txid extra => exact Or.inr (hmerge q txid extra)
  all_goals first | exact Or.inl rfl | cases ha

theorem work_openDatabase (hu : ∀ id t d s, K (.update (.encryptFields id t d s))) :
    IsWork K (openDatabase env) := by
  refine Prog.uses_bind (uses_orFail _ (work_basic rfl)) fun _ => ?_
  refine Prog.uses_bind (uses_catchErr (uses_orRaise (work_basic rfl))) fun _ => ?_
  refine Prog.uses_bind (uses_catchErr ?_) fun _ => Prog.uses_ret _
  refine Prog.uses_bind (uses_orRaise (work_basic rfl)) fun rows => ?_
  refine Prog.uses_forEach rows fun row _ => ?_
  obtain ⟨id, txHex, dest, source⟩ := row
  refine Prog.uses_bind (clock_encodeMissing env _ _).work fun _ => ?_
  refine Prog.uses_bind (clock_encodeMissing? env _ _).work fun _ => ?_
  refine Prog.uses_bind (clock_encodeMissing? env _ _).work fun _ => ?_
  exact work_updateAndReseal _ (hu _ _ _ _)

theorem work_startUp {rpc indexer : Bool} {config : Config}
    (hstart : K (.startProcess p rpc indexer config))
    (hencrypt : ∀ id t d s, K (.update (.encryptFields id t d s)))
    (hstore : ∀ q txid info, K (.storePending q txid info))
    (hmerge : ∀ q txid extra, K (.mergePending q txid extra))
    (hrequeue : ∀ id now, K (.update (.failedToScheduled id now))) :
    IsWork K (startUp env p rpc indexer config) := by
  refine Prog.uses_bind (work_act hstart) fun _ => ?_
  refine Prog.uses_bind (work_openDatabase env hencrypt) fun _ => ?_
  refine Prog.uses_bind (clock_refreshChainHealth p).work fun _ => ?_
  refine Prog.uses_bind (uses_catchErr ((memory_loadPendingFromDb env p).work hstore hmerge))
    fun _ => ?_
  exact Prog.uses_bind (uses_catchErr (work_requeueRetriableFailures env p hrequeue))
    fun _ => Prog.uses_ret _

/-! ### Hand-overs -/

section
variable {tx : BroadcastTx}

theorem work_of_clockOrSends {prog : M α} (hindexer : K (.indexerBroadcast tx))
    (hrpc : K (.rpcBroadcast tx)) (h : prog.Uses (ClockOrSends tx)) : IsWork K prog := by
  refine Prog.Uses.mono (fun a ha => ?_) h
  rcases ha with hclock | rfl | rfl
  · exact Or.inl (isBasic_of_isQuiet (isQuiet_of_isClock hclock))
  · exact Or.inr hindexer
  · exact Or.inr hrpc

theorem work_broadcastTransaction (hindexer : K (.indexerBroadcast tx))
    (hrpc : K (.rpcBroadcast tx)) : IsWork K (broadcastTransaction p tx) :=
  work_of_clockOrSends hindexer hrpc (uses_broadcastTransaction p tx)

/-- One due transaction of the batch: its own hand-over and the statements on its row. -/
theorem work_broadcastIfFinal (now : DateTime) (hindexer : K (.indexerBroadcast tx))
    (hrpc : K (.rpcBroadcast tx))
    (hbroadcast : ∀ txid fee now, K (.update (.broadcast tx.id txid fee now)))
    (hfailed : ∀ e now, K (.update (.txStatus tx.id .failed e now)))
    (hmiss : ∀ m o now, K (.update (.broadcastMiss tx.id m o now))) :
    IsWork K (broadcastIfFinal env p tx now) := by
  refine Prog.uses_bind (clock_locktimeOrRefuse p _).work fun ok => ?_
  show IsWork K (if _ then _ else _)
  split
  · refine Prog.uses_bind (uses_catchErr (work_broadcastTransaction p hindexer hrpc))
      fun verdict => ?_
    cases verdict with
    | ok txid => exact work_markBroadcast env p _ _ fun _ => hbroadcast _ _ _
    | error e =>
      show IsWork K (if _ then _ else _)
      split
      · exact Prog.uses_ret _
      · exact work_clocked env _ fun _ => hfailed _ _
  · exact work_recordMiss env p tx now hmiss

theorem work_rebroadcastPending (hindexer : ∀ tx, K (.indexerBroadcast tx))
    (hrpc : ∀ tx, K (.rpcBroadcast tx)) (hu : ∀ id now, K (.update (.rebroadcastAt id now))) :
    IsWork K (rebroadcastPending env p) := by
  refine Prog.uses_bind (uses_orRaise (work_basic rfl)) fun config => ?_
  refine Prog.uses_bind (quiet_getPendingRebroadcast env _ _).work fun txs => ?_
  refine Prog.uses_forEach txs fun tx _ => ?_
  refine Prog.uses_bind (uses_catchErr (work_broadcastTransaction p (hindexer tx) (hrpc tx)))
    fun verdict => ?_
  cases verdict with
  | error e => exact Prog.uses_ret _
  | ok txid =>
    refine Prog.uses_bind (clock_nowText env).work fun now => ?_
    exact Prog.uses_bind (uses_orFail _ (work_act (hu tx.id now))) fun _ => Prog.uses_ret _

theorem work_broadcastSingle (hindexer : ∀ tx, K (.indexerBroadcast tx))
    (hrpc : ∀ tx, K (.rpcBroadcast tx))
    (hu : ∀ txid fee now, K (.update (.broadcast id txid fee now))) :
    IsWork K (broadcastSingle env id) := by
  refine Prog.uses_bind (quiet_getBroadcastTxById id).work fun tx => ?_
  refine Prog.uses_bind (uses_ensure _ _) fun _ => ?_
  refine Prog.uses_bind (uses_orFail _ (uses_catchErr
    (work_of_clockOrSends (hindexer tx) (hrpc tx) (uses_broadcastRaw tx)))) fun txid => ?_
  exact Prog.uses_bind (work_clocked env _ (hu txid _)) fun _ => Prog.uses_ret _

theorem work_broadcastAllPending (network : String) (hindexer : ∀ tx, K (.indexerBroadcast tx))
    (hrpc : ∀ tx, K (.rpcBroadcast tx))
    (hu : ∀ id txid fee now, K (.update (.broadcast id txid fee now))) :
    IsWork K (broadcastAllPending env network) := by
  refine Prog.uses_bind (quiet_select _ _).work fun txs => ?_
  refine Prog.uses_forEach txs fun tx _ => ?_
  exact Prog.uses_bind (uses_catchErr (work_broadcastSingle env hindexer hrpc (hu tx.id)))
    fun _ => Prog.uses_ret _

end

/-- `broadcast_now`. -/
theorem work_broadcastNow (hread : K (.isSafeMode p)) (henter : ∀ id, K (.enterSafeMode p id))
    (hindexer : ∀ tx, K (.indexerBroadcast tx)) (hrpc : ∀ tx, K (.rpcBroadcast tx))
    (hu : ∀ id txid fee now, K (.update (.broadcast id txid fee now))) :
    IsWork K (broadcastNow env p id) := by
  refine Prog.uses_bind (work_act hread) fun halted => ?_
  refine Prog.uses_bind (uses_ensure _ _) fun _ => ?_
  refine Prog.uses_bind (quiet_getBroadcastTxById id).work fun tx => ?_
  split
  · exact Prog.uses_bind (work_act (henter _)) fun _ => Prog.uses_fail _
  refine Prog.uses_bind ?_ fun _ => ?_
  · unfold refuseEmitted
    split
    · exact Prog.uses_fail _
    · exact Prog.uses_fail _
    · exact Prog.uses_ret _
  refine Prog.uses_bind (clock_locktimeOrRefuse p _).work fun ok => ?_
  split
  · refine Prog.uses_bind (work_broadcastTransaction p (hindexer tx) (hrpc tx)) fun txid => ?_
    exact Prog.uses_bind (work_markBroadcast env p _ _ (hu _ _ _)) fun _ => Prog.uses_ret _
  · exact (clock_refuseNonFinal p _).work

/-! ### The tick -/

/-- The part of `run_scheduler_tick` that marks the pending rows whose time has come. It
returns whether the tick goes on. -/
def pendingDuePart : M Bool := do
  let halted ← perform (.isSafeMode p)
  if halted then return false
  else do
    let health ← perform (.chainHealth p)
    ensure (health.clockAvailable) "no chain data source available"
    let network ← configNetwork p
    let pending ← getPendingByScheduledTime network
    markPendingLoop env p pending
    return true

/-- The tick is this part and then the release of the due rows. -/
theorem runSchedulerTick_eq :
    runSchedulerTick env p = (pendingDuePart env p).bind fun goesOn =>
      if goesOn then do
        let _ ← catchErr (requeueRetriableFailures env p)
        broadcastDueTransactions env p
      else pure () := by
  unfold runSchedulerTick pendingDuePart
  simp only [Prog.bind_eq, Prog.bind_assoc]
  congr 1
  funext halted
  cases halted
  · simp only [Prog.bind_assoc, Bool.false_eq_true, if_false]
    rfl
  · rfl

variable (hread : K (.isSafeMode p)) (henter : ∀ id, K (.enterSafeMode p id))
include hread henter

theorem work_markPendingLoop (txs : List BroadcastTx) (hu : ∀ id now, K (.update (.due id now))) :
    IsWork K (markPendingLoop env p txs) := by
  induction txs with
  | nil => exact Prog.uses_ret _
  | cons tx txs ih =>
    refine Prog.uses_bind (work_act hread) fun halted => ?_
    split
    · exact Prog.uses_ret _
    · split
      · exact work_act (henter _)
      · exact Prog.uses_bind (uses_logErrorIf _ (work_clocked env _ fun _ => hu _ _)) fun _ => ih

theorem work_pendingDuePart (hu : ∀ id now, K (.update (.due id now))) :
    IsWork K (pendingDuePart env p) := by
  refine Prog.uses_bind (work_act hread) fun halted => ?_
  split
  · exact Prog.uses_ret _
  · refine Prog.uses_bind (work_basic rfl) fun health => ?_
    refine Prog.uses_bind (uses_ensure _ _) fun _ => ?_
    refine Prog.uses_bind (clock_configNetwork p).work fun network => ?_
    refine Prog.uses_bind (quiet_getPendingByScheduledTime network).work fun pending => ?_
    exact Prog.uses_bind (work_markPendingLoop env p hread henter pending hu)
      fun _ => Prog.uses_ret _

theorem work_broadcastDueLoop (now : DateTime) (txs : List BroadcastTx)
    (hindexer : ∀ tx ∈ txs, K (.indexerBroadcast tx)) (hrpc : ∀ tx ∈ txs, K (.rpcBroadcast tx))
    (hbroadcast : ∀ id txid fee now, K (.update (.broadcast id txid fee now)))
    (hfailed : ∀ tx ∈ txs, ∀ e now, K (.update (.txStatus tx.id .failed e now)))
    (hmiss : ∀ id m o now, K (.update (.broadcastMiss id m o now))) :
    IsWork K (broadcastDueLoop env p now txs) := by
  induction txs with
  | nil => exact Prog.uses_ret _
  | cons tx txs ih =>
    have hself := List.mem_cons_self (a := tx) (l := txs)
    have hrest := ih (fun tx' h => hindexer tx' (List.mem_cons_of_mem _ h))
      (fun tx' h => hrpc tx' (List.mem_cons_of_mem _ h))
      fun tx' h => hfailed tx' (List.mem_cons_of_mem _ h)
    refine Prog.uses_bind (work_act hread) fun halted => ?_
    split
    · exact Prog.uses_ret _
    · split
      · exact work_act (henter _)
      · exact Prog.uses_bind (work_broadcastIfFinal env p now (hindexer tx hself) (hrpc tx hself)
          (hbroadcast _) (hfailed tx hself) (hmiss _)) fun _ => hrest

/-- The tick of the scheduler. -/
theorem work_broadcastLoopPass
    (hindexer : ∀ tx, K (.indexerBroadcast tx)) (hrpc : ∀ tx, K (.rpcBroadcast tx))
    (hu : ∀ u, K (.update u)) : IsWork K (broadcastLoopPass env p) := by
  refine Prog.uses_bind (work_act hread) fun halted => ?_
  split
  · exact Prog.uses_ret _
  · rw [runSchedulerTick_eq]
    refine Prog.uses_bind (work_pendingDuePart env p hread henter fun _ _ => hu _)
      fun goesOn => ?_
    split
    · refine Prog.uses_bind (uses_catchErr (work_requeueRetriableFailures env p fun _ _ => hu _))
        fun _ => ?_
      refine Prog.uses_bind (work_act hread) fun halted => ?_
      split
      · exact Prog.uses_ret _
      · refine Prog.uses_bind (clock_configNetwork p).work fun network => ?_
        refine Prog.uses_bind (work_basic rfl) fun now => ?_
        refine Prog.uses_bind (quiet_select _ _).work fun candidates => ?_
        refine Prog.uses_bind (clock_dueTxs p now candidates).work fun due => ?_
        exact work_broadcastDueLoop env p hread henter now due (fun tx _ => hindexer tx)
          (fun tx _ => hrpc tx) (fun _ _ _ _ => hu _) (fun _ _ _ _ => hu _) fun _ _ _ _ => hu _
    · exact Prog.uses_ret _

end

/-! ### Whole pieces of work -/

/-- An `UPDATE` that neither stores the outcome of a hand-over nor encrypts a legacy row. -/
def Update.isOrdinary : Update → Bool
  | txStatus .. | encryptFields .. => false
  | _ => true

/-- An `UPDATE` that writes the txid of a row. -/
def Update.isMark : Update → Bool
  | broadcast .. => true
  | _ => false

/-- The work that opens the database. -/
def Activity.opensDatabase : Activity → Bool
  | restart .. | command .. => true
  | _ => false

/-- The work that stores or extends entries of the virtual mempool. -/
def Activity.growsMempool : Activity → Bool
  | preAck _ | ingest .. | restart .. | command .. => true
  | _ => false

/-- The work that archives terminal rows. -/
def Activity.archives : Activity → Bool
  | retention _ | archiveFlush _ => true
  | _ => false

/-- A command line that hands rows over. -/
def Command.broadcasts : Command → Bool
  | broadcast _ | broadcastAll => true
  | _ => false

/-- The work that records a hand-over. -/
def Activity.broadcasts : Activity → Bool
  | broadcastLoop | broadcastNow _ => true
  | command _ _ _ c => c.broadcasts
  | _ => false

/-- The work that hands rows over. -/
def Activity.handsOver (a : Activity) : Bool :=
  match a with
  | rebroadcastLoop => true
  | _ => a.broadcasts

/-- What a command line asks to be stored. -/
def Command.Requests : Command → NewBroadcastTx → Prop
  | importTxs txs, newTx => newTx ∈ txs
  | _, _ => False

/-- What a piece of work asks to be stored. A wallet's broadcast makes up its request on the way. -/
def Activity.Requests : Activity → NewBroadcastTx → Prop
  | importTx requested, newTx => newTx = requested
  | command _ _ _ c, newTx => c.Requests newTx
  | ingest .., _ => True
  | _, _ => False

/-- What `K` has to allow for a piece of work that neither reads nor raises the safe-mode flag. -/
structure Activity.Allows (env : Env) (a : Activity) (K : Act → Prop) : Prop where
  update : ∀ u, u.isOrdinary = true → u.isMark = false → K (.update u)
  mark : a.broadcasts = true → ∀ id txid fee now, K (.update (.broadcast id txid fee now))
  encrypt : a.opensDatabase = true → ∀ id t d s, K (.update (.encryptFields id t d s))
  insert : ∀ newTx, a.Requests newTx → ∀ row, IsNewRow env newTx row → K (.insert row)
  delete : ∀ id, K (.delete id)
  archive : a.archives = true → ∀ id entry, K (.archiveRow id entry)
  storePending : a.growsMempool = true → ∀ p txid info, K (.storePending p txid info)
  mergePending : a.growsMempool = true → ∀ p txid extra, K (.mergePending p txid extra)
  indexerBroadcast : a.handsOver = true → ∀ tx, K (.indexerBroadcast tx)
  rpcBroadcast : a.handsOver = true → ∀ tx, K (.rpcBroadcast tx)
  clearSafeMode : K (.clearSafeMode .daemon)
  startProcess : ∀ p rpc indexer config, (p = .daemon → a.isRestart = true) →
    K (.startProcess p rpc indexer config)

section
variable {env : Env} {K : Act → Prop}

theorem work_command {a : Activity} (h : a.Allows env K) (network : String) (c : Command)
    (hinsert : ∀ newTx, c.Requests newTx → ∀ row, IsNewRow env newTx row → K (.insert row))
    (hmark : c.broadcasts = true → ∀ id txid fee now, K (.update (.broadcast id txid fee now)))
    (hindexer : c.broadcasts = true → ∀ tx, K (.indexerBroadcast tx))
    (hrpc : c.broadcasts = true → ∀ tx, K (.rpcBroadcast tx)) :
    IsWork K (c.prog env network) := by
  cases c with
  | importTxs txs =>
    refine Prog.uses_forEach txs fun newTx hnewTx => ?_
    refine Prog.uses_bind (work_importTransaction env newTx (hinsert newTx hnewTx)) fun tx => ?_
    split
    · exact Prog.uses_bind (work_scheduleTransaction env .cli fun _ _ _ => h.update _ rfl rfl)
        fun _ => Prog.uses_ret _
    · exact Prog.uses_ret _
  | broadcast id =>
    exact Prog.uses_bind (work_broadcastSingle env (hindexer rfl) (hrpc rfl) (hmark rfl id))
      fun _ => Prog.uses_ret _
  | broadcastAll =>
    exact work_broadcastAllPending env network (hindexer rfl) (hrpc rfl) (hmark rfl)
  | schedule id minDelay maxDelay minFee maxFee =>
    exact Prog.uses_bind (work_scheduleTransaction env .cli fun _ _ _ => h.update _ rfl rfl)
      fun _ => Prog.uses_ret _
  | scheduleAll => exact work_scheduleAllPending env .cli fun _ _ _ _ => h.update _ rfl rfl
  | remove id => exact work_removeTransaction env .cli (h.delete id)
  | display => exact Prog.uses_ret _

/-- A piece of work that is neither the tick nor `broadcast_now`. -/
theorem work_activity (a : Activity) (h : a.Allows env K) (hloop : a ≠ .broadcastLoop)
    (hnow : ∀ id, a ≠ .broadcastNow id) : IsWork K (a.prog env) := by
  cases a with
  | broadcastLoop => exact absurd rfl hloop
  | blockHeightMonitor =>
    exact work_blockHeightMonitorPass env .daemon fun _ _ => h.update _ rfl rfl
  | priceMonitor prices => exact work_checkPriceTriggers env .daemon fun _ _ => h.update _ rfl rfl
  | rebroadcastLoop =>
    refine Prog.uses_bind (work_basic rfl) fun health => ?_
    split
    · exact work_rebroadcastPending env .daemon (h.indexerBroadcast rfl) (h.rpcBroadcast rfl)
        fun _ _ => h.update _ rfl rfl
    · exact Prog.uses_ret _
  | confirmationChecker =>
    refine Prog.uses_bind (work_basic rfl) fun health => ?_
    split
    · exact work_checkConfirmations env .daemon fun _ _ _ => h.update _ rfl rfl
    · exact Prog.uses_ret _
  | retention key => exact work_retentionPass env .daemon key (h.archive rfl)
  | chainHealthPoll => exact (clock_refreshChainHealth .daemon).work
  | importTx newTx =>
    exact Prog.uses_bind (work_importTransaction env newTx (h.insert newTx rfl))
      fun _ => Prog.uses_ret _
  | scheduleAt id time fee =>
    exact Prog.uses_bind (work_scheduleAt env .daemon fun _ _ _ _ => h.update _ rfl rfl)
      fun _ => Prog.uses_ret _
  | scheduleByPrice id target currency condition fee =>
    exact Prog.uses_bind (work_scheduleByPrice env .daemon fun _ _ _ => h.update _ rfl rfl)
      fun _ => Prog.uses_ret _
  | scheduleTransaction id minDelay maxDelay minFee maxFee fixedFee =>
    exact Prog.uses_bind (work_scheduleTransaction env .daemon fun _ _ _ => h.update _ rfl rfl)
      fun _ => Prog.uses_ret _
  | retry id =>
    exact Prog.uses_bind (work_retryFailedTransaction env .daemon fun _ => h.update _ rfl rfl)
      fun _ => Prog.uses_ret _
  | broadcastNow id => exact absurd rfl (hnow id)
  | remove id => exact work_removeTransaction env .daemon (h.delete id)
  | acknowledge => exact work_act h.clearSafeMode
  | archiveFlush key => exact work_archiveFlush env .daemon key (h.archive rfl)
  | saveConfig request => exact work_saveConfig .daemon request
  | preAck txHex => exact work_preAckStore env .daemon txHex (h.storePending rfl .daemon)
  | ingest txHex source =>
    exact work_ingestTask env .daemon (fun newTx => h.insert newTx trivial)
      (h.storePending rfl .daemon) (h.mergePending rfl)
      fun _ _ => h.update _ rfl rfl
  | restart rpc indexer config =>
    exact work_startUp env .daemon (h.startProcess _ _ _ _ fun _ => rfl)
      (h.encrypt rfl) (h.storePending rfl) (h.mergePending rfl) fun _ _ => h.update _ rfl rfl
  | command rpc indexer config c =>
    refine Prog.uses_bind (work_startUp env .cli (h.startProcess _ _ _ _ fun hp => by cases hp)
      (h.encrypt rfl) (h.storePending rfl) (h.mergePending rfl) fun _ _ => h.update _ rfl rfl)
      fun _ => ?_
    exact work_command h config.network c h.insert (fun hc => h.mark hc)
      (fun hc => h.indexerBroadcast hc)
      fun hc => h.rpcBroadcast hc

/-- Every piece of work, if `K` allows the reads and raises of the flag and every `UPDATE`. -/
theorem work_everyActivity (a : Activity) (h : a.Allows env K) (hread : K (.isSafeMode .daemon))
    (henter : ∀ id, K (.enterSafeMode .daemon id)) (hu : ∀ u, K (.update u)) :
    IsWork K (a.prog env) := by
  by_cases hloop : a = .broadcastLoop
  · subst hloop
    exact work_broadcastLoopPass env .daemon hread henter (h.indexerBroadcast rfl)
      (h.rpcBroadcast rfl) hu
  · by_cases hnow : ∃ id, a = .broadcastNow id
    · obtain ⟨id, rfl⟩ := hnow
      exact Prog.uses_bind (work_broadcastNow env .daemon hread henter (h.indexerBroadcast rfl)
        (h.rpcBroadcast rfl) fun _ _ _ _ => hu _) fun _ => Prog.uses_ret _
    · exact work_activity a h hloop fun id hid => hnow ⟨id, hid⟩

/-- An operation on the table. -/
theorem work_tableOp (hinsert : ∀ newTx row, IsNewRow env newTx row → K (.insert row))
    (hu : ∀ u, K (.update u))
    (hindexer : ∀ tx, K (.indexerBroadcast tx)) (hrpc : ∀ tx, K (.rpcBroadcast tx))
    (op : TableOp) : IsWork K (op.prog env) := by
  cases op with
  | insert tx =>
    exact Prog.uses_bind (work_importTransaction env tx (hinsert tx)) fun _ => Prog.uses_ret _
  | scheduleAt p id time fee =>
    exact Prog.uses_bind (work_scheduleAt env p fun _ _ _ _ => hu _) fun _ => Prog.uses_ret _
  | scheduleByPrice p id target currency condition fee =>
    exact Prog.uses_bind (work_scheduleByPrice env p fun _ _ _ => hu _)
      fun _ => Prog.uses_ret _
  | scheduleTransaction p id minDelay maxDelay minFee maxFee fixedFee =>
    exact Prog.uses_bind (work_scheduleTransaction env p fun _ _ _ => hu _)
      fun _ => Prog.uses_ret _
  | scheduleAllPending p network => exact work_scheduleAllPending env p fun _ _ _ _ => hu _
  | markDue id => exact work_clocked env _ fun _ => hu _
  | markDueFromPriceTrigger id => exact work_clocked env _ fun _ => hu _
  | markDueWithSchedule id time => exact work_clocked env _ fun _ => hu _
  | markBroadcast id txid fee => exact work_clocked env _ fun _ => hu _
  | markConfirmed id height =>
    refine Prog.uses_bind (clock_nowText env).work fun now => ?_
    exact Prog.uses_bind (uses_ensure _ _) fun _ => work_updateAndReseal _ (hu _)
  | updateTxStatus id status error => exact work_clocked env _ fun _ => hu _
  | resetFailedToScheduled id => exact work_resetFailedToScheduled env fun _ => hu _
  | recordBroadcastMiss id missedAt original =>
    refine Prog.uses_bind (clock_nowText env).work fun now => ?_
    exact Prog.uses_bind (uses_orFail _ (work_act (hu _))) fun _ => Prog.uses_ret _
  | rebroadcastPending p =>
    exact work_rebroadcastPending env p hindexer hrpc fun _ _ => hu _
  | restart => exact work_openDatabase env fun _ _ _ _ => hu _

end

end BroadcastPool
