import BroadcastPool.Lib.Ledger
import BroadcastPool.Proofs.Mempool.Waiting
import BroadcastPool.Proofs.Work
import BroadcastPool.Sample

/-!
# `BroadcastPool.Proofs.Mempool.Obligations`: what a running program owes the virtual mempool

A program that has stored a txid before its row is in the table, or has taken a row out of the
waiting ones before the txid is out of the virtual mempool, owes the rest. `Ledger` keeps the
books: it is computed from the answers that the program has had. `settles_activity` and
`settles_walletBroadcast` say that every program pays on every path, if the answers between the
two writes are good (`isServed`).

A command line has a virtual mempool of its own and owes nothing.
-/

set_option autoImplicit false

namespace BroadcastPool

open Effects

/-- A decoded nLockTime is an unsigned 32-bit number. -/
def Env.DecodesLockTimes (env : Env) : Prop :=
  ∀ raw tx rest, env.consensusDecode raw = some (tx, rest) → tx.lockTime < 2 ^ 32

theorem lockTime_lt {env : Env} (hdecode : env.DecodesLockTimes) {txHex : String}
    {tx : Transaction} (h : decodeTx env txHex = .ok tx) : tx.lockTime < 2 ^ 32 := by
  unfold decodeTx at h
  split at h
  · cases h
  · split at h
    · cases h
    · rename_i hraw
      cases h
      exact hdecode _ _ _ hraw

theorem sealOpens_sampleEnv : sampleEnv.SealOpens := fun _ _ _ => rfl

/-- So is one that the concrete world decodes. -/
theorem decodesLockTimes_of_sample {env : Env}
    (h : env.consensusDecode = sampleEnv.consensusDecode) : env.DecodesLockTimes := by
  intro raw tx rest hraw
  rw [h] at hraw
  cases raw with
  | nil => cases hraw
  | cons b bs =>
    cases hraw
    exact Nat.two_pow_pos 32

/-- The txid that `remove_transaction` takes out of the virtual mempool. -/
def removalTxid (env : Env) (tx : BroadcastTx) : Option String :=
  tx.txid.or (computeTxid env tx.txHex).toOption

/-- What matters of the answers that a program has had. -/
structure Ledger where
  /-- The program is a command line. -/
  cli : Bool := false
  /-- The program has inserted a row. -/
  inserted : Bool := false
  /-- The first row that the last query returned. -/
  read : Option BroadcastTx := none
  owed : List String := []

/-- The ledger after one more answer. -/
def Ledger.note (env : Env) (network : String) (l : Ledger) : Seen Act Act.Res → Ledger
  | ⟨.startProcess .cli _ _ _, _⟩ => { l with cli := true }
  | ⟨.select _, .ok txs⟩ => { l with read := txs.head? }
  | ⟨.storePending .daemon txid _, _⟩ =>
      if l.cli || l.inserted then l else { l with owed := txid :: l.owed }
  | ⟨.insert row, .ok _⟩ =>
      { l with
        inserted := true
        owed := l.owed.filter fun t => !decide (row.WaitsAs env network t) }
  | ⟨.update (.broadcast _ txid _ _), .ok n⟩ =>
      if l.cli || n = 0 then l else { l with owed := txid :: l.owed }
  | ⟨.delete _, .ok n⟩ =>
      if l.cli || n = 0 then l
      else { l with owed := (l.read.bind (removalTxid env)).toList ++ l.owed }
  | ⟨.removePending .daemon txid, _⟩ => { l with owed := l.owed.filter fun t => t ≠ txid }
  | _ => l

/-- The ledger of a program. -/
def ledgerOf (env : Env) (network : String) (seen : List (Seen Act Act.Res)) : Ledger :=
  seen.foldl (Ledger.note env network) {}

@[simp] theorem ledgerOf_append (env : Env) (network : String) (seen : List (Seen Act Act.Res))
    (s : Seen Act Act.Res) :
    ledgerOf env network (seen ++ [s]) = (ledgerOf env network seen).note env network s := by
  simp [ledgerOf]

/-- The program owes the txid. -/
def Owes (env : Env) (network : String) (seen : List (Seen Act Act.Res)) (t : String) : Prop :=
  t ∈ (ledgerOf env network seen).owed

/-- The answers that a program with an open obligation counts on: the configuration can be read,
its delays are small enough for `Duration::hours`, and the database refuses no new row and no
`reseal_row_mac`. -/
def isServed (network : String) : Seen Act Act.Res → Bool
  | ⟨.lockConfig .daemon, .ok config⟩ =>
      config.network = network &&
        max config.schedule.maxDelayHours config.schedule.minDelayHours ≤ 2562047788015
  | ⟨.lockConfig .daemon, .error _⟩ => false
  | ⟨.advanceVirtualBlock .daemon, .ok target⟩ => target.all fun height => height < 2 ^ 63
  | ⟨.advanceVirtualBlock .daemon, .error _⟩ => false
  | ⟨.insert _, .error _⟩ | ⟨.reseal _, .error _⟩ => false
  | _ => true

theorem isServed_lockConfig {network : String} {r : Except String Config}
    (h : isServed network ⟨.lockConfig .daemon, r⟩ = true) :
    ∃ config, r = .ok config ∧ config.network = network ∧
      max config.schedule.maxDelayHours config.schedule.minDelayHours ≤ 2562047788015 := by
  cases r with
  | error e => cases h
  | ok config =>
    simp only [isServed, Bool.and_eq_true, decide_eq_true_eq] at h
    exact ⟨config, rfl, h⟩

theorem isServed_advanceVirtualBlock {network : String} {r : Except String (Option Nat)}
    (h : isServed network ⟨.advanceVirtualBlock .daemon, r⟩ = true) :
    ∃ target, r = .ok target ∧ ∀ height, target = some height → height < 2 ^ 63 := by
  cases r with
  | error e => cases h
  | ok target =>
    refine ⟨target, rfl, ?_⟩
    rintro height rfl
    exact of_decide_eq_true h

/-- The answers a program can get. -/
def ledgerAnswers (env : Env) (network : String) (seen : List (Seen Act Act.Res)) (a : Act)
    (r : a.Res) : Prop :=
  (ledgerOf env network seen).owed ≠ [] → isServed network ⟨a, r⟩ = true

abbrev ledgerContract (env : Env) (network : String) :
    Contract Act Act.Res (List (Seen Act Act.Res)) :=
  seenContract (ledgerAnswers env network)

/-- The program owes nothing. -/
def NothingOwed (env : Env) (network : String) (seen : List (Seen Act Act.Res)) : Prop :=
  (ledgerOf env network seen).owed = []

/-- The action opens an obligation. -/
def Act.incurs : Act → Bool
  | storePending .daemon _ _ | update (.broadcast ..) | delete _ => true
  | _ => false

section
variable {α : Type} {env : Env} {network : String}

theorem Ledger.note_owed {l : Ledger} {a : Act} (h : a.incurs = false) (r : a.Res)
    (hl : l.owed = []) : (l.note env network ⟨a, r⟩).owed = [] := by
  unfold Ledger.note
  split <;> rename_i heq
  all_goals
    first
      | exact hl
      | (obtain ⟨ha, hr⟩ := Sigma.mk.inj heq
         subst ha
         first
           | (show List.filter _ l.owed = []; rw [hl]; rfl)
           | cases h)

theorem incurs_of_isBasic {a : Act} (h : a.isBasic = true) : a.incurs = false := by
  cases a <;> first | rfl | cases h

theorem keeps_owed_uses {p : M α} {P : Act → Prop} (hp : p.Uses P)
    (h : ∀ a, P a → a.incurs = false) :
    p.Keeps (ledgerContract env network) (NothingOwed env network) := by
  refine Prog.keeps_of_uses (fun a ha seen hseen _ => ⟨trivial, ?_⟩) hp
  rintro r seen' ⟨-, rfl⟩
  unfold NothingOwed
  rw [ledgerOf_append]
  exact Ledger.note_owed (h a ha) r hseen

/-- Work that opens no obligation. -/
theorem keeps_owed {p : M α} (hp : IsWork (fun a => a.incurs = false) p) :
    p.Keeps (ledgerContract env network) (NothingOwed env network) := by
  refine keeps_owed_uses hp fun a ha => ?_
  rcases ha with ha | ha
  · exact incurs_of_isBasic ha
  · exact ha

theorem keeps_owed_act {a : Act} (h : a.incurs = false) :
    (perform a).Keeps (ledgerContract env network) (NothingOwed env network) :=
  keeps_owed (work_act h)

theorem ledgerOf_reseal (seen : List (Seen Act Act.Res)) (id : String)
    (r : Except String Unit) :
    ledgerOf env network (seen ++ [⟨.reseal id, r⟩]) = ledgerOf env network seen := by
  rw [ledgerOf_append]
  rfl

/-- `Database::mark_broadcast` opens an obligation for its txid at most. If it fails, it opens
none: the row is sealed once it is written. -/
theorem wp_dbMarkBroadcast (id txid : String) (feeRate : F64) (seen : List (Seen Act Act.Res))
    (h : NothingOwed env network seen) :
    (dbMarkBroadcast env id txid feeRate).wp (ledgerContract env network)
      (fun o seen' => match o with
        | .ok _ => ∀ t, Owes env network seen' t → t = txid
        | .error _ => NothingOwed env network seen') seen := by
  unfold dbMarkBroadcast
  refine (Prog.wp_bind _ _ _ _).2 (Prog.wp_mono ?_ _ seen
    (keeps_owed (clock_nowText env).work seen h))
  intro o seen₁ h₁
  cases o with
  | error e => exact h₁
  | ok now =>
    refine (Prog.wp_bind _ _ _ _).2 ((wp_orFail _ _ _ _).2 (Prog.wp_perform_seen _ _ _
      fun r hr => ?_))
    -- The status is written: the row waits no more, and its txid alone is owed.
    have hledger : (ledgerOf env network (seen₁ ++
        [⟨.update (.broadcast id txid feeRate now), r⟩])).owed ⊆ [txid] := by
      rw [ledgerOf_append]
      cases r with
      | error e => simp [Ledger.note, show (ledgerOf env network seen₁).owed = [] from h₁]
      | ok n =>
        simp only [Ledger.note]
        split
        · simp [show (ledgerOf env network seen₁).owed = [] from h₁]
        · simp [show (ledgerOf env network seen₁).owed = [] from h₁]
    cases r with
    | error e =>
      show NothingOwed env network _
      unfold NothingOwed
      rw [ledgerOf_append]
      exact h₁
    | ok n =>
      refine (wp_orFail _ _ _ _).2 (Prog.wp_perform_seen _ _ _ fun r hr => ?_)
      cases r with
      | ok u =>
        intro t ht
        unfold Owes at ht
        rw [ledgerOf_reseal] at ht
        exact List.mem_singleton.1 (hledger ht)
      | error e =>
        show NothingOwed env network _
        unfold NothingOwed
        rw [ledgerOf_reseal]
        -- A reseal that fails would leave the txid owed. While one is, the contract excludes it.
        by_contra hnot
        cases hr hnot

/-- `mark_broadcast` pays. -/
theorem keeps_owed_markBroadcast (id txid : String) (feeRate : F64) :
    (markBroadcast env .daemon id txid feeRate).Keeps (ledgerContract env network)
      (NothingOwed env network) := by
  intro seen h
  refine (Prog.wp_bind _ _ _ _).2 (Prog.wp_mono ?_ _ seen
    (wp_dbMarkBroadcast id txid feeRate seen h))
  intro o seen₁ h₁
  cases o with
  | error e => exact h₁
  | ok u =>
    refine (Prog.wp_bind _ _ _ _).2 (Prog.wp_perform_seen _ _ _ fun r _ => ?_)
    simp only [Prog.pure_eq_ret, Prog.wp_ret]
    unfold NothingOwed
    rw [ledgerOf_append]
    refine List.filter_eq_nil_iff.2 fun t ht => ?_
    simpa using h₁ t ht

/-- `get_broadcast_tx_by_id` returns the row that the ledger notes. -/
theorem wp_owed_getBroadcastTxById (id : String) (seen : List (Seen Act Act.Res))
    (h : NothingOwed env network seen) :
    (getBroadcastTxById id).wp (ledgerContract env network)
      (fun o seen' => NothingOwed env network seen' ∧
        ∀ tx, o = .ok tx → (ledgerOf env network seen').read = some tx) seen := by
  refine (Prog.wp_bind _ _ _ _).2 ((wp_orFail _ _ _ _).2 (Prog.wp_perform_seen _ _ _
    fun r _ => ?_))
  have hnothing : NothingOwed env network (seen ++ [⟨.select (.byId id), r⟩]) := by
    unfold NothingOwed
    rw [ledgerOf_append]
    exact Ledger.note_owed rfl r h
  rcases r with e | (_ | ⟨tx, txs⟩)
  · exact ⟨hnothing, fun tx htx => by cases htx⟩
  · simp only [bail, Prog.wp_fail]
    exact ⟨hnothing, fun tx htx => by cases htx⟩
  · simp only [Prog.pure_eq_ret, Prog.wp_ret]
    refine ⟨hnothing, fun tx' htx => ?_⟩
    cases htx
    rw [ledgerOf_append]
    rfl

/-- `remove_transaction` takes the txid of the row it has read out of the map. -/
theorem keeps_owed_removeTransaction (id : String) :
    (removeTransaction env .daemon id).Keeps (ledgerContract env network)
      (NothingOwed env network) := by
  intro seen h
  refine (Prog.wp_bind _ _ _ _).2 (Prog.wp_mono ?_ _ seen (wp_owed_getBroadcastTxById id seen h))
  rintro o seen₁ ⟨h₁, hread⟩
  cases o with
  | error e => exact h₁
  | ok tx =>
    have hnil : (ledgerOf env network seen₁).owed = [] := h₁
    refine (Prog.wp_bind _ _ _ _).2 ((wp_orFail _ _ _ _).2 (Prog.wp_perform_seen _ _ _
      fun r _ => ?_))
    cases r with
    | error e =>
      show NothingOwed env network _
      unfold NothingOwed
      rw [ledgerOf_append]
      exact hnil
    | ok n =>
      refine (Prog.wp_bind _ _ _ _).2 ((Prog.wp_ensure _ _ _ _).2 ⟨fun hn => ?_, fun hn => ?_⟩)
      · -- Deleted: what is owed is at most the txid of the row that was read, and that one is taken
        -- out.
        have howed : (ledgerOf env network (seen₁ ++ [⟨.delete id, .ok n⟩])).owed ⊆
            (removalTxid env tx).toList := by
          rw [ledgerOf_append]
          simp only [Ledger.note]
          split
          · simp [hnil]
          · simp [hnil, hread tx rfl]
        rw [show tx.txid.or (computeTxid env tx.txHex).toOption = removalTxid env tx from rfl]
        cases htxid : removalTxid env tx with
        | none =>
          rw [htxid] at howed
          simp only [Prog.pure_eq_ret, Prog.wp_ret]
          exact List.subset_nil.1 howed
        | some txid =>
          rw [htxid] at howed
          refine (Prog.wp_bind _ _ _ _).2 (Prog.wp_perform_seen _ _ _ fun r _ => ?_)
          simp only [Prog.pure_eq_ret, Prog.wp_ret]
          unfold NothingOwed
          rw [ledgerOf_append]
          refine List.filter_eq_nil_iff.2 fun t ht => ?_
          simpa using howed ht
      · -- No row was deleted, so nothing is owed.
        have hzero : n = 0 := not_not.1 hn
        unfold NothingOwed
        rw [ledgerOf_append, hzero]
        simpa [Ledger.note] using hnil

/-! ### The scheduler and the requests -/

theorem keeps_owed_broadcastIfFinal (tx : BroadcastTx) (now : DateTime) :
    (broadcastIfFinal env .daemon tx now).Keeps (ledgerContract env network)
      (NothingOwed env network) := by
  refine Prog.keeps_bind (keeps_owed (clock_locktimeOrRefuse .daemon _).work) fun ok => ?_
  show Prog.Keeps _ _ (if _ then _ else _)
  split
  · refine Prog.keeps_bind (keeps_catchErr
      (keeps_owed (work_broadcastTransaction .daemon rfl rfl))) fun verdict => ?_
    cases verdict with
    | ok txid => exact keeps_owed_markBroadcast _ _ _
    | error e =>
      show Prog.Keeps _ _ (if _ then _ else _)
      split
      · exact Prog.keeps_ret _
      · exact keeps_owed (work_clocked env _ fun _ => rfl)
  · exact keeps_owed (work_recordMiss env .daemon tx now fun _ _ _ => rfl)

theorem keeps_owed_broadcastDueLoop (now : DateTime) (txs : List BroadcastTx) :
    (broadcastDueLoop env .daemon now txs).Keeps (ledgerContract env network)
      (NothingOwed env network) := by
  induction txs with
  | nil => exact Prog.keeps_ret _
  | cons tx txs ih =>
    refine Prog.keeps_bind (keeps_owed_act rfl) fun halted => ?_
    split
    · exact Prog.keeps_ret _
    · split
      · exact keeps_owed_act rfl
      · exact Prog.keeps_bind (keeps_owed_broadcastIfFinal tx now) fun _ => ih

theorem keeps_owed_markPendingLoop (txs : List BroadcastTx) :
    (markPendingLoop env .daemon txs).Keeps (ledgerContract env network)
      (NothingOwed env network) := by
  induction txs with
  | nil => exact Prog.keeps_ret _
  | cons tx txs ih =>
    refine Prog.keeps_bind (keeps_owed_act rfl) fun halted => ?_
    split
    · exact Prog.keeps_ret _
    · split
      · exact keeps_owed_act rfl
      · exact Prog.keeps_bind (keeps_logErrorIf _ (keeps_owed (work_clocked env _ fun _ => rfl)))
          fun _ => ih

/-- One pass of the broadcast loop. -/
theorem keeps_owed_broadcastLoopPass :
    (broadcastLoopPass env .daemon).Keeps (ledgerContract env network)
      (NothingOwed env network) := by
  have hdue : (broadcastDueTransactions env .daemon).Keeps (ledgerContract env network)
      (NothingOwed env network) := by
    refine Prog.keeps_bind (keeps_owed_act rfl) fun halted => ?_
    split
    · exact Prog.keeps_ret _
    · refine Prog.keeps_bind (keeps_owed (clock_configNetwork .daemon).work) fun _ => ?_
      refine Prog.keeps_bind (keeps_owed_act rfl) fun now => ?_
      refine Prog.keeps_bind (keeps_owed (quiet_select _ _).work) fun candidates => ?_
      refine Prog.keeps_bind (keeps_owed (clock_dueTxs .daemon now candidates).work) fun due => ?_
      exact keeps_owed_broadcastDueLoop now due
  refine Prog.keeps_bind (keeps_owed_act rfl) fun halted => ?_
  split
  · exact Prog.keeps_ret _
  refine Prog.keeps_bind (keeps_owed_act rfl) fun halted => ?_
  split
  · exact Prog.keeps_ret _
  refine Prog.keeps_bind (keeps_owed_act rfl) fun health => ?_
  refine Prog.keeps_bind (keeps_ensure _ _) fun _ => ?_
  refine Prog.keeps_bind (keeps_owed (clock_configNetwork .daemon).work) fun network => ?_
  refine Prog.keeps_bind (keeps_owed (quiet_getPendingByScheduledTime network).work)
    fun pending => ?_
  refine Prog.keeps_bind (keeps_owed_markPendingLoop pending) fun _ => ?_
  exact Prog.keeps_bind (keeps_catchErr (keeps_owed
    (work_requeueRetriableFailures env .daemon fun _ _ => rfl))) fun _ => hdue

theorem keeps_owed_broadcastNow (id : String) :
    (broadcastNow env .daemon id).Keeps (ledgerContract env network)
      (NothingOwed env network) := by
  refine Prog.keeps_bind (keeps_owed_act rfl) fun halted => ?_
  refine Prog.keeps_bind (keeps_ensure _ _) fun _ => ?_
  refine Prog.keeps_bind (keeps_owed (quiet_getBroadcastTxById id).work) fun tx => ?_
  split
  · exact Prog.keeps_bind (keeps_owed_act rfl) fun _ => Prog.keeps_fail _
  refine Prog.keeps_bind ?_ fun _ => ?_
  · unfold refuseEmitted
    split
    · exact Prog.keeps_fail _
    · exact Prog.keeps_fail _
    · exact Prog.keeps_ret _
  refine Prog.keeps_bind (keeps_owed (clock_locktimeOrRefuse .daemon _).work) fun ok => ?_
  split
  · refine Prog.keeps_bind (keeps_owed (work_broadcastTransaction .daemon rfl rfl))
      fun txid => ?_
    exact Prog.keeps_bind (keeps_owed_markBroadcast _ _ _) fun _ => Prog.keeps_ret _
  · exact keeps_owed (clock_refuseNonFinal .daemon _).work

/-- A command line notes no obligation, whatever it does. -/
theorem keeps_owed_cli (p : M α) :
    p.Keeps (ledgerContract env network) fun seen =>
      (ledgerOf env network seen).cli = true ∧ NothingOwed env network seen := by
  refine Prog.keeps_all (fun a seen hseen _ => ⟨trivial, ?_⟩) p
  rintro r seen' ⟨-, rfl⟩
  obtain ⟨hcli, howed⟩ := hseen
  unfold NothingOwed at howed ⊢
  rw [ledgerOf_append]
  unfold Ledger.note
  split <;> simp [hcli, howed]

theorem keeps_owed_command (rpc indexer : Bool) (config : Config) (c : Command)
    (seen : List (Seen Act Act.Res)) (h : NothingOwed env network seen) :
    ((Activity.command rpc indexer config c).prog env).wp (ledgerContract env network)
      (fun _ => NothingOwed env network) seen := by
  refine (Prog.wp_bind _ _ _ _).2 ((Prog.wp_bind _ _ _ _).2 (Prog.wp_perform_seen _ _ _
    fun r _ => ?_))
  refine Prog.wp_mono ?_ _ _ (keeps_owed_cli _ _ ⟨?_, ?_⟩)
  · intro o seen' ho
    cases o with
    | error e => exact ho.2
    | ok u => exact Prog.wp_mono (fun _ _ h => h.2) _ _ (keeps_owed_cli _ _ ho)
  · rw [ledgerOf_append]
    rfl
  · unfold NothingOwed
    rw [ledgerOf_append]
    exact h

/-- Every piece of work pays what it owes. -/
theorem settles_activity (a : Activity) (ha : a.isPart = false) :
    (a.prog env).Settles (ledgerAnswers env network) (Owes env network) [] := by
  have hpays : ∀ {p : M Unit}, p.Keeps (ledgerContract env network) (NothingOwed env network) →
      p.Settles (ledgerAnswers env network) (Owes env network) [] := by
    intro p hp
    refine Prog.wp_mono (fun o seen h x hx => ?_) p [] (hp [] rfl)
    unfold Owes at hx
    rw [show (ledgerOf env network seen).owed = [] from h] at hx
    cases hx
  cases a with
  | broadcastLoop => exact hpays keeps_owed_broadcastLoopPass
  | blockHeightMonitor =>
    exact hpays (keeps_owed (work_blockHeightMonitorPass env .daemon fun _ _ => rfl))
  | priceMonitor prices =>
    exact hpays (keeps_owed (work_checkPriceTriggers env .daemon fun _ _ => rfl))
  | rebroadcastLoop =>
    refine hpays (Prog.keeps_bind (keeps_owed_act rfl) fun health => ?_)
    split
    · exact keeps_owed (work_rebroadcastPending env .daemon (fun _ => rfl) (fun _ => rfl)
        fun _ _ => rfl)
    · exact Prog.keeps_ret _
  | confirmationChecker =>
    refine hpays (Prog.keeps_bind (keeps_owed_act rfl) fun health => ?_)
    split
    · exact keeps_owed (work_checkConfirmations env .daemon fun _ _ _ => rfl)
    · exact Prog.keeps_ret _
  | retention key => exact hpays (keeps_owed (work_retentionPass env .daemon key fun _ _ => rfl))
  | chainHealthPoll => exact hpays (keeps_owed (clock_refreshChainHealth .daemon).work)
  | importTx newTx =>
    exact hpays (Prog.keeps_bind (keeps_owed (work_importTransaction env newTx fun _ _ => rfl))
      fun _ => Prog.keeps_ret _)
  | scheduleAt id time fee =>
    exact hpays (Prog.keeps_bind (keeps_owed (work_scheduleAt env .daemon fun _ _ _ _ => rfl))
      fun _ => Prog.keeps_ret _)
  | scheduleByPrice id target currency condition fee =>
    exact hpays (Prog.keeps_bind (keeps_owed (work_scheduleByPrice env .daemon
      fun _ _ _ => rfl)) fun _ => Prog.keeps_ret _)
  | scheduleTransaction id minDelay maxDelay minFee maxFee fixedFee =>
    exact hpays (Prog.keeps_bind (keeps_owed (work_scheduleTransaction env .daemon
      fun _ _ _ => rfl)) fun _ => Prog.keeps_ret _)
  | retry id =>
    exact hpays (Prog.keeps_bind (keeps_owed (work_retryFailedTransaction env .daemon
      fun _ => rfl)) fun _ => Prog.keeps_ret _)
  | broadcastNow id =>
    exact hpays (Prog.keeps_bind (keeps_owed_broadcastNow id) fun _ => Prog.keeps_ret _)
  | remove id => exact hpays (keeps_owed_removeTransaction id)
  | acknowledge => exact hpays (keeps_owed_act rfl)
  | archiveFlush key =>
    exact hpays (keeps_owed (work_archiveFlush env .daemon key fun _ _ => rfl))
  | saveConfig request => exact hpays (keeps_owed (work_saveConfig .daemon request))
  | preAck | ingest | restart => cases ha
  | command rpc indexer config c =>
    refine Prog.wp_mono (fun o seen h x hx => ?_) _ [] (keeps_owed_command rpc indexer config c
      [] rfl)
    unfold Owes at hx
    rw [show (ledgerOf env network seen).owed = [] from h] at hx
    cases hx

/-! ### A wallet's broadcast -/

/-- The one open obligation of a broadcast whose row is not in the table yet. -/
def OwesOnly (env : Env) (network t : String) (seen : List (Seen Act Act.Res)) : Prop :=
  (ledgerOf env network seen).owed = [t]

/-- A broadcast whose row has been inserted. -/
def Paid (env : Env) (network : String) (seen : List (Seen Act Act.Res)) : Prop :=
  (ledgerOf env network seen).inserted = true ∧ NothingOwed env network seen

theorem Ledger.note_of_isClock {l : Ledger} {a : Act} (h : a.isClock = true) (r : a.Res) :
    l.note env network ⟨a, r⟩ = l := by
  cases a <;> first | rfl | cases h

/-- After the row is in the table, a second store opens nothing. -/
theorem keeps_paid {p : M α}
    (hp : IsWork (fun a => a.incurs = false ∨ ∃ txid info, a = .storePending .daemon txid info) p) :
    p.Keeps (ledgerContract env network) (Paid env network) := by
  refine Prog.keeps_of_uses (fun a ha seen hseen _ => ⟨trivial, ?_⟩) hp
  rintro r seen' ⟨-, rfl⟩
  obtain ⟨hinserted, howed⟩ := hseen
  have hkept : ((ledgerOf env network seen).note env network ⟨a, r⟩).inserted = true := by
    unfold Ledger.note
    repeat' split
    all_goals first | exact hinserted | rfl
  have hincurs : a.incurs = false ∨ ∃ txid info, a = .storePending .daemon txid info := by
    rcases ha with ha | ha
    · exact Or.inl (incurs_of_isBasic ha)
    · exact ha
  refine ⟨?_, ?_⟩
  · rw [ledgerOf_append]
    exact hkept
  · unfold NothingOwed
    rw [ledgerOf_append]
    rcases hincurs with hincurs | ⟨txid, info, rfl⟩
    · exact Ledger.note_owed hincurs r howed
    · simp only [Ledger.note, hinserted, Bool.or_true, if_true]
      exact howed

/-! The steps up to the insert. Each returns, because what it reads is served. -/

section Open
variable {t : String}

theorem owesOnly_clock {a : Act} (h : a.isClock = true) {P : a.Res → Prop}
    (hP : ∀ r, isServed network ⟨a, r⟩ = true → P r) :
    Prog.Returns (ledgerContract env network) (OwesOnly env network t) P
      (perform a : M a.Res) := by
  refine Prog.returns_perform fun seen hseen _ => ⟨trivial, ?_⟩
  rintro r seen' ⟨hr, rfl⟩
  have howed : (ledgerOf env network seen).owed = [t] := hseen
  refine ⟨?_, hP r (hr (howed ▸ List.cons_ne_nil _ _))⟩
  unfold OwesOnly
  rw [ledgerOf_append, Ledger.note_of_isClock h]
  exact howed

/-- The configuration can be read. -/
theorem owesOnly_lockConfig :
    Prog.Returns (ledgerContract env network) (OwesOnly env network t)
      (fun config => config.network = network ∧
        max config.schedule.maxDelayHours config.schedule.minDelayHours ≤ 2562047788015)
      (orRaise (perform (.lockConfig .daemon))) := by
  refine Prog.returns_bind (owesOnly_clock rfl fun r hr => isServed_lockConfig hr) fun r hr => ?_
  obtain ⟨config, rfl, hconfig⟩ := hr
  exact Prog.returns_ret hconfig

theorem owesOnly_durationHours {n : Nat} (hn : n ≤ 2562047788015) :
    Prog.Returns (ledgerContract env network) (OwesOnly env network t) (fun _ => True)
      (durationHours (asI64 n)) := by
  have hcast : asI64 n = (n : Int) := by
    unfold asI64
    rw [Nat.mod_eq_of_lt (by omega), if_pos (by omega)]
  unfold durationHours
  rw [hcast, if_pos (by omega)]
  exact Prog.returns_ret trivial

theorem owesOnly_resolveBroadcastPlan {config : Config}
    (hdelay : max config.schedule.maxDelayHours config.schedule.minDelayHours ≤ 2562047788015) :
    Prog.Returns (ledgerContract env network) (OwesOnly env network t) (fun _ => True)
      (resolveBroadcastPlan env config) := by
  unfold resolveBroadcastPlan
  split
  · exact Prog.returns_bind (owesOnly_clock (P := fun _ => True) rfl fun _ _ => trivial)
      fun _ _ => Prog.returns_ret trivial
  · split
    · exact Prog.returns_ret trivial
    · have hdraw : Prog.Returns (ledgerContract env network) (OwesOnly env network t)
          (fun n => n ≤ 2562047788015) (genRange config.schedule.minDelayHours
            (max config.schedule.maxDelayHours config.schedule.minDelayHours)) := by
        refine Prog.returns_bind (owesOnly_clock (P := fun _ => True) rfl fun _ _ => trivial)
          fun n _ => Prog.returns_ret ?_
        have hlt := Nat.mod_lt n (y := max config.schedule.maxDelayHours
          config.schedule.minDelayHours - config.schedule.minDelayHours + 1) (by omega)
        omega
      refine Prog.returns_bind hdraw fun delay hn => ?_
      refine Prog.returns_bind (owesOnly_clock (P := fun _ => True) rfl fun _ _ => trivial)
        fun now _ => ?_
      exact Prog.returns_bind (owesOnly_durationHours hn) fun _ _ => Prog.returns_ret trivial
  · exact Prog.returns_ret trivial
  · exact Prog.returns_ret trivial

theorem owesOnly_resolveIngestPlan {config : Config} (source : String) (nlocktime : Nat)
    (height : Option Nat)
    (hdelay : max config.schedule.maxDelayHours config.schedule.minDelayHours ≤ 2562047788015) :
    Prog.Returns (ledgerContract env network) (OwesOnly env network t) (fun _ => True)
      (resolveIngestPlan env source nlocktime config height) := by
  unfold resolveIngestPlan
  split
  · split <;> exact Prog.returns_ret trivial
  split
  · exact Prog.returns_ret trivial
  split
  · exact Prog.returns_ret trivial
  split
  · split
    · exact Prog.returns_bind (owesOnly_clock (P := fun _ => True) rfl fun _ _ => trivial)
        fun _ _ => Prog.returns_ret trivial
    · exact Prog.returns_ret trivial
  · exact owesOnly_resolveBroadcastPlan hdelay

/-- The height that a virtual block gives fits a column. -/
theorem owesOnly_captureVirtualBlock (mode : BroadcastMode) (source : String) :
    Prog.Returns (ledgerContract env network) (OwesOnly env network t)
      (fun target => ∀ height, target = some height → height < 2 ^ 63)
      (captureVirtualBlock .daemon mode source) := by
  unfold captureVirtualBlock
  split
  · refine Prog.returns_bind (P := fun r => ∃ target, r = .ok target ∧
      ∀ height, target = some height → height < 2 ^ 63) ?_ fun r hr => ?_
    · refine Prog.returns_perform fun seen hseen _ => ⟨trivial, ?_⟩
      rintro r seen' ⟨hr, rfl⟩
      have howed : (ledgerOf env network seen).owed = [t] := hseen
      refine ⟨?_, isServed_advanceVirtualBlock (hr (howed ▸ List.cons_ne_nil _ _))⟩
      unfold OwesOnly
      rw [ledgerOf_append]
      exact howed
    · obtain ⟨target, rfl, htarget⟩ := hr
      exact Prog.returns_ret htarget
  · refine Prog.returns_ret fun height h => ?_
    cases h

theorem owesOnly_nowText :
    Prog.Returns (ledgerContract env network) (OwesOnly env network t) (fun _ => True)
      (nowText env) :=
  Prog.returns_bind (owesOnly_clock (P := fun _ => True) rfl fun _ _ => trivial)
    fun _ _ => Prog.returns_ret trivial

theorem owesOnly_encode (plaintext aad : String) :
    Prog.Returns (ledgerContract env network) (OwesOnly env network t)
      (fun s => ∃ nonce, s = encodeField env nonce plaintext aad) (encode env plaintext aad) :=
  Prog.returns_bind (owesOnly_clock (P := fun _ => True) rfl fun _ _ => trivial)
    fun nonce _ => Prog.returns_ret ⟨nonce, rfl⟩

theorem owesOnly_encode? (plaintext : Option String) (aad : String) :
    Prog.Returns (ledgerContract env network) (OwesOnly env network t) (fun _ => True)
      (encode? env plaintext aad) := by
  cases plaintext with
  | none => exact Prog.returns_ret trivial
  | some s => exact Prog.returns_bind (owesOnly_encode s aad) fun _ _ => Prog.returns_ret trivial

/-- `insert_broadcast_tx` of a row that waits with the owed txid pays. -/
theorem wp_owesOnly_insertBroadcastTx (hseal : env.SealOpens) {tx : NewBroadcastTx}
    (hnetwork : tx.network = network) (htxid : computeTxid env tx.txHex = .ok t)
    (hlock : tx.nlocktime.getD 0 < 2 ^ 63) (seen : List (Seen Act Act.Res))
    (h : OwesOnly env network t seen) :
    (insertBroadcastTx env tx).wp (ledgerContract env network)
      (fun _ => Paid env network) seen := by
  refine Prog.Returns.wp_bind (owesOnly_clock (P := fun _ => True) rfl fun _ _ => trivial)
    (fun id _ seen₁ h₁ => ?_) h
  refine Prog.Returns.wp_bind owesOnly_nowText (fun now _ seen₂ h₂ => ?_) h₁
  refine Prog.Returns.wp_bind (owesOnly_encode _ _) (fun encTxHex henc seen₃ h₃ => ?_) h₂
  refine Prog.Returns.wp_bind (owesOnly_encode? _ _) (fun encDest _ seen₄ h₄ => ?_) h₃
  refine Prog.Returns.wp_bind (owesOnly_encode? _ _) (fun encSource _ seen₅ h₅ => ?_) h₄
  refine (Prog.wp_bind _ _ _ _).2 ((Prog.wp_ensure _ _ _ _).2 ⟨fun _ => ?_, fun hn => ?_⟩)
  · have howed : (ledgerOf env network seen₅).owed = [t] := h₅
    -- The stored text reads back as the request's, so the new row waits with the owed txid.
    have hrow : (newRow env tx id now encTxHex encDest encSource).WaitsAs env network t := by
      refine ⟨Or.inl rfl, hnetwork, ?_⟩
      obtain ⟨nonce, rfl⟩ := henc
      have hread := decOrRaw_encodeField hseal nonce tx.txHex id
      show (computeTxid env (decOrRaw env id (encodeField env nonce tx.txHex id))).toOption = _
      rw [hread, htxid]
      rfl
    refine (Prog.wp_bind _ _ _ _).2 ((wp_orFail _ _ _ _).2 (Prog.wp_perform_seen _ _ _
      fun r hr => ?_))
    have hserved := hr (howed ▸ List.cons_ne_nil _ _)
    obtain rfl : r = .ok () := by
      cases r with
      | error e => cases hserved
      | ok u => rfl
    refine keeps_paid (quiet_getBroadcastTxById id).work _ ⟨?_, ?_⟩
    · rw [ledgerOf_append]
      rfl
    · unfold NothingOwed
      rw [ledgerOf_append]
      simp only [Ledger.note, howed]
      simp [hrow]
  · exact absurd hlock hn

/-- `handle_broadcast` reaches its insert, and has paid however it ends. -/
theorem wp_owesOnly_handleBroadcast (hseal : env.SealOpens) (hdecode : env.DecodesLockTimes)
    {txHex : String} (source : String) (htxid : computeTxid env (Text.trim txHex) = .ok t)
    (seen : List (Seen Act Act.Res)) (h : OwesOnly env network t seen) :
    (handleBroadcast env .daemon txHex source).wp (ledgerContract env network)
      (fun _ => Paid env network) seen := by
  unfold handleBroadcast
  dsimp only
  split
  · rename_i e hdec
    rw [computeTxid, hdec] at htxid
    cases htxid
  rename_i tx hdec
  refine Prog.Returns.wp_bind (P := (· = network)) ?_ (fun name hname seen₁ h₁ => ?_) h
  · exact Prog.returns_bind owesOnly_lockConfig fun config hconfig => Prog.returns_ret hconfig.1
  refine Prog.Returns.wp_bind (owesOnly_clock (P := fun _ => True) rfl fun _ _ => trivial)
    (fun health _ seen₂ h₂ => ?_) h₁
  refine Prog.Returns.wp_bind owesOnly_lockConfig (fun config hconfig seen₃ h₃ => ?_) h₂
  refine Prog.Returns.wp_bind (owesOnly_resolveIngestPlan _ _ _ hconfig.2)
    (fun plan _ seen₄ h₄ => ?_) h₃
  refine Prog.Returns.wp_bind (owesOnly_captureVirtualBlock _ _)
    (fun target htarget seen₅ h₅ => ?_) h₄
  -- A lock time of the transaction has 32 bits, a captured target fits by the contract.
  have hlock : (ingestRequest (Text.trim txHex) name source tx plan target).nlocktime.getD 0 <
      2 ^ 63 := by
    have htx : tx.lockTime < 2 ^ 32 := lockTime_lt hdecode hdec
    cases target with
    | some height => exact htarget height rfl
    | none =>
      simp only [ingestRequest, Option.none_or]
      split
      · exact Nat.lt_trans htx (by decide)
      · exact Nat.two_pow_pos 63
  -- What follows the `INSERT` opens no obligation.
  have hrest : ∀ imported : BroadcastTx, (do
      storePendingOutputs env .daemon (env.electrumTxid tx) (Text.trim txHex)
      logErrorIf (plan.1 = .immediate) (markDue env imported.id)
      return env.electrumTxid tx : M String).Keeps (ledgerContract env network)
        (Paid env network) :=
    fun imported => keeps_paid (Prog.uses_bind (work_act (Or.inr ⟨_, _, rfl⟩)) fun _ =>
      Prog.uses_bind (uses_logErrorIf _ (work_clocked env _ fun _ => Or.inl rfl))
        fun _ => Prog.uses_ret _)
  have hinsert : ∀ request : NewBroadcastTx, request.network = network →
      computeTxid env request.txHex = .ok t → request.nlocktime.getD 0 < 2 ^ 63 →
      (importTransaction env request).wp (ledgerContract env network)
        (fun _ => Paid env network) seen₅ :=
    fun _ h₁ h₂ h₃ => wp_owesOnly_insertBroadcastTx hseal h₁ h₂ h₃ seen₅ h₅
  refine (Prog.wp_bind _ _ _ _).2 (Prog.wp_mono (fun o seen₆ h₆ => ?_) _ seen₅
    (hinsert _ hname htxid hlock))
  cases o with
  | error e => exact h₆
  | ok imported => exact hrest imported seen₆ h₆

end Open

/-- The work for a broadcast pays. -/
theorem settles_walletBroadcast (hseal : env.SealOpens) (hdecode : env.DecodesLockTimes)
    (txHex source : String) :
    (walletBroadcast env txHex source).Settles (ledgerAnswers env network)
      (Owes env network) [] := by
  have hpaid : ∀ {p : M Unit} {seen}, p.wp (ledgerContract env network)
      (fun _ => Paid env network) seen →
      p.Settles (ledgerAnswers env network) (Owes env network) seen := by
    intro p seen hp
    refine Prog.wp_mono (fun o seen' h x hx => ?_) p seen hp
    unfold Owes at hx
    rw [show (ledgerOf env network seen').owed = [] from h.2] at hx
    cases hx
  unfold walletBroadcast
  split
  · rename_i txid htxid
    refine hpaid ((Prog.wp_bind _ _ _ _).2 (Prog.wp_perform_seen _ _ _ fun r _ => ?_))
    -- The entry is stored before its row: the one obligation that stays open until the `INSERT`.
    have hopen : OwesOnly env network txid
        ([] ++ [⟨.storePending .daemon txid (outputsOnlyEntry env txHex), r⟩]) := by
      unfold OwesOnly
      rw [ledgerOf_append]
      rfl
    refine Prog.Returns.wp_bind (owesOnly_clock (P := fun _ => True) rfl fun _ _ => trivial)
      (fun start _ seen₁ h₁ => ?_) hopen
    refine (Prog.wp_bind _ _ _ _).2 ((Prog.wp_attempt _ _ _).2 (Prog.wp_mono ?_ _ seen₁
      (wp_owesOnly_handleBroadcast hseal hdecode source htxid seen₁ h₁)))
    intro outcome seen₂ h₂
    refine keeps_paid (Prog.uses_bind (work_basic rfl) fun finished => ?_) seen₂ h₂
    cases outcome with
    | ok txid =>
      show IsWork _ (if _ then _ else _)
      split
      · exact (lookup_enrichPendingInputScripthashes env .daemon txid _).work
          fun _ _ _ => Or.inl rfl
      · exact Prog.uses_ret _
    | error e => exact Prog.uses_ret _
  · refine Prog.keeps_ret (I := fun seen => ∀ x, ¬ Owes env network seen x) () [] fun x hx => ?_
    cases hx

end

end BroadcastPool
