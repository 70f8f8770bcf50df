import BroadcastPool.Proofs.Db.Frame
import BroadcastPool.Proofs.Work

/-!
# `BroadcastPool.Proofs.SparedRow`: the passes that do not list a row

A pass of the scheduler reads a list and then works on each row of it by its id. A row that no
list of the pass has is left alone, whatever is done to the others.

`SparesRow` says what this argument needs of an invariant: an action that spares the row keeps it
(`Act.Spares`), and a query shows of the row only what `shown` allows. Each pass has one lemma,
whose hypotheses are what its own queries must not show.
-/

set_option autoImplicit false

namespace BroadcastPool

open Effects

/-- The action starts no process. -/
def Act.NoStart (a : Act) : Prop := ∀ p rpc indexer config, a ≠ .startProcess p rpc indexer config

/-- The action neither touches nor hands over a row with the id, and it starts no process. -/
structure Act.Spares (x : String) (a : Act) : Prop where
  touches : a.touches x = false
  handsOver : ∀ tx, a.handsOver = some tx → tx.id ≠ x
  noStart : a.NoStart

section Actions
variable {x y : String} {α : Type} (env : Env) (p : Proc)

theorem noStart_of_work {a : Act} (h : a.Work Act.NoStart) : a.NoStart := by
  rcases h with h | h
  · rintro p rpc indexer config rfl
    cases h
  · exact h

theorem spares_isSafeMode (x : String) : Act.Spares x (.isSafeMode p) where
  touches := rfl
  handsOver tx h := by cases h
  noStart p rpc indexer config h := by cases h

theorem spares_enterSafeMode (x id : String) : Act.Spares x (.enterSafeMode p id) where
  touches := rfl
  handsOver tx h := by cases h
  noStart p rpc indexer config h := by cases h

/-- A part of the program that reads, or writes the memory of a process, spares every row. -/
theorem spares_lookup {prog : M α} (h : IsLookup prog) : prog.Uses (Act.Spares x) := by
  refine Prog.Uses.mono (fun a ha => ?_) h
  obtain ⟨hpool, -, hsend⟩ := no_write_of_isMemory (isMemory_of_isLookup ha)
  refine ⟨touches_of_no_write hpool x, fun tx htx => ?_, ?_⟩
  · rw [hsend] at htx
    cases htx
  · rintro p rpc indexer config rfl
    cases ha

/-- A part of the program that acts on another row spares this one. -/
theorem spares_other {prog : M α} (hy : y ≠ x) (hacts : ActsOn y prog)
    (hstart : IsWork Act.NoStart prog) : prog.Uses (Act.Spares x) := by
  refine Prog.Uses.mono (fun a ha => ?_) (Prog.Uses.and hacts hstart)
  refine ⟨ha.1.1 x hy.symm, fun tx htx => ?_, noStart_of_work ha.2⟩
  rw [ha.1.2 tx htx]
  exact hy

/-- A mutator of another row, whose only preparation is the clock. -/
theorem spares_clocked (context : String) {u : String → Update} (hy : y ≠ x)
    (hu : ∀ now, (u now).target = y) :
    (do
      let now ← nowText env
      updateAndReseal context (u now) : M Unit).Uses (Act.Spares x) :=
  spares_other hy (actsOn_clocked env context hu)
    (work_clocked env context fun _ _ _ _ _ h => by cases h)

theorem spares_broadcastTransaction {tx : BroadcastTx} (hid : tx.id ≠ x) :
    (broadcastTransaction p tx).Uses (Act.Spares x) :=
  spares_other hid (actsOn_broadcastTransaction p tx)
    (work_broadcastTransaction p (fun _ _ _ _ h => by cases h) fun _ _ _ _ h => by cases h)

theorem spares_broadcastIfFinal {tx : BroadcastTx} (hid : tx.id ≠ x) (now : DateTime) :
    (broadcastIfFinal env p tx now).Uses (Act.Spares x) :=
  spares_other hid (actsOn_broadcastIfFinal env p tx now)
    (work_broadcastIfFinal env p now (fun _ _ _ _ h => by cases h) (fun _ _ _ _ h => by cases h)
      (fun _ _ _ _ _ _ _ h => by cases h) (fun _ _ _ _ _ _ h => by cases h)
      fun _ _ _ _ _ _ _ h => by cases h)

theorem spares_resetFailedToScheduled (hy : y ≠ x) :
    (resetFailedToScheduled env y).Uses (Act.Spares x) :=
  spares_other hy (actsOn_resetFailedToScheduled env)
    (work_resetFailedToScheduled env fun _ _ _ _ _ h => by cases h)

/-- One row of `rebroadcast_pending`. -/
theorem spares_rebroadcastTx {tx : BroadcastTx} (hid : tx.id ≠ x) :
    (rebroadcastTx env p tx).Uses (Act.Spares x) := by
  refine Prog.uses_bind (uses_catchErr (spares_broadcastTransaction p hid)) fun verdict => ?_
  cases verdict with
  | error e => exact Prog.uses_ret _
  | ok txid =>
    refine Prog.uses_bind (spares_lookup (clock_nowText env).lookup) fun now => ?_
    refine Prog.uses_bind (uses_orFail _ (uses_act ⟨?_, ?_, ?_⟩)) fun _ => Prog.uses_ret _
    · exact decide_eq_false hid
    · intro tx' htx'
      cases htx'
    · rintro p rpc indexer config h
      cases h

/-- One row of `check_confirmations`. -/
theorem spares_checkConfirmation {tx : BroadcastTx} (hid : tx.id ≠ x) :
    (checkConfirmation env tx).Uses (Act.Spares x) := by
  unfold checkConfirmation
  split
  · exact Prog.uses_ret _
  · refine Prog.uses_bind (spares_lookup (uses_act rfl)) fun found => ?_
    split
    · refine Prog.uses_bind (spares_lookup (uses_act rfl)) fun height => ?_
      split
      · refine Prog.uses_bind (uses_catchErr ?_) fun _ => Prog.uses_ret _
        refine Prog.uses_bind (spares_lookup (clock_nowText env).lookup) fun now => ?_
        refine Prog.uses_bind (uses_ensure _ _) fun _ => ?_
        exact spares_other hid (actsOn_updateAndReseal _ rfl)
          (work_updateAndReseal _ fun _ _ _ _ h => by cases h)
      · exact Prog.uses_ret _
    · exact Prog.uses_ret _

end Actions

/-- An invariant that sparing actions keep, and of the rows with the id a query shows only what
`shown` allows. -/
structure SparesRow {S : Type} (c : Contract Act Act.Res S) (I : S → Prop) (x : String)
    (shown : Query → BroadcastTx → Prop) : Prop where
  keeps : ∀ {α : Type} {prog : M α}, prog.Uses (Act.Spares x) → prog.Keeps c I
  shows : ∀ context q, Prog.Gives c I (fun txs => ∀ tx ∈ txs, tx.id = x → shown q tx)
    (orFail context (perform (.select q)))

namespace SparesRow
variable {S : Type} {c : Contract Act Act.Res S} {I : S → Prop} {x : String}
  {shown : Query → BroadcastTx → Prop} {α : Type} (env : Env) (p : Proc)

theorem lookup (h : SparesRow c I x shown) {prog : M α} (hprog : IsLookup prog) :
    prog.Keeps c I := h.keeps (spares_lookup hprog)

/-- A list that does not show the row. -/
theorem others (h : SparesRow c I x shown) (context : String) {q : Query}
    (hq : ∀ tx, ¬ shown q tx) :
    Prog.Gives c I (fun txs => ∀ tx ∈ txs, tx.id ≠ x) (orFail context (perform (.select q))) :=
  (h.shows context q).mono fun _ htxs tx htx hid => hq tx (htxs tx htx hid)

theorem getPendingByScheduledTime (h : SparesRow c I x shown) {network : String}
    (hpending : ∀ tx, ¬ shown (.pendingByScheduledTime network) tx) :
    Prog.Gives c I (fun txs => ∀ tx ∈ txs, tx.id ≠ x)
      (BroadcastPool.getPendingByScheduledTime network) := by
  refine Prog.gives_bind (h.lookup (uses_act rfl)).gives fun now _ => ?_
  refine Prog.gives_bind (h.others _ hpending) fun txs htxs => Prog.gives_ret fun tx htx => ?_
  exact htxs tx (List.mem_filter.1 htx).1

theorem markPendingLoop (h : SparesRow c I x shown) (txs : List BroadcastTx)
    (htxs : ∀ tx ∈ txs, tx.id ≠ x) : (BroadcastPool.markPendingLoop env p txs).Keeps c I := by
  induction txs with
  | nil => exact Prog.keeps_ret _
  | cons tx txs ih =>
    refine Prog.keeps_bind (h.keeps (uses_act (spares_isSafeMode p x))) fun halted => ?_
    split
    · exact Prog.keeps_ret _
    · split
      · exact h.keeps (uses_act (spares_enterSafeMode p x tx.id))
      · refine Prog.keeps_bind (keeps_logErrorIf _ (h.keeps ?_)) fun _ => ?_
        · exact spares_clocked env _ (htxs tx (List.mem_cons_self ..)) fun _ => rfl
        · exact ih fun tx' htx' => htxs tx' (List.mem_cons_of_mem _ htx')

/-- The rows that are taken back are others. -/
theorem requeueRetriableFailures (h : SparesRow c I x shown)
    (hfailed : ∀ network tx, shown (.list (some "failed") network 1000) tx →
      isRequeued tx = false) : (BroadcastPool.requeueRetriableFailures env p).Keeps c I := by
  refine Prog.keeps_bind (h.lookup (clock_configNetwork p).lookup) fun network => ?_
  refine Prog.Gives.keeps_bind (h.shows _ _) fun failed hshows => ?_
  refine Prog.keeps_forEach failed fun tx htx => ?_
  unfold requeueFailure
  by_cases hid : tx.id = x
  · rw [hfailed network tx (hshows tx htx hid)]
    exact Prog.keeps_ret _
  · split
    · exact h.keeps (spares_resetFailedToScheduled env hid)
    · exact Prog.keeps_ret _

theorem broadcastDueLoop (h : SparesRow c I x shown) (now : DateTime) (txs : List BroadcastTx)
    (htxs : ∀ tx ∈ txs, tx.id ≠ x) :
    (BroadcastPool.broadcastDueLoop env p now txs).Keeps c I := by
  induction txs with
  | nil => exact Prog.keeps_ret _
  | cons tx txs ih =>
    refine Prog.keeps_bind (h.keeps (uses_act (spares_isSafeMode p x))) fun halted => ?_
    split
    · exact Prog.keeps_ret _
    · split
      · exact h.keeps (uses_act (spares_enterSafeMode p x tx.id))
      · refine Prog.keeps_bind
          (h.keeps (spares_broadcastIfFinal env p (htxs tx (List.mem_cons_self ..)) now))
          fun _ => ?_
        exact ih fun tx' htx' => htxs tx' (List.mem_cons_of_mem _ htx')

theorem broadcastDueTransactions (h : SparesRow c I x shown)
    (hdue : ∀ network tx, ¬ shown (.due network) tx) :
    (BroadcastPool.broadcastDueTransactions env p).Keeps c I := by
  refine Prog.keeps_bind (h.keeps (uses_act (spares_isSafeMode p x))) fun halted => ?_
  split
  · exact Prog.keeps_ret _
  · refine Prog.keeps_bind (h.lookup (clock_configNetwork p).lookup) fun network => ?_
    refine Prog.keeps_bind (h.lookup (uses_act rfl)) fun now => ?_
    refine Prog.Gives.keeps_bind (h.others _ (hdue network)) fun candidates hothers => ?_
    refine Prog.Gives.keeps_bind (gives_dueTxs p now candidates fun tx => ?_) fun due hmem => ?_
    · exact h.lookup (IsClock.lookup (uses_catchErr (clock_isTxDueForBroadcast p tx now)))
    · exact h.broadcastDueLoop env p now due fun tx htx => hothers tx (hmem tx htx)

/-- A tick leaves the row alone, if it is neither listed as pending nor as due, nor taken back. -/
theorem runSchedulerTick (h : SparesRow c I x shown)
    (hpending : ∀ network tx, ¬ shown (.pendingByScheduledTime network) tx)
    (hfailed : ∀ network tx, shown (.list (some "failed") network 1000) tx →
      isRequeued tx = false)
    (hdue : ∀ network tx, ¬ shown (.due network) tx) :
    (BroadcastPool.runSchedulerTick env p).Keeps c I := by
  refine Prog.keeps_bind (h.keeps (uses_act (spares_isSafeMode p x))) fun halted => ?_
  split
  · exact Prog.keeps_ret _
  · refine Prog.keeps_bind (h.lookup (uses_act rfl)) fun health => ?_
    refine Prog.keeps_bind (Prog.keeps_ensure _ _) fun _ => ?_
    refine Prog.keeps_bind (h.lookup (clock_configNetwork p).lookup) fun network => ?_
    refine Prog.Gives.keeps_bind (h.getPendingByScheduledTime (hpending network))
      fun pending hothers => ?_
    refine Prog.keeps_bind (h.markPendingLoop env p pending hothers) fun _ => ?_
    refine Prog.keeps_bind (keeps_catchErr (h.requeueRetriableFailures env p hfailed))
      fun _ => ?_
    exact h.broadcastDueTransactions env p hdue

theorem blockHeightMonitorPass (h : SparesRow c I x shown)
    (hheight : ∀ network tx, ¬ shown (.pendingByBlockHeight network) tx) :
    (BroadcastPool.blockHeightMonitorPass env p).Keeps c I := by
  refine Prog.keeps_bind (h.lookup (clock_configNetwork p).lookup) fun network => ?_
  refine Prog.keeps_bind (h.lookup (uses_act rfl)) fun health => ?_
  split
  · refine Prog.keeps_bind (h.lookup (clock_checkBlockHeight p).lookup) fun height => ?_
    cases height with
    | none => exact Prog.keeps_ret _
    | some height =>
      refine Prog.Gives.keeps_bind (h.others _ (hheight network)) fun txs hothers => ?_
      refine Prog.keeps_forEach txs fun tx htx => keeps_logErrorIf _ (h.keeps ?_)
      exact spares_clocked env _ (hothers tx htx) fun _ => rfl
  · exact Prog.keeps_ret _

/-- The price monitor leaves the row alone, if its prices do not meet what it is shown of it. -/
theorem priceMonitorPass (h : SparesRow c I x shown) (prices : String → Option F64)
    (hprice : ∀ network tx, shown (.priceTriggered network) tx →
      priceTriggerMet prices tx = false) :
    (BroadcastPool.priceMonitorPass env p prices).Keeps c I := by
  refine Prog.keeps_bind (h.lookup (clock_configNetwork p).lookup) fun network => ?_
  refine Prog.Gives.keeps_bind (h.shows _ _) fun txs hshows => ?_
  refine Prog.keeps_forEach txs fun tx htx => ?_
  unfold checkPriceTrigger
  by_cases hid : tx.id = x
  · rw [hprice network tx (hshows tx htx hid)]
    exact Prog.keeps_ret _
  · exact keeps_logErrorIf _ (h.keeps (spares_clocked env _ hid fun _ => rfl))

theorem rebroadcastLoopPass (h : SparesRow c I x shown)
    (hbroadcast : ∀ cutoff network tx, ¬ shown (.pendingRebroadcast cutoff network) tx) :
    (BroadcastPool.rebroadcastLoopPass env p).Keeps c I := by
  refine Prog.keeps_bind (h.lookup (uses_act rfl)) fun health => ?_
  split
  · refine Prog.keeps_bind (h.lookup (IsClock.lookup (uses_orRaise (uses_act rfl))))
      fun config => ?_
    have hothers : Prog.Gives c I (fun txs => ∀ tx ∈ txs, tx.id ≠ x)
        (getPendingRebroadcast env (asI32 config.rebroadcastIntervalMinutes) config.network) :=
      Prog.gives_bind (h.lookup (uses_act rfl)).gives fun now _ =>
        h.others _ (hbroadcast _ config.network)
    refine Prog.Gives.keeps_bind hothers fun txs hothers => ?_
    exact Prog.keeps_forEach txs fun tx htx => h.keeps (spares_rebroadcastTx env p (hothers tx htx))
  · exact Prog.keeps_ret _

theorem confirmationCheckerPass (h : SparesRow c I x shown)
    (hbroadcast : ∀ network tx, ¬ shown (.list (some "broadcast") network 1000) tx) :
    (BroadcastPool.confirmationCheckerPass env p).Keeps c I := by
  refine Prog.keeps_bind (h.lookup (uses_act rfl)) fun health => ?_
  split
  · refine Prog.keeps_bind (h.lookup (clock_configNetwork p).lookup) fun network => ?_
    refine Prog.Gives.keeps_bind (h.others _ (hbroadcast network)) fun txs hothers => ?_
    refine Prog.keeps_bind (h.lookup (uses_act rfl)) fun rpc => ?_
    split
    · refine Prog.keeps_bind (h.lookup (uses_act rfl)) fun up => ?_
      split
      · exact Prog.keeps_forEach txs fun tx htx =>
          h.keeps (spares_checkConfirmation env (hothers tx htx))
      · exact Prog.keeps_ret _
    · exact Prog.keeps_ret _
  · exact Prog.keeps_ret _

end SparesRow

end BroadcastPool
