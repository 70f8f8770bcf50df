import BroadcastPool.Proofs.Db.Frame
import BroadcastPool.Proofs.Locktime
import BroadcastPool.Sample

/-!
# `BroadcastPool.Proofs.MissedRelease`: a tick never records a missed release

`broadcast_due_transactions` filters the candidates by `is_tx_due_for_broadcast`, which asks for
the lock, and then asks for the lock again before each hand-over. The branch that records a missed
release is behind the second question. As long as the median time stays below the lock, the first
question has already dropped the row.

`Waits` is the invariant: the row is as it was, and the cached median time is below the lock. Every
part of `run_scheduler_tick` keeps it (`waits_runSchedulerTick`), so a tick leaves the whole row
alone.
-/

set_option autoImplicit false

namespace BroadcastPool

open Effects

/-- Every median time that a backend gives is below `n`. -/
structure MedianBelow (env : Env) (n : Nat) : Prop where
  rpc : ∀ tick mtp, env.rpcMtp tick = .ok mtp → mtp < n
  indexer : ∀ tick mtp, env.indexerMtp tick = .ok mtp → mtp < n

/-- The row is the only one with its id, and the cached median time is below `n`. -/
structure Waits (p : Proc) (n : Nat) (r : Row) (w : World) : Prop where
  row : rowsOf r.id w.pool = [r]
  cache : ∀ cached ∈ (w.pm p).mtpCache, cached.2 < n

/-- The action leaves the cached median time alone. -/
def Act.keepsMtp : Act → Bool
  | startProcess .. | writeMtpCache .. => false
  | _ => true

section Steps
variable {env : Env} {p : Proc} {n : Nat} {r : Row} {w : World}

theorem exec_mtpCache {a : Act} (h : a.keepsMtp = true) (w : World) (p : Proc) :
    ((World.exec env a w).2.pm p).mtpCache = (w.pm p).mtpCache := by
  rw [show (World.exec env a w).2.pm p = (w.effect env a).2.pm p from World.ticked_pm _ p]
  cases a
  case startProcess | writeMtpCache => cases h
  case select | selectLegacy | txHexByTxid | insert | update | delete | reseal | migrate =>
    exact congrArg PoolManager.mtpCache (statement_pm _ p)
  all_goals
    simp only [World.effect]
    repeat' split
    all_goals
      first
        | rfl
        | apply setPm_field PoolManager.mtpCache
          rfl

/-- A step that does not touch the row and does not write the cache. -/
def Act.Passes (x : String) (a : Act) : Prop := a.touches x = false ∧ a.keepsMtp = true

theorem waits_step {a : Act} (h : a.Passes r.id) (hw : Waits p n r w) :
    Waits p n r (World.exec env a w).2 where
  row := by rw [exec_rowsOf h.1, hw.row]
  cache := by rw [exec_mtpCache h.2]; exact hw.cache

end Steps

section Clock
variable {env : Env} {p : Proc} {n : Nat} {r : Row} {α : Type}

/-- The program keeps the row and the cache. -/
abbrev KeepsWaits (env : Env) (p : Proc) (n : Nat) (r : Row) (prog : M α) : Prop :=
  prog.Keeps (plainContract env) (Waits p n r)

theorem waits_passes {prog : M α} (h : prog.Uses (Act.Passes r.id)) :
    KeepsWaits env p n r prog := by
  refine Prog.keeps_of_uses (fun a ha w hw _ => ⟨trivial, fun answer w' hstep => ?_⟩) h
  have hnext : w' = (World.exec env a w).2 := (congrArg Prod.snd hstep).symm
  rw [hnext]
  exact waits_step ha hw

theorem waits_act {a : Act} (htouches : a.touches r.id = false) (hmtp : a.keepsMtp = true) :
    KeepsWaits env p n r (perform a) :=
  waits_passes (uses_act ⟨htouches, hmtp⟩)

/-- One action that leaves row and cache alone, and what its answers satisfy. -/
theorem waits_gives_act {a : Act} {P : a.Res → Prop} (htouches : a.touches r.id = false)
    (hmtp : a.keepsMtp = true) (hP : ∀ w, Waits p n r w → P (World.exec env a w).1) :
    Prog.Gives (plainContract env) (Waits p n r) P (perform a : M a.Res) := by
  intro w hw
  refine Prog.wp_perform_handler _ _ _ w fun _ => ⟨trivial, waits_step ⟨htouches, hmtp⟩ hw, ?_⟩
  intro answer hanswer
  cases hanswer
  exact hP w hw

theorem gives_rpcMedianTime (hbelow : MedianBelow env n) :
    Prog.Gives (plainContract env) (Waits p n r) (fun o => ∀ mtp ∈ o, mtp < n)
      (rpcMedianTime p) := by
  refine Prog.gives_bind (waits_act rfl rfl).gives fun hasRpc _ => ?_
  split
  · refine Prog.gives_bind (waits_gives_act (P := fun answer : Except String Nat =>
      ∀ mtp, answer = .ok mtp → mtp < n) rfl rfl fun w _ mtp hmtp => hbelow.rpc _ mtp hmtp)
      fun answer hanswer => ?_
    cases answer with
    | ok mtp =>
      refine Prog.gives_ret fun m hm => ?_
      cases hm
      exact hanswer mtp rfl
    | error e => exact Prog.gives_ret fun m hm => by cases hm
  · exact Prog.gives_ret fun m hm => by cases hm

theorem gives_getMedianTimePast (hbelow : MedianBelow env n) :
    Prog.Gives (plainContract env) (Waits p n r) (· < n) (getMedianTimePast p) := by
  refine Prog.gives_bind (gives_rpcMedianTime hbelow) fun o ho => ?_
  cases o with
  | some mtp => exact Prog.gives_ret (ho mtp rfl)
  | none =>
    refine Prog.gives_bind (waits_act rfl rfl).gives fun health _ => ?_
    split
    · refine Prog.gives_bind (waits_act rfl rfl).gives fun hasIndexer _ => ?_
      split
      · refine Prog.gives_bind (waits_gives_act (P := fun answer : Except String Nat =>
          ∀ mtp, answer = .ok mtp → mtp < n) rfl rfl fun w _ mtp hmtp => hbelow.indexer _ mtp hmtp)
          fun answer hanswer => ?_
        cases answer with
        | ok mtp => exact Prog.gives_ret (hanswer mtp rfl)
        | error e =>
          exact Prog.gives_bind (waits_act rfl rfl).gives fun _ _ => Prog.gives_fail _
      · exact Prog.gives_fail _
    · exact Prog.gives_fail _

/-- Storing a median time below the lock keeps the cache below it. -/
theorem waits_writeMtpCache {fetchedAt mtp : Nat} (h : mtp < n) :
    KeepsWaits env p n r (perform (.writeMtpCache p fetchedAt mtp)) := by
  intro w hw
  refine Prog.wp_perform_handler _ _ _ w fun _ => ⟨trivial, ?_, ?_⟩
  · rw [exec_rowsOf rfl, hw.row]
  · intro cached hcached
    have hcache : ((World.exec env (.writeMtpCache p fetchedAt mtp) w).2.pm p).mtpCache =
        some (fetchedAt, mtp) := by
      simp [World.exec, World.effect]
    rw [hcache] at hcached
    cases hcached
    exact h

theorem gives_refreshMtpCache (hbelow : MedianBelow env n) :
    Prog.Gives (plainContract env) (Waits p n r) (· < n) (refreshMtpCache p) := by
  refine Prog.gives_bind (gives_getMedianTimePast hbelow) fun mtp hmtp => ?_
  refine Prog.gives_bind (waits_act rfl rfl).gives fun fetchedAt _ => ?_
  exact Prog.gives_bind (waits_writeMtpCache hmtp).gives fun _ _ => Prog.gives_ret hmtp

theorem gives_getMedianTimePastCached (hbelow : MedianBelow env n) :
    Prog.Gives (plainContract env) (Waits p n r) (· < n) (getMedianTimePastCached p) := by
  refine Prog.gives_bind (waits_gives_act (P := fun o => ∀ cached ∈ o, cached.2 < n) rfl rfl
    fun w hw => hw.cache) fun o ho => ?_
  cases o with
  | none => exact gives_refreshMtpCache hbelow
  | some cached =>
    refine Prog.gives_bind (waits_act rfl rfl).gives fun now _ => ?_
    show Prog.Gives _ _ _ (if _ then _ else _)
    split
    · exact Prog.gives_ret (ho cached rfl)
    · exact gives_refreshMtpCache hbelow

/-- The questions for the height write no median time. -/
theorem waits_checkBlockHeight : KeepsWaits env p n r (checkBlockHeight p) := by
  have hindexer : KeepsWaits env p n r (indexerBlockHeight p) := by
    refine Prog.keeps_bind (waits_act rfl rfl) fun health => ?_
    split
    · refine Prog.keeps_bind (waits_act rfl rfl) fun up => ?_
      split
      · refine Prog.keeps_bind (waits_act rfl rfl) fun answer => ?_
        cases answer with
        | ok height => exact Prog.keeps_bind (waits_act rfl rfl) fun _ => Prog.keeps_ret _
        | error e => exact Prog.keeps_bind (waits_act rfl rfl) fun _ => Prog.keeps_ret _
      · exact Prog.keeps_ret _
    · exact Prog.keeps_ret _
  refine Prog.keeps_bind hindexer fun height => ?_
  cases height with
  | some height => exact Prog.keeps_ret _
  | none =>
    refine Prog.keeps_bind (waits_act rfl rfl) fun up => ?_
    split
    · refine Prog.keeps_bind (waits_act rfl rfl) fun answer => ?_
      cases answer with
      | ok height => exact Prog.keeps_ret _
      | error e => exact Prog.keeps_ret _
    · exact Prog.keeps_ret _

/-- The gate keeps row and cache, and it is closed for the lock `n`. -/
theorem gives_isLocktimeSatisfied (hbelow : MedianBelow env n) (hn : 500000000 < n)
    (nlocktime : Option Nat) :
    Prog.Gives (plainContract env) (Waits p n r)
      (fun ok => nlocktime = some n → ok = false) (isLocktimeSatisfied p nlocktime) := by
  by_cases hzero : nlocktime.getD 0 = 0
  · have hother : nlocktime ≠ some n := by
      intro hlock
      rw [hlock] at hzero
      simp at hzero
      omega
    cases nlocktime with
    | none => exact Prog.gives_ret fun hlock => absurd hlock hother
    | some m =>
      cases hzero
      exact Prog.gives_ret fun hlock => absurd hlock hother
  · obtain ⟨m, rfl⟩ : ∃ m, nlocktime = some m := by
      cases nlocktime with
      | none => exact absurd rfl hzero
      | some m => exact ⟨m, rfl⟩
    by_cases htime : 500000000 < m
    · rw [isLocktimeSatisfied_time htime]
      refine Prog.gives_bind (gives_getMedianTimePastCached hbelow) fun mtp hmtp => ?_
      refine Prog.gives_ret fun hlock => ?_
      cases hlock
      exact decide_eq_false (by omega)
    · rw [isLocktimeSatisfied_height htime hzero]
      refine Prog.gives_bind waits_checkBlockHeight.gives fun height _ => ?_
      refine Prog.gives_ret fun hlock => ?_
      cases hlock
      exact absurd hn htime

end Clock

section Tick
variable {env : Env} {p : Proc} {n : Nat} {r : Row} {α : Type}

theorem gives_isTxDueForBroadcast (hbelow : MedianBelow env n) (hn : 500000000 < n)
    (tx : BroadcastTx) (now : DateTime) :
    Prog.Gives (plainContract env) (Waits p n r)
      (fun due => tx.nlocktime = some n → due = false) (isTxDueForBroadcast p tx now) := by
  unfold isTxDueForBroadcast
  split
  · exact Prog.gives_ret fun _ => rfl
  · refine Prog.gives_bind (gives_isLocktimeSatisfied hbelow hn tx.nlocktime) fun ok hok => ?_
    split
    · split
      · exact Prog.gives_ret fun _ => rfl
      · exact Prog.gives_ret hok
    · split
      · exact Prog.gives_ret hok
      · exact Prog.gives_ret fun _ => rfl

/-- The row is no due row, if it is read with its lock. -/
theorem gives_dueTxs_others (hbelow : MedianBelow env n) (hn : 500000000 < n) (now : DateTime)
    (txs : List BroadcastTx) (htxs : ∀ tx ∈ txs, tx.id = r.id → tx.nlocktime = some n) :
    Prog.Gives (plainContract env) (Waits p n r) (fun due => ∀ tx ∈ due, tx.id ≠ r.id)
      (dueTxs p now txs) := by
  induction txs with
  | nil => exact Prog.gives_ret fun tx htx => by cases htx
  | cons tx txs ih =>
    refine Prog.gives_bind (gives_catchErr (gives_isTxDueForBroadcast hbelow hn tx now))
      fun due hdue => ?_
    refine Prog.gives_bind (ih fun tx' htx' => htxs tx' (List.mem_cons_of_mem _ htx'))
      fun rest hrest => Prog.gives_ret fun tx' htx' => ?_
    split at htx'
    · rename_i htrue
      rcases List.mem_cons.1 htx' with rfl | htx'
      · intro hid
        have hfalse := hdue true htrue (htxs _ (List.mem_cons_self ..) hid)
        cases hfalse
      · exact hrest tx' htx'
    · exact hrest tx' htx'

/-! ### The rows with another id -/

theorem passes_updateAndReseal (context : String) {u : Update} (hu : u.target ≠ r.id) :
    (updateAndReseal context u).Uses (Act.Passes r.id) := by
  refine Prog.uses_bind (uses_orFail _ (uses_act ⟨?_, rfl⟩)) fun _ => ?_
  · simpa [Act.touches] using hu
  · refine uses_orFail _ (uses_act ⟨?_, rfl⟩)
    simpa [Act.touches] using hu

/-- A mutator whose only preparation is the clock. -/
theorem passes_clocked (context : String) {u : String → Update}
    (hu : ∀ now, (u now).target ≠ r.id) :
    (do
      let now ← nowText env
      updateAndReseal context (u now) : M Unit).Uses (Act.Passes r.id) :=
  Prog.uses_bind (Prog.uses_bind (uses_act ⟨rfl, rfl⟩) fun _ => Prog.uses_ret _) fun now =>
    passes_updateAndReseal context (hu now)

theorem passes_broadcastTransaction (tx : BroadcastTx) :
    (broadcastTransaction p tx).Uses (Act.Passes r.id) := by
  have hverdict : (indexerVerdict p tx).Uses (Act.Passes r.id) := by
    refine Prog.uses_bind (uses_act ⟨rfl, rfl⟩) fun health => ?_
    split
    · refine Prog.uses_bind (uses_act ⟨rfl, rfl⟩) fun up => ?_
      split
      · exact Prog.uses_bind (uses_act ⟨rfl, rfl⟩) fun _ => Prog.uses_ret _
      · exact Prog.uses_ret _
    · exact Prog.uses_ret _
  refine Prog.uses_bind hverdict fun verdict => ?_
  split
  · exact Prog.uses_ret _
  · refine Prog.uses_bind (uses_act ⟨rfl, rfl⟩) fun rpc => ?_
    split
    · exact uses_orRaise (uses_act ⟨rfl, rfl⟩)
    · split <;> exact Prog.uses_fail _

theorem waits_broadcastDueTx {tx : BroadcastTx} (hid : tx.id ≠ r.id) :
    KeepsWaits env p n r (broadcastDueTx env p tx) := by
  refine Prog.keeps_bind (keeps_catchErr (waits_passes (passes_broadcastTransaction tx)))
    fun verdict => ?_
  cases verdict with
  | ok txid =>
    refine Prog.keeps_bind (waits_passes (passes_clocked _ fun _ => hid)) fun _ => ?_
    exact Prog.keeps_bind (waits_act rfl rfl) fun _ => Prog.keeps_ret _
  | error e =>
    show KeepsWaits env p n r (if _ then _ else _)
    split
    · exact Prog.keeps_ret _
    · exact waits_passes (passes_clocked _ fun _ => hid)

theorem waits_recordMiss (hbelow : MedianBelow env n) {tx : BroadcastTx} (hid : tx.id ≠ r.id)
    (now : DateTime) : KeepsWaits env p n r (recordMiss env p tx now) := by
  unfold recordMiss
  split
  · refine Prog.keeps_bind (keeps_logErrorIf _ (waits_passes ?_)) fun _ =>
      keeps_logErrorIf _ (gives_getMedianTimePastCached hbelow).keeps
    refine Prog.uses_bind (Prog.uses_bind (uses_act ⟨rfl, rfl⟩) fun _ => Prog.uses_ret _)
      fun _ => Prog.uses_bind (uses_orFail _ (uses_act ⟨?_, rfl⟩)) fun _ => Prog.uses_ret _
    show decide (tx.id = r.id) = false
    simpa using hid
  · exact Prog.keeps_ret _

theorem waits_broadcastIfFinal (hbelow : MedianBelow env n) (hn : 500000000 < n)
    {tx : BroadcastTx} (hid : tx.id ≠ r.id) (now : DateTime) :
    KeepsWaits env p n r (broadcastIfFinal env p tx now) := by
  have hlock : KeepsWaits env p n r (locktimeOrRefuse p tx.nlocktime) := by
    refine Prog.keeps_bind
      (keeps_catchErr (gives_isLocktimeSatisfied hbelow hn tx.nlocktime).keeps) fun o => ?_
    cases o with
    | ok ok => exact Prog.keeps_ret _
    | error e => exact Prog.keeps_fail _
  refine Prog.keeps_bind hlock fun ok => ?_
  show KeepsWaits env p n r (if _ then _ else _)
  split
  · exact waits_broadcastDueTx hid
  · exact waits_recordMiss hbelow hid now

theorem waits_broadcastDueLoop (hbelow : MedianBelow env n) (hn : 500000000 < n) (now : DateTime)
    (txs : List BroadcastTx) (htxs : ∀ tx ∈ txs, tx.id ≠ r.id) :
    KeepsWaits env p n r (broadcastDueLoop env p now txs) := by
  induction txs with
  | nil => exact Prog.keeps_ret _
  | cons tx txs ih =>
    refine Prog.keeps_bind (waits_act rfl rfl) fun halted => ?_
    show KeepsWaits env p n r (if _ then _ else _)
    split
    · exact Prog.keeps_ret _
    · split
      · exact waits_act rfl rfl
      · refine Prog.keeps_bind
          (waits_broadcastIfFinal hbelow hn (htxs tx (List.mem_cons_self ..)) now) fun _ => ?_
        exact ih fun tx' htx' => htxs tx' (List.mem_cons_of_mem _ htx')

/-- What a query selects of the waiting row. -/
theorem gives_select_waits (context : String) (q : Query) :
    Prog.Gives (plainContract env) (Waits p n r)
      (fun txs => ∀ tx ∈ txs, tx.id = r.id → q.selects r = true ∧ ∃ now, ReadsAs env now r tx)
      (orFail context (perform (.select q))) := by
  refine gives_select context (fun w hw => ⟨trivial, ?_⟩) fun w hw txs hanswers tx htx hid => ?_
  · exact ⟨hw.row, by simpa using hw.cache⟩
  · obtain ⟨now, r', hr', hselects, hreads⟩ := hanswers tx htx
    have hmem : r' ∈ rowsOf r.id w.pool := mem_rowsOf.2 ⟨hr', hreads.id.symm.trans hid⟩
    rw [hw.row, List.mem_singleton] at hmem
    rw [hmem] at hselects hreads
    exact ⟨hselects, now, hreads⟩

theorem waits_markPendingLoop (txs : List BroadcastTx) (htxs : ∀ tx ∈ txs, tx.id ≠ r.id) :
    KeepsWaits env p n r (markPendingLoop env p txs) := by
  induction txs with
  | nil => exact Prog.keeps_ret _
  | cons tx txs ih =>
    refine Prog.keeps_bind (waits_act rfl rfl) fun halted => ?_
    show KeepsWaits env p n r (if _ then _ else _)
    split
    · exact Prog.keeps_ret _
    · split
      · exact waits_act rfl rfl
      · have hid := htxs tx (List.mem_cons_self ..)
        refine Prog.keeps_bind
          (keeps_logErrorIf _ (waits_passes (passes_clocked _ fun _ => hid))) fun _ => ?_
        exact ih fun tx' htx' => htxs tx' (List.mem_cons_of_mem _ htx')

theorem waits_configNetwork : KeepsWaits env p n r (configNetwork p) :=
  waits_passes (Prog.uses_bind (uses_orRaise (uses_act ⟨rfl, rfl⟩)) fun _ => Prog.uses_ret _)

/-- A scheduled row is no failed one. -/
theorem waits_requeueRetriableFailures (hstatus : r.status = "scheduled") :
    KeepsWaits env p n r (requeueRetriableFailures env p) := by
  refine Prog.keeps_bind waits_configNetwork fun network => ?_
  refine Prog.Gives.keeps_bind (gives_select_waits _ _) fun failed hfailed => ?_
  refine Prog.keeps_forEach failed fun tx htx => ?_
  have hid : tx.id ≠ r.id := by
    intro hid
    have hselects := (hfailed tx htx hid).1
    simp [Query.selects, hstatus] at hselects
  unfold requeueFailure
  split
  · refine waits_passes ?_
    refine Prog.uses_bind (Prog.uses_bind (uses_act ⟨rfl, rfl⟩) fun _ => Prog.uses_ret _)
      fun now => ?_
    refine Prog.uses_bind (uses_orFail _ (uses_act ⟨?_, rfl⟩)) fun _ => ?_
    · show decide (tx.id = r.id) = false
      simpa using hid
    · refine Prog.uses_bind (uses_ensure _ _) fun _ => uses_orFail _ (uses_act ⟨?_, rfl⟩)
      show decide (tx.id = r.id) = false
      simpa using hid
  · exact Prog.keeps_ret _

/-- A batch of due transactions leaves the waiting row alone. -/
theorem waits_broadcastDueTransactions (hbelow : MedianBelow env n) (hn : 500000000 < n)
    (hlock : r.nlocktime = some (n : Int)) :
    KeepsWaits env p n r (broadcastDueTransactions env p) := by
  refine Prog.keeps_bind (waits_act rfl rfl) fun halted => ?_
  split
  · exact Prog.keeps_ret _
  · refine Prog.keeps_bind waits_configNetwork fun network => ?_
    refine Prog.keeps_bind (waits_act rfl rfl) fun now => ?_
    refine Prog.Gives.keeps_bind (gives_select_waits _ _) fun txs htxs => ?_
    refine Prog.Gives.keeps_bind (gives_dueTxs_others hbelow hn now txs fun tx htx hid => ?_)
      fun due hdue => waits_broadcastDueLoop hbelow hn now due hdue
    obtain ⟨now', hreads⟩ := (htxs tx htx hid).2
    obtain ⟨m, hm⟩ := Option.isSome_iff_exists.1 hreads.nlocktime.2
    have hsame : some (n : Int) = some (m : Int) := by
      rw [← hlock, hreads.nlocktime.1, hm]
      rfl
    rw [hm, Int.ofNat.inj (Option.some.inj hsame)]

/-- A tick leaves the waiting row alone, whether it completes or not. -/
theorem waits_runSchedulerTick (hbelow : MedianBelow env n) (hn : 500000000 < n)
    (hstatus : r.status = "scheduled") (hlock : r.nlocktime = some (n : Int)) :
    KeepsWaits env p n r (runSchedulerTick env p) := by
  refine Prog.keeps_bind (waits_act rfl rfl) fun halted => ?_
  split
  · exact Prog.keeps_ret _
  · refine Prog.keeps_bind (waits_act rfl rfl) fun health => ?_
    refine Prog.keeps_bind (Prog.keeps_ensure _ _) fun _ => ?_
    refine Prog.keeps_bind waits_configNetwork fun network => ?_
    have hpending : Prog.Gives (plainContract env) (Waits p n r)
        (fun txs => ∀ tx ∈ txs, tx.id ≠ r.id) (getPendingByScheduledTime network) := by
      refine Prog.gives_bind (waits_act rfl rfl).gives fun now _ => ?_
      refine Prog.gives_bind (gives_select_waits _ _) fun txs htxs =>
        Prog.gives_ret fun tx htx hid => ?_
      have hselects := (htxs tx (List.mem_filter.1 htx).1 hid).1
      simp [Query.selects, hstatus] at hselects
    refine Prog.Gives.keeps_bind hpending fun txs htxs => ?_
    refine Prog.keeps_bind (waits_markPendingLoop txs htxs) fun _ => ?_
    refine Prog.keeps_bind (keeps_catchErr (waits_requeueRetriableFailures hstatus)) fun _ => ?_
    exact waits_broadcastDueTransactions hbelow hn hlock

end Tick

/-! ### What is recorded -/

/-- The state after a number of ticks, one after the other. -/
def afterTicks (env : Env) (p : Proc) : Nat → World → World
  | 0, w => w
  | k + 1, w => ((runSchedulerTick env p).run (World.exec env) (afterTicks env p k w)).2

/-- `broadcast_missed_at` and `original_scheduled_time` of the rows with an id. -/
def missColumns (id : String) (w : World) : List (Option String × Option String) :=
  (rowsOf id w.pool).map fun r => (r.broadcastMissedAt, r.originalScheduledTime)

/-- A tick records the missed release of a row, later ticks leave the record as it is, and
`mark_broadcast` takes it away. -/
structure MissRecorded (env : Env) (p : Proc) (r : Row) (w : World) : Prop where
  recorded : ∃ missedAt original, missColumns r.id (afterTicks env p 1 w) =
      [(some missedAt, original)] ∧
    (r.originalScheduledTime = none → ∀ now, original.map (parseDatetime env now) =
      r.scheduledTime.map (parseDatetime env now))
  kept : ∀ k, missColumns r.id (afterTicks env p (k + 1) w) =
    missColumns r.id (afterTicks env p 1 w)
  cleared : ∀ k txid feeRate w',
    (markBroadcast env p r.id txid feeRate).run (World.exec env) (afterTicks env p k w) =
      (.ok (), w') → ∀ columns ∈ missColumns r.id w', columns.1 = none

section Recorded
variable {env : Env} {p : Proc} {n : Nat} {r : Row} {w : World}

theorem afterTicks_waits (hbelow : MedianBelow env n) (hn : 500000000 < n)
    (hstatus : r.status = "scheduled") (hlock : r.nlocktime = some (n : Int))
    (hw : Waits p n r w) (k : Nat) : Waits p n r (afterTicks env p k w) := by
  induction k with
  | zero => exact hw
  | succ k ih =>
    have hkeeps : KeepsWaits env p n r (runSchedulerTick env p) :=
      waits_runSchedulerTick hbelow hn hstatus hlock
    exact (Prog.run_trace_of_wp _ _ _ (hkeeps _ ih) fun _ _ => trivial).1

variable (env) in
/-- A tick with the median time below the lock leaves the record as it is. -/
theorem missColumns_afterTicks (hbelow : MedianBelow env n) (hn : 500000000 < n)
    (hstatus : r.status = "scheduled") (hlock : r.nlocktime = some (n : Int))
    (hw : Waits p n r w) (k : Nat) :
    missColumns r.id (afterTicks env p k w) =
      [(r.broadcastMissedAt, r.originalScheduledTime)] := by
  unfold missColumns
  rw [(afterTicks_waits hbelow hn hstatus hlock hw k).row]
  rfl

/-- No row with the id has a missed release. -/
def Cleared (id : String) (w : World) : Prop :=
  ∀ r ∈ w.pool, r.id = id → r.broadcastMissedAt = none

theorem cleared_step {id : String} {a : Act} (hinsert : ∀ row, a ≠ .insert row)
    (hupdate : ∀ u, a ≠ .update u) (h : Cleared id w) :
    Cleared id (World.exec env a w).2 := by
  intro r' hr' hid
  obtain ⟨r, hr, hserviced⟩ := exec_serviced env hinsert hupdate w r' hr'
  rw [hserviced.eq] at hid ⊢
  exact h r hr hid

theorem keeps_cleared {id : String} {a : Act} (hinsert : ∀ row, a ≠ .insert row)
    (hupdate : ∀ u, a ≠ .update u) :
    (perform a).Keeps (plainContract env) (Cleared id) := by
  intro w hw
  exact Prog.wp_perform_handler _ _ _ w fun _ => ⟨trivial, cleared_step hinsert hupdate hw⟩

/-- The statement of `mark_broadcast` clears the column, if it succeeds. -/
theorem wp_broadcast_cleared (id txid now : String) (feeRate : F64) (w : World) :
    (orFail "Failed to mark as broadcast"
      (perform (.update (.broadcast id txid feeRate now)))).wp (plainContract env)
        (fun o w' => ∀ changed, o = .ok changed → Cleared id w') w := by
  refine (wp_orFail _ _ _ _).2 (Prog.wp_perform_handler _ _ _ w fun _ => ⟨trivial, ?_⟩)
  rcases exec_update env w (.broadcast id txid feeRate now) with ⟨e, hexec⟩ | hexec
  · rw [hexec]
    intro changed h
    cases h
  · rw [hexec]
    intro changed _ r' hr' hid
    obtain ⟨r, hr, rfl⟩ := List.mem_map.1 hr'
    rw [Update.onRow_id] at hid
    unfold Update.onRow
    rw [if_pos ⟨hid, rfl⟩]
    rfl

/-- `mark_broadcast` that succeeds leaves no missed release. -/
theorem markBroadcast_clears {txid : String} {feeRate : F64} {id : String} {w' : World}
    (h : (markBroadcast env p id txid feeRate).run (World.exec env) w = (.ok (), w')) :
    ∀ columns ∈ missColumns id w', columns.1 = none := by
  have hwp : (markBroadcast env p id txid feeRate).wp (plainContract env)
      (fun o w' => o = .ok () → Cleared id w') w := by
    have hreseal : (resealRowMac id).Keeps (plainContract env) (Cleared id) :=
      keeps_orFail _ (keeps_cleared (fun _ h => by cases h) fun _ h => by cases h)
    have htext : ∀ w, (nowText env).wp (plainContract env) (fun _ _ => True) w := fun w =>
      Prog.keeps_all (I := fun _ => True) (fun _ _ _ _ => ⟨trivial, fun _ _ _ => trivial⟩) _ w
        trivial
    refine (Prog.wp_bind _ _ _ w).2 ((Prog.wp_bind _ _ _ w).2 (Prog.wp_mono ?_ _ w (htext w)))
    rintro (e | now) w₁ -
    · intro h
      cases h
    · refine (Prog.wp_bind _ _ _ w₁).2 (Prog.wp_mono ?_ _ w₁ (wp_broadcast_cleared id txid now
        feeRate w₁))
      rintro (e | changed) w₂ hchanged
      · intro h
        cases h
      · refine Prog.wp_mono ?_ _ w₂ (hreseal w₂ (hchanged changed rfl))
        rintro (e | _) w₃ hcleared
        · intro h
          cases h
        · refine (Prog.wp_bind _ _ _ w₃).2 (Prog.wp_mono ?_ _ w₃
            (keeps_cleared (fun _ h => by cases h) (fun _ h => by cases h) w₃ hcleared))
          rintro (e | _) w₄ hlast
          · intro h
            cases h
          · show (Prog.ret () : M Unit).wp (plainContract env) _ w₄
            rw [Prog.wp_ret]
            exact fun _ => hlast
  have hcleared := (Prog.run_trace_of_wp _ _ _ hwp fun _ _ => trivial).1
  rw [h] at hcleared
  intro columns hcolumns
  obtain ⟨r, hr, rfl⟩ := List.mem_map.1 hcolumns
  obtain ⟨hmem, hid⟩ := mem_rowsOf.1 hr
  exact hcleared rfl r hmem hid

/-- While the median time stays below the lock, a missed release is recorded if and only if it
already was: `broadcast_missed_at` is set, and there is nothing to set `original_scheduled_time`
to. -/
theorem miss_recorded_iff (hbelow : MedianBelow env n) (hn : 500000000 < n)
    (hstatus : r.status = "scheduled") (hlock : r.nlocktime = some (n : Int))
    (hw : Waits p n r w) :
    MissRecorded env p r w ↔
      r.broadcastMissedAt.isSome ∧
        (r.originalScheduledTime = none → r.scheduledTime = none) := by
  have hcolumns := missColumns_afterTicks env hbelow hn hstatus hlock hw
  constructor
  · intro h
    obtain ⟨missedAt, original, hrecorded, horiginal⟩ := h.recorded
    rw [hcolumns 1] at hrecorded
    simp only [List.cons.injEq, Prod.mk.injEq, and_true] at hrecorded
    obtain ⟨hmissed, hsame⟩ := hrecorded
    refine ⟨by rw [hmissed]; rfl, fun hnone => ?_⟩
    have hscheduled := horiginal hnone 0
    rw [← hsame, hnone] at hscheduled
    cases hs : r.scheduledTime with
    | none => rfl
    | some s =>
      rw [hs] at hscheduled
      cases hscheduled
  · rintro ⟨hmissed, horiginal⟩
    obtain ⟨missedAt, hmissed⟩ := Option.isSome_iff_exists.1 hmissed
    refine ⟨⟨missedAt, r.originalScheduledTime, ?_, fun hnone now => ?_⟩, fun k => ?_, ?_⟩
    · rw [hcolumns 1, hmissed]
    · rw [hnone, horiginal hnone]
    · rw [hcolumns, hcolumns]
    · intro k txid feeRate w' hrun
      exact markBroadcast_clears hrun

end Recorded

/-- A scheduled row whose time has passed, locked until one second after the median time. -/
def missedRow : Row := resealed sampleEnv { dueRow with nlocktime := some 1700000001 }

theorem medianBelow_sampleEnv : MedianBelow sampleEnv 1700000001 where
  rpc tick mtp h := by
    cases h
    decide
  indexer tick mtp h := by
    cases h
    decide

theorem waits_servedWorld (r : Row) : Waits .daemon 1700000001 r (servedWorld r) where
  row := by simp [servedWorld, rowsOf]
  cache _ h := by cases h

/-- A missed release that is already recorded stays recorded. -/
theorem miss_recorded_before :
    MissRecorded sampleEnv .daemon
      { missedRow with broadcastMissedAt := some "5", originalScheduledTime := some "0" }
      (servedWorld { missedRow with
        broadcastMissedAt := some "5", originalScheduledTime := some "0" }) :=
  (miss_recorded_iff medianBelow_sampleEnv (by decide) rfl rfl (waits_servedWorld _)).2
    (by decide)

/-- The tick completes, and nothing is recorded. -/
theorem miss_not_recorded :
    Waits .daemon 1700000001 missedRow (servedWorld missedRow) ∧
      ((runSchedulerTick sampleEnv .daemon).run (World.exec sampleEnv)
        (servedWorld missedRow)).1 = .ok () ∧
      missColumns missedRow.id (afterTicks sampleEnv .daemon 1 (servedWorld missedRow)) =
        [(none, none)] ∧
      ¬ MissRecorded sampleEnv .daemon missedRow (servedWorld missedRow) := by
  have hnone : missColumns missedRow.id
      (afterTicks sampleEnv .daemon 1 (servedWorld missedRow)) = [(none, none)] := by
    decide +kernel
  refine ⟨waits_servedWorld _, by decide +kernel, hnone, fun h => ?_⟩
  obtain ⟨missedAt, original, hrecorded, -⟩ := h.recorded
  rw [hnone] at hrecorded
  cases hrecorded

end BroadcastPool
