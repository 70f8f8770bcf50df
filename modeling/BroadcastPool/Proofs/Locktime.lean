import BroadcastPool.Pool.LocktimeView
import BroadcastPool.Proofs.Rules
import BroadcastPool.Proofs.Db.Seal
import BroadcastPool.Sample

/-!
# `BroadcastPool.Proofs.Locktime`: the locktime gate, the ingest plan and the dashboard

`is_locktime_satisfied` decides whether a row may be handed over. It takes a locktime up to
500000000 as a height, and compares a time with the median time past by `>=`. Consensus takes
500000000 itself as a time, and a transaction is final only when the median time is past the lock.
`resolve_ingest_plan` and `enrich_tx_locktime` each draw the line in their own way.

Everything here is about what the chain looks like to one call: `SeesHeight` and `SeesMedian` say
which height and which median time the functions of the gate get.
-/

set_option autoImplicit false

namespace BroadcastPool

open Effects

theorem World.tick_ticked (w : World) : w.ticked.tick = w.tick + 1 := rfl

section Gate
variable {env : Env} {p : Proc} {w : World}

/-- `check_block_height` gives this height. -/
def SeesHeight (env : Env) (p : Proc) (w : World) (height : Nat) : Prop :=
  ((checkBlockHeight p).run (World.exec env) w).1 = .ok (some height)

/-- `get_median_time_past_cached` gives this median time. -/
def SeesMedian (env : Env) (p : Proc) (w : World) (mtp : Nat) : Prop :=
  ((getMedianTimePastCached p).run (World.exec env) w).1 = .ok mtp

/-- `is_locktime_satisfied` returns `b`. -/
def GateReturns (env : Env) (p : Proc) (w : World) (nlocktime : Option Nat) (b : Bool) : Prop :=
  ((isLocktimeSatisfied p nlocktime).run (World.exec env) w).1 = .ok b

/-- Whether the locktime is reached at a height, if there is one. -/
def heightReached (n : Nat) : Option Nat → Bool
  | some height => n ≤ height
  | none => false

theorem isLocktimeSatisfied_time {n : Nat} (h : 500000000 < n) :
    isLocktimeSatisfied p (some n) =
      (getMedianTimePastCached p).bind fun mtp => .ret (decide (n ≤ mtp)) := by
  cases n with
  | zero => omega
  | succ n =>
    show (if 500000000 < n + 1 then _ else _) = _
    rw [if_pos h]
    rfl

theorem isLocktimeSatisfied_height {n : Nat} (h : ¬ 500000000 < n) (hn : n ≠ 0) :
    isLocktimeSatisfied p (some n) =
      (checkBlockHeight p).bind fun height => .ret (heightReached n height) := by
  cases n with
  | zero => exact absurd rfl hn
  | succ n =>
    show (if 500000000 < n + 1 then _ else _) = _
    rw [if_neg h, Prog.bind_eq]
    congr 1
    funext height
    cases height <;> rfl

/-- The value of a program whose last step computes it. -/
theorem run_bind_ret {α β : Type} {prog : M α} {a : α}
    (h : (prog.run (World.exec env) w).1 = .ok a) (f : α → β) :
    ((prog.bind fun a => .ret (f a)).run (World.exec env) w).1 = .ok (f a) := by
  rw [Prog.run_bind]
  generalize prog.run (World.exec env) w = run at h
  obtain ⟨o, w'⟩ := run
  cases h
  rfl

/-- What the gate compares: a lock above 500000000 with the median time, any other one with the
height. -/
def gateOpen (n height mtp : Nat) : Bool :=
  if n = 0 then true else if 500000000 < n then n ≤ mtp else n ≤ height

/-- The gate on a chain with a height and a median time. -/
theorem gate_returns {height mtp : Nat} (hheight : SeesHeight env p w height)
    (hmtp : SeesMedian env p w mtp) (n : Nat) :
    GateReturns env p w (some n) (gateOpen n height mtp) := by
  unfold GateReturns gateOpen
  by_cases hzero : n = 0
  · rw [hzero]
    rfl
  · by_cases htime : 500000000 < n
    · rw [isLocktimeSatisfied_time htime, if_neg hzero, if_pos htime]
      exact run_bind_ret hmtp fun mtp => decide (n ≤ mtp)
    · rw [isLocktimeSatisfied_height htime hzero, if_neg hzero, if_neg htime]
      exact run_bind_ret hheight (heightReached n)

/-- The gate on a column that can be empty. -/
theorem gate_returns_column {height mtp : Nat} (hheight : SeesHeight env p w height)
    (hmtp : SeesMedian env p w mtp) (nlocktime : Option Nat) :
    GateReturns env p w nlocktime (gateOpen (nlocktime.getD 0) height mtp) := by
  cases nlocktime with
  | none => rfl
  | some n => exact gate_returns hheight hmtp n

/-- The gate returns one value. -/
theorem gate_unique {nlocktime : Option Nat} {a b : Bool}
    (ha : GateReturns env p w nlocktime a) (hb : GateReturns env p w nlocktime b) : a = b :=
  Except.ok.inj (ha.symm.trans hb)

end Gate

/-! ### Consensus -/

/-- A transaction with the locktime `n` and a non-final input is final for the block after the
tip at `height`, whose median time past is `mtp`. -/
def IsFinal (n height mtp : Nat) : Prop :=
  n = 0 ∨ (n < 500000000 ∧ n ≤ height) ∨ (500000000 ≤ n ∧ n < mtp)

instance (n height mtp : Nat) : Decidable (IsFinal n height mtp) :=
  inferInstanceAs (Decidable (_ ∨ _))

/-- The gate agrees with consensus except at the two boundaries. -/
theorem gateOpen_iff {n height mtp : Nat} (hn : n ≠ 500000000) :
    (gateOpen n height mtp = true ↔ IsFinal n height mtp) ↔
      (500000000 < n → n ≠ mtp) := by
  unfold gateOpen
  by_cases htime : 500000000 < n
  · have hzero : n ≠ 0 := by omega
    have hfinal : IsFinal n height mtp ↔ n < mtp := by
      unfold IsFinal
      omega
    simp only [hzero, htime, if_true, if_false, decide_eq_true_eq, hfinal, true_implies]
    constructor
    · intro hagree heq
      have := hagree.1 (by omega)
      omega
    · intro hne
      omega
  · have hfinal : IsFinal n height mtp ↔ n = 0 ∨ n ≤ height := by
      unfold IsFinal
      omega
    rw [hfinal]
    by_cases hzero : n = 0
    · simp [hzero]
    · simp [hzero, htime]

/-- The gate agrees with consensus, except at the median time, and at 500000000 unless height and
median time happen to be on the same side of it. -/
theorem gateOpen_iff_final {n height mtp : Nat} :
    (gateOpen n height mtp = true ↔ IsFinal n height mtp) ↔
      (n = 500000000 → (n ≤ height ↔ n < mtp)) ∧ (500000000 < n → n ≠ mtp) := by
  by_cases hn : n = 500000000
  · have hopen : gateOpen n height mtp = true ↔ n ≤ height := by
      rw [hn]
      exact decide_eq_true_iff
    have hfinal : IsFinal n height mtp ↔ n < mtp := by
      unfold IsFinal
      omega
    rw [hopen, hfinal]
    omega
  · rw [gateOpen_iff hn]
    omega

/-! ### The ingest plan -/

/-- `resolve_ingest_plan` sends a transaction of Sparrow on arrival. -/
def ChoosesImmediate (env : Env) (w : World) (config : Config) (n height : Nat) : Prop :=
  ∃ time, ((resolveIngestPlan env "sparrow" n config (some height)).run
    (World.exec env) w).1 = .ok (.immediate, time)

/-- `resolve_ingest_plan` schedules a transaction of Sparrow for the time that its lock says,
whatever the configuration is. -/
def TreatsAsTime (env : Env) (w : World) (n height : Nat) : Prop :=
  ∀ config, ((resolveIngestPlan env "sparrow" n config (some height)).run
    (World.exec env) w).1 = .ok (.scheduled, some (n * 1000000000))

section Plan
variable {env : Env} {w : World} {config : Config} {n height : Nat}

theorem resolveIngestPlan_height (hpos : 0 < n) (hlt : n < 500000000) :
    resolveIngestPlan env "sparrow" n config (some height) =
      if n ≤ height then do
        let now ← perform .now
        return (.immediate, some now)
      else pure (.byBlock, none) := by
  have hzero : n ≠ 0 := by omega
  have htime : ¬ 500000000 < n := by omega
  unfold resolveIngestPlan
  simp [hzero, htime, hpos, hlt]

/-- A height lock is sent on arrival exactly when the tip has reached it. -/
theorem choosesImmediate_iff (hpos : 0 < n) (hlt : n < 500000000) :
    ChoosesImmediate env w config n height ↔ n ≤ height := by
  unfold ChoosesImmediate
  rw [resolveIngestPlan_height hpos hlt]
  by_cases hreached : n ≤ height
  · simp [hreached, perform, Prog.run_bind]
  · simp [hreached]

/-- A lock above 500000000 is taken as a time, and no other one. -/
theorem treatsAsTime_iff : TreatsAsTime env w n height ↔ 500000000 < n := by
  constructor
  · intro htreats
    -- A configuration that sends on arrival tells a time from everything else.
    have hplan := htreats { network := "" }
    by_contra hle
    unfold resolveIngestPlan resolveBroadcastPlan at hplan
    by_cases hzero : n = 0
    · simp [hzero] at hplan
    · by_cases hlt : n < 500000000
      · have hpos : 0 < n := by omega
        by_cases hreached : n ≤ height
        · simp [hzero, hle, hpos, hlt, hreached, perform, Prog.run_bind] at hplan
        · simp [hzero, hle, hpos, hlt, hreached] at hplan
      · simp [hzero, hle, hlt, perform, Prog.run_bind] at hplan
  · intro htime config
    have hzero : n ≠ 0 := by omega
    unfold resolveIngestPlan
    simp [hzero, htime]

end Plan

/-! ### Gate, plan and consensus -/

/-- The gate is open exactly for a final transaction, and the plan for a transaction of Sparrow
takes heights and times as consensus does. -/
structure LocktimeIsFinality (env : Env) (p : Proc) (w : World) (n height mtp : Nat) : Prop where
  gate : GateReturns env p w (some n) true ↔ IsFinal n height mtp
  immediate : 0 < n → n < 500000000 → ∀ config,
    (ChoosesImmediate env w config n height ↔ IsFinal n height mtp)
  time : TreatsAsTime env w n height ↔ 500000000 ≤ n

/-- Gate and plan are those of consensus if and only if the lock is neither 500000000 itself nor a
time that is exactly the median time past. -/
theorem locktime_is_finality_iff {env : Env} {p : Proc} {w : World} {height mtp : Nat}
    (hheight : SeesHeight env p w height) (hmtp : SeesMedian env p w mtp) (n : Nat) :
    LocktimeIsFinality env p w n height mtp ↔
      n ≠ 500000000 ∧ (500000000 < n → n ≠ mtp) := by
  have hgate : GateReturns env p w (some n) true ↔ gateOpen n height mtp = true := by
    constructor
    · intro hreturns
      exact (gate_unique hreturns (gate_returns hheight hmtp n)).symm
    · intro hopen
      rw [← hopen]
      exact gate_returns hheight hmtp n
  constructor
  · intro h
    have hne : n ≠ 500000000 := by
      have htime := h.time
      rw [treatsAsTime_iff] at htime
      omega
    refine ⟨hne, (@gateOpen_iff n height mtp hne).1 ?_⟩
    rw [← hgate]
    exact h.gate
  · rintro ⟨hne, hmedian⟩
    refine ⟨?_, fun hpos hlt config => ?_, ?_⟩
    · rw [hgate]
      exact (gateOpen_iff hne).2 hmedian
    · rw [choosesImmediate_iff hpos hlt]
      unfold IsFinal
      omega
    · rw [treatsAsTime_iff]
      omega

/-- The tip of the sample chain is at 100, and its median time is 1700000000. -/
theorem locktime_is_finality_height :
    LocktimeIsFinality sampleEnv .daemon (servedWorld sampleRow) 100 100 1700000000 :=
  (locktime_is_finality_iff (by rfl) (by rfl) 100).2 (by decide)

/-- At the median time itself the gate is open, and the transaction is not final. -/
theorem gate_open_at_median :
    SeesHeight sampleEnv .daemon (servedWorld sampleRow) 100 ∧
      SeesMedian sampleEnv .daemon (servedWorld sampleRow) 1700000000 ∧
      ¬ LocktimeIsFinality sampleEnv .daemon (servedWorld sampleRow) 1700000000 100
        1700000000 := by
  refine ⟨by rfl, by rfl, fun h => ?_⟩
  have hfinal := h.gate.1 (by rfl)
  revert hfinal
  decide

/-! ### The dashboard -/

section Display
variable {env : Env} {p : Proc} {w : World} {cachedPrices : Option (String → Option F64)}
  {tx : BroadcastTx} {n height mtp : Nat}

/-- The fields of a set lock go with the answer `b` of the gate: the same answer, the clock that
the gate has read, and the distance to the target on that clock, `0` exactly if `b`. -/
structure ShowsGate (n height mtp : Nat) (b : Bool) (view : LocktimeView) : Prop where
  satisfied : view.locktimeSatisfied = some b
  kind : view.locktimeKind = some (if 500000000 < n then "time" else "height")
  blocks : view.locktimeRemainingBlocks =
    if 500000000 < n then none else some (if b then 0 else (n : Int) - height)
  secs : view.locktimeRemainingSecs =
    if 500000000 < n then some (if b then 0 else (n : Int) - mtp) else none
  positive : b = false → (0 : Int) < if 500000000 < n then (n : Int) - mtp else n - height

/-- `enrich_tx_locktime` returns a view that goes with the answer of the gate. -/
def DisplayAgrees (env : Env) (p : Proc) (w : World)
    (cachedPrices : Option (String → Option F64)) (tx : BroadcastTx) (height mtp : Nat) :
    Prop :=
  ∃ view b, ((enrichLocktime p cachedPrices tx).run (World.exec env) w).1 = .ok view ∧
    GateReturns env p w tx.nlocktime b ∧
    view.locktimeWaiting = some (tx.held && !b) ∧
    ∀ n, tx.nlocktime = some n → 0 < n → ShowsGate n height mtp b view

/-- The view of a set lock before a clock is read. -/
def BroadcastTx.lockView (cachedPrices : Option (String → Option F64)) (tx : BroadcastTx)
    (n : Nat) : LocktimeView :=
  { tx.baseView cachedPrices with
    locktimeTarget := some n
    locktimeKind := some (if n < 500000000 then "height" else "time") }

theorem enrichLocktime_zero (h : tx.nlocktime.getD 0 = 0) :
    enrichLocktime p cachedPrices tx =
      .ret { tx.baseView cachedPrices with locktimeWaiting := some false } := by
  unfold enrichLocktime
  cases hlock : tx.nlocktime with
  | none => rfl
  | some n =>
    rw [hlock] at h
    cases h
    rfl

theorem enrichLocktime_height (h : tx.nlocktime = some n) (hpos : 0 < n) (hlt : n < 500000000) :
    enrichLocktime p cachedPrices tx =
      .act (.chainHealth p) fun health => .ret
        (health.height.elim (tx.lockView cachedPrices n)
          fun height => tx.heightView n height (tx.lockView cachedPrices n)) := by
  unfold enrichLocktime
  rw [h]
  cases n with
  | zero => omega
  | succ n =>
    show (if n + 1 < 500000000 then _ else _) = _
    rw [if_pos hlt]
    show Prog.act _ _ = _
    congr 1
    funext health
    show (match health.height with | some height => _ | none => _) = _
    cases health.height <;> rfl

theorem enrichLocktime_time (h : tx.nlocktime = some n) (hge : 500000000 ≤ n) :
    enrichLocktime p cachedPrices tx =
      (catchErr (getMedianTimePastCached p)).bind fun answer => .ret
        (answer.toOption.elim (tx.lockView cachedPrices n)
          fun mtp => tx.timeView n mtp (tx.lockView cachedPrices n)) := by
  unfold enrichLocktime
  rw [h]
  cases n with
  | zero => omega
  | succ n =>
    show (if n + 1 < 500000000 then _ else _) = _
    rw [if_neg (by omega), Prog.bind_eq]
    congr 1
    funext answer
    cases answer <;> rfl

/-- What `enrich_tx_locktime` does to the state in the model of the manager is what the view
does. -/
theorem enrichTxLocktime_eq (hn : 500000000 ≤ tx.nlocktime.getD 0) :
    enrichTxLocktime p tx = (enrichLocktime p cachedPrices tx).bind fun _ => .ret () := by
  obtain ⟨n, hlock⟩ : ∃ n, tx.nlocktime = some n := by
    cases hlock : tx.nlocktime with
    | none =>
      rw [hlock] at hn
      contradiction
    | some n => exact ⟨n, rfl⟩
  have hge : 500000000 ≤ n := by
    rw [hlock] at hn
    exact hn
  unfold enrichTxLocktime logErrorIf
  rw [enrichLocktime_time hlock hge, decide_eq_true hn, if_pos rfl, Prog.bind_assoc]
  rfl

theorem not_emitted_of_held (h : tx.held = true) : tx.emitted = false := by
  unfold BroadcastTx.held at h
  unfold BroadcastTx.emitted
  cases hstatus : tx.status <;> simp_all

/-- The distance shown, for a lock that fits the column and a clock that has not reached it. -/
theorem remaining_eq {clock : Nat} (hn : n < 2 ^ 63) :
    BroadcastTx.remaining n clock = if n ≤ clock then 0 else (n : Int) - clock := by
  unfold BroadcastTx.remaining
  by_cases hreached : n ≤ clock
  · rw [if_pos hreached, if_pos hreached]
  · have hclock : clock < 2 ^ 63 := by omega
    rw [if_neg hreached, if_neg hreached, asI64_of_lt hn, asI64_of_lt hclock]

/-- `locktime_waiting` does not need its test of `emitted`. -/
theorem waiting_eq (b : Bool) : (!tx.emitted && tx.held && !b) = (tx.held && !b) := by
  cases hheld : tx.held with
  | false => simp
  | true => simp [not_emitted_of_held hheld]

/-- The view of a height lock, at the height of the cached chain health. -/
theorem run_enrichLocktime_height (hshown : (w.pm p).chainHealth.height = some height)
    (h : tx.nlocktime = some n) (hpos : 0 < n) (hlt : n < 500000000) :
    ((enrichLocktime p cachedPrices tx).run (World.exec env) w).1 =
      .ok (tx.heightView n height (tx.lockView cachedPrices n)) := by
  rw [enrichLocktime_height h hpos hlt]
  show Except.ok ((w.pm p).chainHealth.height.elim _ _) = _
  rw [hshown]
  rfl

/-- The view of a time lock, at the cached median time. -/
theorem run_enrichLocktime_time (hmtp : SeesMedian env p w mtp) (h : tx.nlocktime = some n)
    (hge : 500000000 ≤ n) :
    ((enrichLocktime p cachedPrices tx).run (World.exec env) w).1 =
      .ok (tx.timeView n mtp (tx.lockView cachedPrices n)) := by
  have hcaught : ((catchErr (getMedianTimePastCached p)).run (World.exec env) w).1 =
      .ok (.ok mtp) := by
    unfold SeesMedian at hmtp
    rw [run_catchErr]
    generalize (getMedianTimePastCached p).run (World.exec env) w = run at hmtp
    obtain ⟨o, w'⟩ := run
    cases hmtp
    rfl
  rw [enrichLocktime_time h hge]
  exact run_bind_ret hcaught fun answer => answer.toOption.elim (tx.lockView cachedPrices n)
    fun mtp => tx.timeView n mtp (tx.lockView cachedPrices n)

/-- The view of a height lock goes with the gate. -/
theorem heightView_shows (hcolumn : n < 2 ^ 63) (hpos : 0 < n) (hlt : n < 500000000) :
    ShowsGate n height mtp (gateOpen n height mtp)
      (tx.heightView n height (tx.lockView cachedPrices n)) := by
  have htime : ¬ 500000000 < n := by omega
  have hgate : gateOpen n height mtp = decide (n ≤ height) := by
    unfold gateOpen
    rw [if_neg (by omega), if_neg htime]
  refine ⟨?_, ?_, ?_, ?_, ?_⟩
  · rw [hgate]
    rfl
  · show some (if n < 500000000 then "height" else "time") = _
    rw [if_pos hlt, if_neg htime]
  · show some (BroadcastTx.remaining n height) = _
    rw [hgate, if_neg htime, remaining_eq hcolumn]
    by_cases hreached : n ≤ height <;> simp [hreached]
  · rw [if_neg htime]
    rfl
  · intro hclosed
    rw [hgate, decide_eq_false_iff_not] at hclosed
    rw [if_neg htime]
    omega

/-- The view of a time lock goes with the gate, except at 500000000. -/
theorem timeView_shows (hcolumn : n < 2 ^ 63) (htime : 500000000 < n) :
    ShowsGate n height mtp (gateOpen n height mtp)
      (tx.timeView n mtp (tx.lockView cachedPrices n)) := by
  have hgate : gateOpen n height mtp = decide (n ≤ mtp) := by
    unfold gateOpen
    rw [if_neg (by omega), if_pos htime]
  refine ⟨?_, ?_, ?_, ?_, ?_⟩
  · rw [hgate]
    rfl
  · show some (if n < 500000000 then "height" else "time") = _
    rw [if_neg (by omega), if_pos htime]
  · rw [if_pos htime]
    rfl
  · show some (BroadcastTx.remaining n mtp) = _
    rw [hgate, if_pos htime, remaining_eq hcolumn]
    by_cases hreached : n ≤ mtp <;> simp [hreached]
  · intro hclosed
    rw [hgate, decide_eq_false_iff_not] at hclosed
    rw [if_pos htime]
    omega

/-- Display and gate agree if and only if the lock is not 500000000: the display takes that value
as a time, and the gate as a height. The column of the locktime is a signed 64-bit integer. -/
theorem display_agrees_iff (hshown : (w.pm p).chainHealth.height = some height)
    (hheight : SeesHeight env p w height) (hmtp : SeesMedian env p w mtp)
    (hcolumn : ∀ n, tx.nlocktime = some n → n < 2 ^ 63) :
    DisplayAgrees env p w cachedPrices tx height mtp ↔ tx.nlocktime ≠ some 500000000 := by
  constructor
  · rintro ⟨view, b, hview, -, -, hshows⟩ hlock
    have hkind := (hshows _ hlock (by omega)).kind
    rw [run_enrichLocktime_time hmtp hlock (by omega)] at hview
    cases hview
    have hsame : some "time" = some "height" := hkind
    exact absurd hsame (by decide)
  · intro hne
    by_cases hzero : tx.nlocktime.getD 0 = 0
    · have hgate : GateReturns env p w tx.nlocktime true := by
        cases hlock : tx.nlocktime with
        | none => rfl
        | some n =>
          rw [hlock] at hzero
          cases hzero
          rfl
      refine ⟨_, true, by rw [enrichLocktime_zero hzero]; rfl, hgate, ?_, ?_⟩
      · rw [Bool.not_true, Bool.and_false]
      · intro n hlock hpos
        rw [hlock] at hzero
        exact absurd hzero (by simpa using Nat.pos_iff_ne_zero.1 hpos)
    · obtain ⟨n, hlock⟩ : ∃ n, tx.nlocktime = some n := by
        cases hlock : tx.nlocktime with
        | none => exact absurd (by rw [hlock]; rfl) hzero
        | some n => exact ⟨n, rfl⟩
      have hpos : 0 < n := by
        rw [hlock] at hzero
        exact Nat.pos_of_ne_zero hzero
      have hother : n ≠ 500000000 := by
        intro heq
        exact hne (by rw [hlock, heq])
      have hgate := gate_returns hheight hmtp n
      rw [← hlock] at hgate
      have hlast : ∀ view, ShowsGate n height mtp (gateOpen n height mtp) view →
          ∀ n', tx.nlocktime = some n' → 0 < n' →
            ShowsGate n' height mtp (gateOpen n height mtp) view := by
        intro view hview n' hlock' _
        rw [hlock] at hlock'
        cases hlock'
        exact hview
      by_cases hlt : n < 500000000
      · have hshows : ShowsGate n height mtp (gateOpen n height mtp)
            (tx.heightView n height (tx.lockView cachedPrices n)) :=
          heightView_shows (hcolumn n hlock) hpos hlt
        refine ⟨_, _, run_enrichLocktime_height hshown hlock hpos hlt, hgate, ?_,
          hlast _ hshows⟩
        rw [← waiting_eq, ← Option.some.inj hshows.satisfied]
        rfl
      · have hshows : ShowsGate n height mtp (gateOpen n height mtp)
            (tx.timeView n mtp (tx.lockView cachedPrices n)) :=
          timeView_shows (hcolumn n hlock) (by omega)
        refine ⟨_, _, run_enrichLocktime_time hmtp hlock (by omega), hgate, ?_,
          hlast _ hshows⟩
        rw [← waiting_eq, ← Option.some.inj hshows.satisfied]
        rfl

end Display

/-- The sample row as it is read, with a locktime. -/
def lockedTx (n : Nat) : BroadcastTx :=
  { (mapBroadcastRow sampleEnv 0 sampleRow).toOption.get (by rfl) with nlocktime := some n }

/-- A lock one second past the median time. -/
theorem display_agrees_time :
    DisplayAgrees sampleEnv .daemon (polledWorld 100) none (lockedTx 1700000001) 100 1700000000 :=
  (display_agrees_iff (by rfl) (by rfl) (by rfl) (by
    intro n hn
    cases hn
    decide)).2 (by decide)

/-- At 500000000 the dashboard says that the row can be sent, and the gate refuses it. -/
theorem display_open_gate_closed :
    ((polledWorld 100).pm .daemon).chainHealth.height = some 100 ∧
      SeesHeight sampleEnv .daemon (polledWorld 100) 100 ∧
      SeesMedian sampleEnv .daemon (polledWorld 100) 1700000000 ∧
      GateReturns sampleEnv .daemon (polledWorld 100) (some 500000000) false ∧
      ¬ DisplayAgrees sampleEnv .daemon (polledWorld 100) none (lockedTx 500000000) 100
        1700000000 := by
  refine ⟨by rfl, by rfl, by rfl, by rfl, ?_⟩
  rintro ⟨view, b, hview, hgate, -, hshows⟩
  have hclosed : b = false := gate_unique hgate (by rfl)
  have hsatisfied := (hshows _ rfl (by decide)).satisfied
  rw [hclosed] at hsatisfied
  cases hview
  exact absurd hsatisfied (by decide)

end BroadcastPool
