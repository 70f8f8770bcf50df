import BroadcastPool.Proofs.Locktime
import BroadcastPool.Sample

/-!
# `BroadcastPool.Proofs.ChainClock`: which backend a height or a median time comes from

`decide_chain_source` says that a node in initial block download is not a chain clock. The values
themselves are fetched elsewhere: `check_block_height` asks Core after the indexer,
`get_median_time_past` asks Core before it, and `refresh_chain_health` fills the cached median
time with Core's. None of the three looks at `core_ibd`.

`heldClock` follows the clock value that a program holds and the backend it was read from. The
cached median time has no backend of its own: `cacheOrigin` is the one that the program which
wrote the cache had read the value from. `gate_reads_core_iff` and `monitor_reads_core_iff` say
in terms of the state and of the backends' answers when the value is Core's, and
`syncing_core_kept_out_iff` puts them together over the reachable states.
-/

set_option autoImplicit false

namespace BroadcastPool

open Effects

/-! ### Where a clock value comes from -/

/-- The median time of an answer, and the backend that gave it. -/
def medianAnswer : Seen Act Act.Res → Option (ChainSource × Nat)
  | ⟨.rpcMtp, .ok mtp⟩ => some (.bitcoinCore, mtp)
  | ⟨.rpcChainStatus, .ok (_, mtp, _)⟩ => some (.bitcoinCore, mtp)
  | ⟨.indexerMtp, .ok mtp⟩ => some (.indexer, mtp)
  | _ => none

/-- The height of an answer, and the backend that gave it. -/
def heightAnswer : Seen Act Act.Res → Option (ChainSource × Nat)
  | ⟨.rpcHeight, .ok height⟩ => some (.bitcoinCore, height)
  | ⟨.indexerHeight, .ok height⟩ => some (.indexer, height)
  | _ => none

/-- The cached median time of an answer. -/
def cacheAnswer : Seen Act Act.Res → Option Nat
  | ⟨.readMtpCache _, some (_, mtp)⟩ => some mtp
  | _ => none

/-- The clock value that a program holds after one more answer, and the backend it comes from.
`cachedFrom` is the backend of the cached median time. -/
def heldClock (cachedFrom : Option ChainSource) (held : Option (ChainSource × Nat))
    (s : Seen Act Act.Res) : Option (ChainSource × Nat) :=
  ((medianAnswer s).or (heightAnswer s)).or
    ((cacheAnswer s).bind fun mtp => cachedFrom.map (·, mtp)) |>.or held

/-- The backend of the cached median time of a process after one more action. A program that
writes the cache writes the median time it has read last. -/
def cacheOriginStep (p : Proc) (origin : Option ChainSource)
    (e : Performed Act Act.Res World) : Option ChainSource :=
  match e.act with
  | .writeMtpCache q _ _ =>
    if q = p then (e.seen.reverse.findSome? medianAnswer).map (·.1) else origin
  | .startProcess q _ _ _ => if q = p then none else origin
  | _ => origin

/-- The state after a schedule. -/
def World.after (env : Env) (w : World) (chs : List (Choice Act Act.Res Failure)) : World :=
  (Effects.Config.exec (World.exec env) ⟨w, []⟩ chs).state

/-- The backend of the cached median time of a process after a schedule that finds the cache
empty. -/
def cacheOrigin (env : Env) (w : World) (chs : List (Choice Act Act.Res Failure)) (p : Proc) :
    Option ChainSource :=
  (Effects.Config.performed (World.exec env) ⟨w, []⟩ chs).foldl (cacheOriginStep p) none

variable (env : Env) (cachedFrom : Option ChainSource) (p : Proc) (w : World)

/-- The clock value that a program holds when it has run in `w`. -/
def heldAfter {α : Type} (prog : M α) : Option (ChainSource × Nat) :=
  (prog.answers (World.exec env) w).foldl (heldClock cachedFrom) none

/-- Core reports initial block download. -/
def CoreSyncing : Prop := (w.pm p).chainHealth.coreIbd = true

/-- `is_locktime_satisfied` decides by a value of this backend. -/
def GateReads (nlocktime : Option Nat) (source : ChainSource) : Prop :=
  (∃ b, ((isLocktimeSatisfied p nlocktime).run (World.exec env) w).1 = .ok b) ∧
    (heldAfter env cachedFrom w (isLocktimeSatisfied p nlocktime)).map (·.1) = some source

/-- `run_block_height_monitor` compares with a height of this backend. -/
def MonitorReads (source : ChainSource) : Prop :=
  (heldAfter env cachedFrom w (blockHeightMonitorPass env p)).map (·.1) = some source

/-! ### When it is Core's, in terms of the state and of the answers -/

/-- `check_block_height` asks the indexer, and the indexer answers. -/
def IndexerGivesHeight : Prop :=
  (w.pm p).chainHealth.shouldTryIndexer = true ∧ (w.pm p).indexer = true ∧
    (env.indexerHeight (w.tick + 2)).isOk = true

/-- The number of actions of `check_block_height` before it turns to Core. -/
def stepsBeforeCore : Nat :=
  if (w.pm p).chainHealth.shouldTryIndexer then if (w.pm p).indexer then 4 else 2 else 1

/-- The height is Core's: the indexer is not asked or does not answer, and Core does. -/
def CoreGivesHeight : Prop :=
  ¬ IndexerGivesHeight env p w ∧ (w.pm p).rpc = true ∧
    (env.rpcHeight (w.tick + stepsBeforeCore p w + 1)).isOk = true

/-- The cached median time is younger than 30 seconds. -/
def CacheFresh : Prop :=
  ∃ cached ∈ (w.pm p).mtpCache, env.instant (w.tick + 1) - cached.1 < 30000000000

/-- Core answers the question for the median time. An old cached value costs one more action. -/
def CoreAnswersMedian : Prop :=
  (w.pm p).rpc = true ∧
    (env.rpcMtp (w.tick + if (w.pm p).mtpCache.isSome then 3 else 2)).isOk = true

/-- The median time is Core's: the cached one while it is fresh, and Core's answer after
that. -/
def CoreGivesMedian : Prop :=
  (CacheFresh env p w ∧ cachedFrom = some .bitcoinCore) ∨
    (¬ CacheFresh env p w ∧ CoreAnswersMedian env p w)

/-- The value that `is_locktime_satisfied` compares with is Core's. Without a locktime it
compares with none. -/
def CoreGivesGate : Option Nat → Prop
  | none | some 0 => False
  | some n =>
    if 500000000 < n then CoreGivesMedian env cachedFrom p w else CoreGivesHeight env p w

/-- The height of `run_block_height_monitor` is Core's. It looks for a height only with the
config at hand and a chain clock available. -/
def CoreGivesMonitor : Prop :=
  env.configPoisoned w.tick = false ∧ (w.pm p).chainHealth.clockAvailable = true ∧
    CoreGivesHeight env p { w with tick := w.tick + 2 }

/-! ### The height -/

section Runs
variable {env p w} (held : Option (ChainSource × Nat))

/-- The handler that follows the clock value. -/
abbrev clockHandler (env : Env) (cachedFrom : Option ChainSource) :
    Handler Act Act.Res (World × Option (ChainSource × Nat)) :=
  (World.exec env).noting (heldClock cachedFrom)

theorem clockHandler_apply (a : Act) :
    clockHandler env cachedFrom a (w, held) =
      ((w.effect env a).1, (w.effect env a).2.ticked,
        heldClock cachedFrom held ⟨a, (w.effect env a).1⟩) := rfl

/-- The indexer's height is the value held after the question for it. -/
theorem indexerBlockHeight_held (h : IndexerGivesHeight env p w) :
    ∃ w' height, (indexerBlockHeight p).run (clockHandler env cachedFrom) (w, held) =
      (.ok (some height), w', some (.indexer, height)) := by
  obtain ⟨htry, hindexer, hanswer⟩ := h
  cases hheight : env.indexerHeight (w.tick + 2) with
  | error e => simp [hheight, Except.isOk, Except.toBool] at hanswer
  | ok height =>
    simp [indexerBlockHeight, perform, Prog.run_bind, clockHandler_apply, World.effect,
      World.tick_ticked, htry, hindexer, hheight, heldClock, medianAnswer, heightAnswer,
      cacheAnswer]

/-- Where the indexer gives no height, the next question is for Core. -/
theorem indexerBlockHeight_silent (h : ¬ IndexerGivesHeight env p w) :
    ∃ w', (indexerBlockHeight p).run (clockHandler env cachedFrom) (w, held) =
        (.ok none, w', held) ∧
      w'.tick = w.tick + stepsBeforeCore p w ∧ (w'.pm p).rpc = (w.pm p).rpc := by
  unfold stepsBeforeCore
  cases htry : (w.pm p).chainHealth.shouldTryIndexer with
  | false =>
    simp [indexerBlockHeight, perform, Prog.run_bind, clockHandler_apply, World.effect,
      World.tick_ticked, htry, heldClock, medianAnswer, heightAnswer, cacheAnswer]
  | true =>
    cases hindexer : (w.pm p).indexer with
    | false =>
      simp [indexerBlockHeight, perform, Prog.run_bind, clockHandler_apply, World.effect,
        World.tick_ticked, htry, hindexer, heldClock, medianAnswer, heightAnswer, cacheAnswer]
    | true =>
      cases hheight : env.indexerHeight (w.tick + 2) with
      | ok height => exact absurd ⟨htry, hindexer, by rw [hheight]; rfl⟩ h
      | error e =>
        simp [indexerBlockHeight, perform, Prog.run_bind, clockHandler_apply, World.effect,
          World.tick_ticked, htry, hindexer, hheight, heldClock, medianAnswer, heightAnswer,
          cacheAnswer]

/-- What `check_block_height` returns is the height held at the end, and it is Core's where
`CoreGivesHeight` says so. -/
theorem checkBlockHeight_held :
    ∃ w' held, (checkBlockHeight p).run (clockHandler env cachedFrom) (w, none) =
        (.ok (held.map (·.2)), w', held) ∧
      (held.map (·.1) = some .bitcoinCore ↔ CoreGivesHeight env p w) := by
  unfold checkBlockHeight CoreGivesHeight
  by_cases hgives : IndexerGivesHeight env p w
  · obtain ⟨w', height, hrun⟩ := indexerBlockHeight_held cachedFrom none hgives
    refine ⟨w', some (.indexer, height), ?_, by simp [hgives]⟩
    rw [Prog.bind_eq, Prog.run_bind, hrun]
    rfl
  · obtain ⟨w', hrun, htick, hrpc⟩ := indexerBlockHeight_silent cachedFrom none hgives
    rw [Prog.bind_eq, Prog.run_bind, hrun]
    cases hasRpc : (w.pm p).rpc with
    | false =>
      rw [hasRpc] at hrpc
      refine ⟨w'.ticked, none, ?_, by simp⟩
      simp [perform, Prog.run_bind, clockHandler_apply, World.effect, hrpc, heldClock,
        medianAnswer, heightAnswer, cacheAnswer]
    | true =>
      rw [hasRpc] at hrpc
      cases hheight : env.rpcHeight (w.tick + stepsBeforeCore p w + 1) with
      | ok height =>
        refine ⟨w'.ticked.ticked, some (.bitcoinCore, height), ?_, ?_⟩
        · simp [perform, Prog.run_bind, clockHandler_apply, World.effect, World.tick_ticked,
            htick, hrpc, hheight, heldClock, medianAnswer, heightAnswer, cacheAnswer]
        · simp [hgives, Except.isOk, Except.toBool]
      | error e =>
        refine ⟨w'.ticked.ticked, none, ?_, ?_⟩
        · simp [perform, Prog.run_bind, clockHandler_apply, World.effect, World.tick_ticked,
            htick, hrpc, hheight, heldClock, medianAnswer, heightAnswer, cacheAnswer]
        · simp [Except.isOk, Except.toBool]

/-! ### The median time -/

/-- A function that gives a median time gives the one that is held at the end, and it is Core's
if and only if `core` holds. -/
def HoldsMedian (env : Env) (w : World) (prog : M Nat) (core : Prop) : Prop :=
  ∃ o w' held', prog.run (clockHandler env cachedFrom) (w, held) = (o, w', held') ∧
    (∀ mtp source value, o = .ok mtp → held' = some (source, value) → value = mtp) ∧
    (((∃ mtp, o = .ok mtp) ∧ held'.map (·.1) = some .bitcoinCore) ↔ core)

/-- Core's median time is the value held after the question for it. -/
theorem rpcMedianTime_held {mtp : Nat} (hrpc : (w.pm p).rpc = true)
    (hmtp : env.rpcMtp (w.tick + 1) = .ok mtp) :
    (rpcMedianTime p).run (clockHandler env cachedFrom) (w, held) =
      (.ok (some mtp), w.ticked.ticked, some (.bitcoinCore, mtp)) := by
  simp [rpcMedianTime, perform, Prog.run_bind, clockHandler_apply, World.effect,
    World.tick_ticked, hrpc, hmtp, heldClock, medianAnswer, heightAnswer, cacheAnswer]

theorem rpcMedianTime_silent
    (h : ¬ ((w.pm p).rpc = true ∧ (env.rpcMtp (w.tick + 1)).isOk = true)) :
    ∃ w', (rpcMedianTime p).run (clockHandler env cachedFrom) (w, held) =
      (.ok none, w', held) := by
  cases hrpc : (w.pm p).rpc with
  | false =>
    simp [rpcMedianTime, perform, Prog.run_bind, clockHandler_apply, World.effect, hrpc,
      heldClock, medianAnswer, heightAnswer, cacheAnswer]
  | true =>
    cases hmtp : env.rpcMtp (w.tick + 1) with
    | ok mtp => exact absurd ⟨hrpc, by rw [hmtp]; rfl⟩ h
    | error e =>
      simp [rpcMedianTime, perform, Prog.run_bind, clockHandler_apply, World.effect,
        World.tick_ticked, hrpc, hmtp, heldClock, medianAnswer, heightAnswer, cacheAnswer]

/-- `get_median_time_past` gives Core's median time wherever Core answers, syncing or not. -/
theorem getMedianTimePast_held :
    HoldsMedian cachedFrom held env w (getMedianTimePast p)
      ((w.pm p).rpc = true ∧ (env.rpcMtp (w.tick + 1)).isOk = true) := by
  unfold HoldsMedian getMedianTimePast
  by_cases hcore : (w.pm p).rpc = true ∧ (env.rpcMtp (w.tick + 1)).isOk = true
  · obtain ⟨hrpc, hok⟩ := hcore
    cases hmtp : env.rpcMtp (w.tick + 1) with
    | error e => simp [hmtp, Except.isOk, Except.toBool] at hok
    | ok mtp =>
      refine ⟨.ok mtp, w.ticked.ticked, some (.bitcoinCore, mtp), ?_, ?_, ?_⟩
      · rw [Prog.bind_eq, Prog.run_bind, rpcMedianTime_held cachedFrom held hrpc hmtp]
        rfl
      · simp
      · simp [hrpc, Except.isOk, Except.toBool]
  · obtain ⟨w', hrun⟩ := rpcMedianTime_silent cachedFrom held hcore
    simp only [hcore, iff_false]
    rw [Prog.bind_eq, Prog.run_bind, hrun]
    cases htry : (w'.pm p).chainHealth.shouldTryIndexer with
    | false =>
      simp [perform, Prog.run_bind, clockHandler_apply, World.effect, htry, bail, heldClock,
        medianAnswer, heightAnswer, cacheAnswer]
    | true =>
      cases hindexer : (w'.pm p).indexer with
      | false =>
        simp [perform, Prog.run_bind, clockHandler_apply, World.effect, htry, hindexer, bail,
          heldClock, medianAnswer, heightAnswer, cacheAnswer]
      | true =>
        cases hmtp : env.indexerMtp (w'.tick + 2) with
        | ok mtp =>
          simp [perform, Prog.run_bind, clockHandler_apply, World.effect, World.tick_ticked,
            htry, hindexer, hmtp, heldClock, medianAnswer, heightAnswer, cacheAnswer]
        | error e =>
          simp [perform, Prog.run_bind, clockHandler_apply, World.effect, World.tick_ticked,
            htry, hindexer, hmtp, bail, heldClock, medianAnswer, heightAnswer, cacheAnswer]

/-- Storing the median time in the cache changes nothing about it. -/
theorem refreshMtpCache_held :
    HoldsMedian cachedFrom held env w (refreshMtpCache p)
      ((w.pm p).rpc = true ∧ (env.rpcMtp (w.tick + 1)).isOk = true) := by
  obtain ⟨o, w', held', hrun, hvalue, hcore⟩ :=
    @getMedianTimePast_held env cachedFrom p w held
  cases o with
  | error e =>
    refine ⟨.error e, w', held', ?_, by simp, hcore⟩
    unfold refreshMtpCache
    rw [Prog.bind_eq, Prog.run_bind, hrun]
  | ok mtp =>
    refine ⟨.ok mtp, (w'.ticked.setPm p { w'.ticked.pm p with
      mtpCache := some (env.instant w'.tick, mtp) }).ticked, held', ?_, hvalue, hcore⟩
    unfold refreshMtpCache
    rw [Prog.bind_eq, Prog.run_bind, hrun]
    simp [perform, Prog.run_bind, clockHandler_apply, World.effect, heldClock, medianAnswer,
      heightAnswer, cacheAnswer]

/-- The cached function gives Core's median time where `CoreGivesMedian` says so. -/
theorem getMedianTimePastCached_held :
    HoldsMedian cachedFrom none env w (getMedianTimePastCached p)
      (CoreGivesMedian env cachedFrom p w) := by
  unfold HoldsMedian getMedianTimePastCached CoreGivesMedian CacheFresh CoreAnswersMedian
  rw [Prog.bind_eq, Prog.run_bind]
  cases hcache : (w.pm p).mtpCache with
  | none =>
    obtain ⟨o, w', held', hrun, hvalue, hcore⟩ :=
      @refreshMtpCache_held env cachedFrom p w.ticked none
    refine ⟨o, w', held', ?_, hvalue, ?_⟩
    · simp [perform, clockHandler_apply, World.effect, hcache, heldClock, medianAnswer,
        heightAnswer, cacheAnswer]
      exact hrun
    · rw [hcore]
      simp [World.tick_ticked]
  | some cached =>
    obtain ⟨fetchedAt, mtp⟩ := cached
    by_cases hfresh : env.instant (w.tick + 1) - fetchedAt < 30000000000
    · refine ⟨.ok mtp, w.ticked.ticked, cachedFrom.map (·, mtp), ?_, ?_, ?_⟩
      · simp [perform, Prog.run_bind, clockHandler_apply, World.effect, World.tick_ticked,
          hcache, hfresh, heldClock, medianAnswer, heightAnswer, cacheAnswer]
      · cases cachedFrom with
        | none => simp
        | some source => simp
      · simp [hfresh]
    · obtain ⟨o, w', held', hrun, hvalue, hcore⟩ :=
        @refreshMtpCache_held env cachedFrom p w.ticked.ticked (cachedFrom.map (·, mtp))
      refine ⟨o, w', held', ?_, hvalue, ?_⟩
      · simp [perform, Prog.run_bind, clockHandler_apply, World.effect, World.tick_ticked,
          hcache, hfresh, heldClock, medianAnswer, heightAnswer, cacheAnswer]
        exact hrun
      · rw [hcore]
        simp [World.tick_ticked, hfresh]

/-! ### The two users of the clock -/

/-- What a run that takes notes says about the plain run. -/
theorem heldAfter_of_run {α : Type} {prog : M α} {o : Except Failure α} {w' : World}
    {held : Option (ChainSource × Nat)}
    (h : prog.run (clockHandler env cachedFrom) (w, none) = (o, w', held)) :
    (prog.run (World.exec env) w).1 = o ∧ heldAfter env cachedFrom w prog = held := by
  rw [Prog.run_noting] at h
  exact ⟨congrArg (·.1) h, congrArg (·.2.2) h⟩

/-- A function of the value of `prog` holds the same clock value as `prog`. -/
theorem heldAfter_map {α β : Type} {prog : M α} {o : Except Failure α} {w' : World}
    {held : Option (ChainSource × Nat)}
    (h : prog.run (clockHandler env cachedFrom) (w, none) = (o, w', held)) (f : α → β) :
    ((prog.bind fun a => .ret (f a)).run (World.exec env) w).1 = o.map f ∧
      heldAfter env cachedFrom w (prog.bind fun a => .ret (f a)) = held := by
  have hrun : (prog.bind fun a => .ret (f a)).run (clockHandler env cachedFrom) (w, none) =
      (o.map f, w', held) := by
    rw [Prog.run_bind, h]
    cases o <;> rfl
  exact heldAfter_of_run cachedFrom hrun

/-- `is_locktime_satisfied` decides by a value of Core's where `CoreGivesGate` says so. -/
theorem gate_reads_core_iff (nlocktime : Option Nat) :
    GateReads env cachedFrom p w nlocktime .bitcoinCore ↔
      CoreGivesGate env cachedFrom p w nlocktime := by
  unfold GateReads CoreGivesGate
  split
  · simp [isLocktimeSatisfied, heldAfter, Prog.answers]
  · simp [isLocktimeSatisfied, heldAfter, Prog.answers]
  · rename_i n hzero
    by_cases htime : 500000000 < n
    · obtain ⟨o, w', held, hrun, -, hcore⟩ :=
        @getMedianTimePastCached_held env cachedFrom p w
      obtain ⟨houtcome, hheld⟩ := heldAfter_map cachedFrom hrun fun mtp => decide (n ≤ mtp)
      rw [if_pos htime, ← hcore, isLocktimeSatisfied_time htime, houtcome, hheld]
      cases o with
      | error e => simp [Except.map]
      | ok mtp => simp [Except.map]
    · obtain ⟨w', held, hrun, hcore⟩ :=
        @checkBlockHeight_held env cachedFrom p w
      obtain ⟨houtcome, hheld⟩ := heldAfter_map cachedFrom hrun (heightReached n)
      rw [if_neg htime, ← hcore, isLocktimeSatisfied_height htime hzero, houtcome, hheld]
      simp [Except.map]

/-- The action asks for no clock value. -/
def KeepsClock (a : Act) : Prop := ∀ held r, heldClock cachedFrom held ⟨a, r⟩ = held

/-- What the monitor does with the height it has read. -/
def markReached (env : Env) (network : String) : Option Nat → M Unit
  | some height => do
    let txs ← getPendingByBlockHeight network
    Prog.forEach txs (markBlockReached env height)
  | none => pure ()

/-- After the height, the monitor asks for no clock value. -/
theorem uses_markReached (network : String) (height : Option Nat) :
    (markReached env network height).Uses (KeepsClock cachedFrom) := by
  cases height with
  | none => exact Prog.uses_ret _
  | some height =>
    refine Prog.uses_bind (uses_orFail _ (uses_act fun held r => rfl)) fun txs => ?_
    refine Prog.uses_forEach txs fun tx _ => uses_logErrorIf _ ?_
    refine Prog.uses_bind (Prog.uses_bind (uses_act fun held r => rfl)
      fun now => Prog.uses_ret _) fun now => ?_
    exact Prog.uses_bind (uses_orFail _ (uses_act fun held r => rfl))
      fun _ => uses_orFail _ (uses_act fun held r => rfl)

/-- With the config at hand and a clock available, the pass reads the height and then marks the
rows that have reached it. -/
theorem monitor_run (hconfig : env.configPoisoned w.tick = false)
    (havailable : (w.pm p).chainHealth.clockAvailable = true) :
    (blockHeightMonitorPass env p).run (clockHandler env cachedFrom) (w, none) =
      ((checkBlockHeight p).bind (markReached env (w.pm p).config.network)).run
        (clockHandler env cachedFrom) ({ w with tick := w.tick + 2 }, none) := by
  unfold blockHeightMonitorPass configNetwork
  rw [Prog.bind_eq, Prog.run_bind, Prog.bind_eq, Prog.run_bind, run_orRaise]
  simp only [perform, Prog.run_perform, clockHandler_apply, World.effect, hconfig,
    Bool.false_eq_true, if_false, Prog.pure_eq_ret, Prog.run_ret, Prog.bind_eq]
  rw [Prog.run_bind, Prog.run_perform]
  simp only [clockHandler_apply, World.effect, World.ticked_pm, havailable, if_true]
  congr 2

/-- The height of `run_block_height_monitor` is Core's where `CoreGivesMonitor` says so. -/
theorem monitor_reads_core_iff :
    MonitorReads env cachedFrom p w .bitcoinCore ↔ CoreGivesMonitor env p w := by
  have hheld : heldAfter env cachedFrom w (blockHeightMonitorPass env p) =
      (((blockHeightMonitorPass env p).run (clockHandler env cachedFrom) (w, none)).2).2 := by
    rw [Prog.run_noting]
    rfl
  unfold MonitorReads CoreGivesMonitor
  rw [hheld]
  cases hconfig : env.configPoisoned w.tick with
  | true =>
    unfold blockHeightMonitorPass configNetwork
    rw [Prog.bind_eq, Prog.run_bind, Prog.bind_eq, Prog.run_bind, run_orRaise]
    simp [perform, clockHandler_apply, World.effect, hconfig, heldClock, medianAnswer,
      heightAnswer, cacheAnswer]
  | false =>
    cases havailable : (w.pm p).chainHealth.clockAvailable with
    | false =>
      unfold blockHeightMonitorPass configNetwork
      rw [Prog.bind_eq, Prog.run_bind, Prog.bind_eq, Prog.run_bind, run_orRaise]
      simp [perform, Prog.run_bind, clockHandler_apply, World.effect, hconfig, havailable,
        heldClock, medianAnswer, heightAnswer, cacheAnswer]
    | true =>
      obtain ⟨w', held, hrun, hcore⟩ :=
        @checkBlockHeight_held env cachedFrom p { w with tick := w.tick + 2 }
      rw [← hcore, monitor_run cachedFrom hconfig havailable, Prog.run_bind, hrun]
      have hkept := Prog.run_noting_of_uses (World.exec env)
        (fun a (ha : KeepsClock cachedFrom a) g r => ha g r)
        (@uses_markReached env cachedFrom (w.pm p).config.network (held.map (·.2)))
        w' held
      simp only [hkept, true_and]

end Runs

/-! ### Every reachable state -/

variable (env : Env) (w₀ : World) (chs : List (Choice Act Act.Res Failure)) (p : Proc)

/-- In every state that any schedule leads to, a syncing Core is kept out of the gate and of the
block-height monitor where the indexer gives the height, where the fresh cached median time is
not Core's, and where Core does not answer; nowhere else. -/
theorem syncing_core_kept_out_iff :
    (∀ nlocktime,
      (CoreSyncing p (w₀.after env chs) →
        ¬ GateReads env (cacheOrigin env w₀ chs p) p (w₀.after env chs) nlocktime
          .bitcoinCore) ↔
      (CoreSyncing p (w₀.after env chs) →
        ¬ CoreGivesGate env (cacheOrigin env w₀ chs p) p (w₀.after env chs) nlocktime)) ∧
    ((CoreSyncing p (w₀.after env chs) →
        ¬ MonitorReads env (cacheOrigin env w₀ chs p) p (w₀.after env chs) .bitcoinCore) ↔
      (CoreSyncing p (w₀.after env chs) → ¬ CoreGivesMonitor env p (w₀.after env chs))) := by
  refine ⟨fun nlocktime => ?_, ?_⟩
  · rw [gate_reads_core_iff]
  · rw [monitor_reads_core_iff]

/-- Core answers, and says that it is still in initial block download. -/
def syncingEnv : Env :=
  { sampleEnv with rpcChainStatus := fun _ => .ok (90, 1500000000, true) }

/-- A daemon with both backends. -/
def bothBackends : World :=
  { sampleWorld with daemon := { sampleWorld.daemon with rpc := true } }

/-- One poll of the two backends. -/
def onePoll : List (Choice Act Act.Res Failure) :=
  .start (Activity.chainHealthPoll.prog syncingEnv) :: List.replicate 10 (.step 0)

/-- After one poll the indexer is up and Core is syncing, and the gate of a time lock reads the
median time that the poll has taken from Core. -/
theorem gate_reads_syncing_core :
    CoreSyncing .daemon (bothBackends.after syncingEnv onePoll) ∧
      ((bothBackends.after syncingEnv onePoll).pm .daemon).chainHealth.source = .indexer ∧
      GateReads syncingEnv (cacheOrigin syncingEnv bothBackends onePoll .daemon) .daemon
        (bothBackends.after syncingEnv onePoll) (some 1600000000) .bitcoinCore := by
  refine ⟨?_, ?_, ⟨false, ?_⟩, ?_⟩
  · show _ = _
    decide +kernel
  · decide +kernel
  · rfl
  · decide +kernel

end BroadcastPool
