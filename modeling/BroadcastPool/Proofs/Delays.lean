import BroadcastPool.Proofs.Electrum.Crash

/-!
# `BroadcastPool.Proofs.Delays`: when a random delay is sound

`schedule_transaction` and `resolve_broadcast_plan` draw a number of hours between two bounds that
nothing checks, cast it to a signed number and make a duration of it. The cast turns a number from
2^63 on into a negative one, and a number of hours that is too large for milliseconds of 64 bits
makes the duration panic. Both are excluded exactly if the larger bound is at most `maxHours`
(`delay_total_iff`).

The fees have a draw of their own, which panics on a range that the random library refuses.
-/

set_option autoImplicit false

namespace BroadcastPool

open Effects

/-! ### Hours -/

/-- The longest duration in hours. -/
def maxHours : Nat := 2562047788015

/-- The nanoseconds of some hours. -/
def hoursNs (n : Nat) : Int := 3600 * n * 1000000000

theorem hoursFit_iff {n : Nat} : HoursFit n ↔ n ≤ maxHours := by
  unfold HoursFit maxHours
  omega

theorem asI64_eq_iff {n : Nat} : asI64 n = n ↔ n < 2 ^ 63 := by
  unfold asI64
  split <;> omega

/-- The larger bound is a number of hours exactly if every number of the range keeps its value in
the cast and is a number of hours. -/
theorem bound_iff {lo hi : Nat} (h : lo ≤ hi) :
    hi ≤ maxHours ↔ ∀ n, lo ≤ n → n ≤ hi → asI64 n = n ∧ HoursFit (asI64 n) := by
  constructor
  · intro hle n _ hn
    have hcast : asI64 n = n := asI64_eq_iff.2 (by unfold maxHours at hle; omega)
    rw [hcast]
    exact ⟨rfl, hoursFit_iff.2 (hn.trans hle)⟩
  · intro hall
    obtain ⟨hcast, hfit⟩ := hall hi h le_rfl
    rw [hcast] at hfit
    exact hoursFit_iff.1 hfit

/-! ### Soundness -/

/-- The answers of a world in which the configuration is this one. -/
def configured (config : Config) : (a : Act) → a.Res → Prop
  | .lockConfig _, r => ∀ c, r = .ok c → c = config
  | _, _ => True

theorem freeDraws_configured (config : Config) : FreeDraws (configured config) :=
  ⟨fun _ => trivial, fun _ => trivial⟩

/-- What the clock showed, each time it was read. -/
def clockReads : List (Seen Act Act.Res) → List DateTime
  | [] => []
  | ⟨.now, t⟩ :: l => t :: clockReads l
  | _ :: l => clockReads l

/-- The time is at least `lo` and at most `hi` hours after the first look at the clock. -/
def InDelay (lo hi : Nat) (seen : List (Seen Act Act.Res)) (time : DateTime) : Prop :=
  ∃ now, (clockReads seen).head? = some now ∧ now + hoursNs lo ≤ time ∧ time ≤ now + hoursNs hi

/-- A row is scheduled for a time between the two delays. -/
def TimelyUpdate (env : Env) (lo hi : Nat) (seen : List (Seen Act Act.Res)) (a : Act) : Prop :=
  ∀ id text fee updated, a = .update (.scheduleRaw id text fee updated) →
    ∃ time, text = env.toRfc3339 time ∧ InDelay lo hi seen time

/-- A random delay between two bounds: the range has an element, and none of its elements is cast
to another number. -/
structure DrawSound (config : Config) (lo hi : Nat) : Prop where
  nonempty : lo ≤ hi
  cast : ∀ n, (genRange lo hi).Ends (configured config) (.ok n) → asI64 n = n

/-- The input of `schedule_transaction`. -/
structure ScheduleRequest where
  id : String
  minDelayHours : Option Nat := none
  maxDelayHours : Option Nat := none
  minFeeRate : Option F64 := none
  maxFeeRate : Option F64 := none
  fixedFeeRate : Option F64 := none

namespace ScheduleRequest
variable (request : ScheduleRequest) (env : Env) (p : Proc) (config : Config)

/-- The call. -/
def prog : M BroadcastTx :=
  scheduleTransaction env p request.id request.minDelayHours request.maxDelayHours
    request.minFeeRate request.maxFeeRate request.fixedFeeRate

/-- The lower bound of the delay. -/
def lo : Nat := request.minDelayHours.getD config.schedule.minDelayHours

/-- The upper bound of the delay. -/
def hi : Nat := max (request.maxDelayHours.getD config.schedule.maxDelayHours) (request.lo config)

/-- The random library accepts the range of fee rates, if it is asked. -/
def FeesOk : Prop :=
  request.fixedFeeRate = none →
    env.floatRangeOk (request.minFeeRate.getD config.schedule.minFeeRate)
      ((request.maxFeeRate.getD config.schedule.maxFeeRate).max
        (request.minFeeRate.getD config.schedule.minFeeRate)) = true

end ScheduleRequest

/-- The bounds of the delay that `resolve_broadcast_plan` draws. -/
def planLo (config : Config) : Nat := config.schedule.minDelayHours

/-- The upper bound. -/
def planHi (config : Config) : Nat :=
  max config.schedule.maxDelayHours config.schedule.minDelayHours

/-- The delays are sound: both functions return or fail with an error, whatever is drawn, and a
time that they make from a delay is between the bounds. -/
structure DelayTotal (env : Env) (p : Proc) (config : Config) (request : ScheduleRequest) :
    Prop where
  scheduleReturns : PanicFree (configured config) (request.prog env p)
  scheduleDraw : DrawSound config (request.lo config) (request.hi config)
  scheduleTime : (request.prog env p).OnPaths (configured config)
    (TimelyUpdate env (request.lo config) (request.hi config)) []
  planReturns : PanicFree (configured config) (resolveBroadcastPlan env config)
  planDraw : PlanDrawsDelay env config.schedule → DrawSound config (planLo config) (planHi config)
  planTime : PlanDrawsDelay env config.schedule → ∀ seen mode time,
    (resolveBroadcastPlan env config).Path (configured config) seen (.ok (mode, some time)) →
      InDelay (planLo config) (planHi config) seen time

/-- The bounds are numbers of hours, and the fee rates are a range. -/
structure DelaySafe (env : Env) (config : Config) (request : ScheduleRequest) : Prop where
  schedule : request.hi config ≤ maxHours
  fees : request.FeesOk env config
  plan : PlanDrawsDelay env config.schedule → planHi config ≤ maxHours

variable {env : Env} {p : Proc} {config : Config} {request : ScheduleRequest}

theorem drawSound_iff {lo hi : Nat} (h : lo ≤ hi) :
    DrawSound config lo hi ↔ ∀ n, lo ≤ n → n ≤ hi → asI64 n = n := by
  constructor
  · intro hsound n hlo hhi
    exact hsound.cast n ((ends_genRange_iff (freeDraws_configured config) h).2 ⟨hlo, hhi⟩)
  · intro hall
    refine ⟨h, fun n hends => ?_⟩
    obtain ⟨hlo, hhi⟩ := range_of_ends_genRange h hends
    exact hall n hlo hhi

/-- A time that is a drawn number of hours after `now`. -/
theorem inDelay_of_checkedAdd {lo hi n : Nat} {now time : DateTime}
    {seen : List (Seen Act Act.Res)} (hlo : lo ≤ n) (hhi : n ≤ hi) (hcast : asI64 n = n)
    (hnow : (clockReads seen).head? = some now)
    (htime : checkedAddSigned now (3600 * asI64 n * 1000000000) = some time) :
    InDelay lo hi seen time := by
  rw [hcast] at htime
  unfold checkedAddSigned at htime
  split at htime
  · cases htime
    have hmono : ∀ {a b : Nat}, a ≤ b → hoursNs a ≤ hoursNs b := by
      intro a b hab
      unfold hoursNs
      omega
    exact ⟨now, hnow, Int.add_le_add_left (hmono hlo) now, Int.add_le_add_left (hmono hhi) now⟩
  · cases htime

theorem eq_of_path_durationHours {answers : (a : Act) → a.Res → Prop} {h duration : Int}
    {seen : List (Seen Act Act.Res)}
    (hpath : (durationHours h).Path answers seen (.ok duration)) :
    duration = 3600 * h * 1000000000 := by
  unfold durationHours at hpath
  split at hpath
  · obtain ⟨-, hok⟩ := Prog.path_ret_iff.1 hpath
    exact Except.ok.inj hok
  · obtain ⟨-, hok⟩ := Prog.path_fail_iff.1 hpath
    cases hok

/-! ### `resolve_broadcast_plan` -/

/-- A time that the plan makes from a delay is between the bounds. -/
theorem planTime_of_cast
    (hcast : ∀ n, planLo config ≤ n → n ≤ planHi config → asI64 n = n)
    (hdraws : PlanDrawsDelay env config.schedule) {seen : List (Seen Act Act.Res)}
    {mode : BroadcastMode} {time : DateTime}
    (hpath : (resolveBroadcastPlan env config).Path (configured config) seen
      (.ok (mode, some time))) : InDelay (planLo config) (planHi config) seen time := by
  unfold resolveBroadcastPlan at hpath
  rw [hdraws.1] at hpath
  dsimp only at hpath
  rw [hdraws.2] at hpath
  dsimp only at hpath
  obtain ⟨n, l₁, l₂, hdraw, hrest, rfl⟩ := Prog.path_bind_ok hpath
  obtain ⟨hlo, hhi⟩ := range_of_ends_genRange (Nat.le_max_right _ _) ⟨l₁, hdraw⟩
  obtain ⟨r, l₃, l₄, hrandom, hret, rfl⟩ := Prog.path_bind_ok hdraw
  obtain ⟨_, -, rfl, -⟩ := Prog.path_perform_iff.1 hrandom
  obtain ⟨rfl, -⟩ := Prog.path_ret_iff.1 hret
  obtain ⟨now, l₅, l₆, hnow, hlast, rfl⟩ := Prog.path_bind_ok hrest
  obtain ⟨_, -, rfl, hok⟩ := Prog.path_perform_iff.1 hnow
  cases hok
  obtain ⟨duration, l₇, l₈, hduration, hpair, rfl⟩ := Prog.path_bind_ok hlast
  obtain ⟨-, hplan⟩ := Prog.path_ret_iff.1 hpair
  have htime : checkedAddSigned now duration = some time :=
    (congrArg Prod.snd (Except.ok.inj hplan)).symm
  rw [eq_of_path_durationHours hduration] at htime
  exact inDelay_of_checkedAdd hlo hhi (hcast n hlo hhi) rfl htime

/-! ### `schedule_transaction` -/

/-- The fee rate is drawn with a panic exactly if it is drawn, from a range that is refused. -/
theorem canPanic_chooseFeeRate_iff {answers : (a : Act) → a.Res → Prop} {fixed : Option F64}
    {minFee maxFee : F64} :
    CanPanic answers (chooseFeeRate env fixed minFee maxFee) ↔
      ¬ (fixed = none → env.floatRangeOk minFee (maxFee.max minFee) = true) := by
  cases fixed with
  | some f => exact iff_of_false (not_canPanic_ret _) (not_not.2 nofun)
  | none =>
    show CanPanic answers (genRangeF64 env minFee (maxFee.max minFee)) ↔ _
    unfold genRangeF64
    split
    · rename_i hok
      exact iff_of_false (panicFree_iff.1 (within_act _)) (not_not.2 fun _ => hok)
    · rename_i hrefused
      exact iff_of_true (canPanic_fail _) fun hok => hrefused (hok rfl)

theorem exists_ends_chooseFeeRate {fixed : Option F64} {minFee maxFee : F64}
    (h : fixed = none → env.floatRangeOk minFee (maxFee.max minFee) = true) :
    ∃ fee, (chooseFeeRate env fixed minFee maxFee).Ends (configured config) (.ok fee) := by
  cases fixed with
  | some f => exact ⟨f, Prog.ends_ret_iff.2 rfl⟩
  | none =>
    show ∃ fee, (genRangeF64 env minFee (maxFee.max minFee)).Ends (configured config) (.ok fee)
    unfold genRangeF64
    rw [if_pos (h rfl)]
    exact ⟨minFee, ends_act (a := .randomF64 minFee (maxFee.max minFee)) trivial⟩

theorem configured_lockConfig_iff {c : Config} :
    configured config (.lockConfig p) (.ok c) ↔ c = config := by
  constructor
  · exact fun h => h c rfl
  · rintro rfl c' hc
    exact (Except.ok.inj hc).symm

/-- What `schedule_transaction` does with the time. -/
def finishSchedule (env : Env) (id : String) (fee : F64) : Option DateTime → M BroadcastTx
  | none => bail "Failed to calculate scheduled time"
  | some scheduledTime => do
    let updated ← nowText env
    let _ ← orFail "Failed to execute raw SQL"
      (perform (.update (.scheduleRaw id (env.toRfc3339 scheduledTime)
        (env.f64ToString fee) updated)))
    getBroadcastTxById id

theorem panicFree_finishSchedule {answers : (a : Act) → a.Res → Prop} (id : String) (fee : F64)
    (time : Option DateTime) : PanicFree answers (finishSchedule env id fee time) := by
  cases time with
  | none => exact Prog.within_fail trivial
  | some t =>
    refine Prog.within_seq (panicFree_of_neverFails neverFails_nowText) fun updated => ?_
    exact Prog.within_seq (within_orFail trivial (within_act _))
      fun _ => panicFree_getBroadcastTxById id

theorem canPanic_scheduleTransaction_iff :
    CanPanic (configured config) (request.prog env p) ↔
      ¬ ((∀ n, request.lo config ≤ n → n ≤ request.hi config → HoursFit (asI64 n)) ∧
        request.FeesOk env config) := by
  have hrange : request.lo config ≤ request.hi config := Nat.le_max_right _ _
  unfold ScheduleRequest.prog scheduleTransaction
  rw [Prog.bind_eq, canPanic_seq_iff (within_orRaise (fun _ => trivial) (within_act _))]
  constructor
  · rintro ⟨c, hconfig, hpanic⟩ ⟨hhours, hfees⟩
    rw [configured_lockConfig_iff.1 (answers_of_ends_lockConfig hconfig)] at hpanic
    obtain ⟨n, hdraw, hpanic⟩ := (canPanic_seq_iff (panicFree_genRange _ _)).1 hpanic
    obtain ⟨hlo, hhi⟩ := range_of_ends_genRange hrange hdraw
    rcases canPanic_bind_iff.1 hpanic with hpanic | ⟨fee, -, hpanic⟩
    · exact canPanic_chooseFeeRate_iff.1 hpanic hfees
    · obtain ⟨now, -, hpanic⟩ := (canPanic_seq_iff (within_act _)).1 hpanic
      rcases canPanic_bind_iff.1 hpanic with hpanic | ⟨duration, -, hpanic⟩
      · exact canPanic_durationHours_iff.1 hpanic (hhours n hlo hhi)
      · exact panicFree_iff.1 (panicFree_finishSchedule _ _ _) hpanic
  · intro hbad
    refine ⟨config, ends_lockConfig (configured_lockConfig_iff.2 rfl), ?_⟩
    refine (canPanic_seq_iff (panicFree_genRange _ _)).2 ?_
    have hends : ∀ {n}, request.lo config ≤ n → n ≤ request.hi config →
        (genRange (request.lo config) (request.hi config)).Ends (configured config) (.ok n) :=
      fun hlo hhi => (ends_genRange_iff (freeDraws_configured config) hrange).2 ⟨hlo, hhi⟩
    by_cases hfees : request.FeesOk env config
    · -- Some number of the range is no duration.
      obtain ⟨n, hlo, hhi, hover⟩ : ∃ n, request.lo config ≤ n ∧ n ≤ request.hi config ∧
          ¬ HoursFit (asI64 n) := by
        by_contra hnone
        push Not at hnone
        exact hbad ⟨hnone, hfees⟩
      obtain ⟨fee, hfee⟩ := exists_ends_chooseFeeRate hfees
      refine ⟨n, hends hlo hhi, canPanic_bind_iff.2 (Or.inr ⟨fee, hfee, ?_⟩)⟩
      refine (canPanic_seq_iff (within_act _)).2 ⟨(0 : DateTime), ends_act (a := .now) trivial, ?_⟩
      exact canPanic_bind_iff.2 (Or.inl (canPanic_durationHours_iff.2 hover))
    · exact ⟨_, hends le_rfl hrange, canPanic_bind_iff.2 (Or.inl
        (canPanic_chooseFeeRate_iff.2 hfees))⟩

theorem clockReads_append (l l' : List (Seen Act Act.Res)) :
    clockReads (l ++ l') = clockReads l ++ clockReads l' := by
  induction l using clockReads.induct with
  | case1 => rfl
  | case2 t l ih => exact congrArg (t :: ·) ih
  | case3 e l hne ih =>
    rw [List.cons_append, clockReads.eq_3 _ _ hne, clockReads.eq_3 _ _ hne]
    exact ih

/-- A later look at the clock changes nothing. -/
theorem InDelay.append {lo hi : Nat} {seen : List (Seen Act Act.Res)} {time : DateTime}
    (h : InDelay lo hi seen time) (seen' : List (Seen Act Act.Res)) :
    InDelay lo hi (seen ++ seen') time := by
  obtain ⟨now, hnow, hlo, hhi⟩ := h
  refine ⟨now, ?_, hlo, hhi⟩
  rw [clockReads_append, List.head?_append, hnow]
  rfl

/-- The rest of the call writes the time that it is given. -/
theorem onPaths_finishSchedule {answers : (a : Act) → a.Res → Prop} {lo hi : Nat}
    {seen : List (Seen Act Act.Res)} (id : String) (fee : F64) {time : Option DateTime}
    (htime : ∀ t, time = some t → InDelay lo hi seen t) :
    (finishSchedule env id fee time).OnPaths answers (TimelyUpdate env lo hi) seen := by
  cases time with
  | none => exact Prog.onPaths_fail _ _
  | some t =>
    have hdelay := htime t rfl
    refine Prog.onPaths_perform_bind nofun fun updated _ => ?_
    refine Prog.onPaths_perform_bind ?_ fun r _ => ?_
    · intro id' text fee' updated' heq
      cases heq
      exact ⟨t, rfl, hdelay.append _⟩
    · cases r with
      | error e => exact Prog.onPaths_fail _ _
      | ok rows =>
        have hquiet : ∀ {a : Act} {l : List (Seen Act Act.Res)}, a.isQuiet = true →
            TimelyUpdate env lo hi l a := by
          rintro a l ha id' text fee' updated' rfl
          cases ha
        exact (Prog.keeps_of_uses (I := fun _ => True)
          (fun a ha l _ _ => ⟨hquiet ha, fun _ _ _ => trivial⟩)
          (quiet_getBroadcastTxById id)).onPaths trivial

/-- From the look at the clock on: the time is the drawn number of hours later. -/
theorem onPaths_afterDraw {answers : (a : Act) → a.Res → Prop} {lo hi n : Nat}
    {seen : List (Seen Act Act.Res)} (hlo : lo ≤ n) (hhi : n ≤ hi) (hcast : asI64 n = n)
    (hseen : clockReads seen = []) (id : String) (fee : F64) :
    ((perform .now).bind fun now => (durationHours (asI64 n)).bind fun delay =>
      finishSchedule env id fee (checkedAddSigned now delay)).OnPaths answers
      (TimelyUpdate env lo hi) seen := by
  refine Prog.onPaths_perform_bind nofun fun now _ => ?_
  unfold durationHours
  split
  · refine onPaths_finishSchedule id fee fun t ht => ?_
    refine inDelay_of_checkedAdd hlo hhi hcast ?_ ht
    rw [clockReads_append, hseen]
    rfl
  · exact Prog.onPaths_fail _ _

theorem timely_scheduleTransaction
    (hcast : ∀ n, request.lo config ≤ n → n ≤ request.hi config → asI64 n = n) :
    (request.prog env p).OnPaths (configured config)
      (TimelyUpdate env (request.lo config) (request.hi config)) [] := by
  have hrange : request.lo config ≤ request.hi config := Nat.le_max_right _ _
  unfold ScheduleRequest.prog scheduleTransaction
  rw [Prog.bind_eq, orRaise, Prog.bind_assoc]
  refine Prog.onPaths_perform_bind nofun fun r hr => ?_
  cases r with
  | error e => exact Prog.onPaths_fail _ _
  | ok c =>
    cases configured_lockConfig_iff.1 hr
    show ((genRange (request.lo config) (request.hi config)).bind _).OnPaths _ _ _
    rw [genRange, Prog.bind_eq, Prog.bind_assoc]
    refine Prog.onPaths_perform_bind nofun fun r _ => ?_
    have hdraw : (genRange (request.lo config) (request.hi config)).Ends (configured config)
        (.ok (request.lo config + r % (request.hi config - request.lo config + 1))) :=
      Prog.ends_bind_ok_iff.2 ⟨r, ends_act (a := .random) trivial, Prog.ends_ret_iff.2 rfl⟩
    obtain ⟨hlo, hhi⟩ := range_of_ends_genRange hrange hdraw
    have hn := hcast _ hlo hhi
    show ((chooseFeeRate env request.fixedFeeRate _ _).bind _).OnPaths _ _ _
    cases request.fixedFeeRate with
    | some fixed => exact onPaths_afterDraw hlo hhi hn rfl request.id fixed
    | none =>
      show ((genRangeF64 env _ _).bind _).OnPaths _ _ _
      unfold genRangeF64
      split
      · exact Prog.onPaths_perform_bind nofun fun fee _ =>
          onPaths_afterDraw hlo hhi hn rfl request.id fee
      · exact Prog.onPaths_fail _ _

/-- The delays are sound exactly if the bounds are numbers of hours and the fee rates are a
range. -/
theorem delay_total_iff (env : Env) (p : Proc) (config : Config) (request : ScheduleRequest) :
    DelayTotal env p config request ↔ DelaySafe env config request := by
  have hschedule : request.lo config ≤ request.hi config := Nat.le_max_right _ _
  have hplan : planLo config ≤ planHi config := Nat.le_max_right _ _
  constructor
  · rintro ⟨hreturns, hdraw, -, hplanReturns, hplanDraw, -⟩
    rw [panicFree_iff, canPanic_scheduleTransaction_iff, not_not] at hreturns
    refine ⟨?_, hreturns.2, fun hdraws => ?_⟩
    · rw [bound_iff hschedule]
      exact fun n hlo hhi => ⟨(drawSound_iff hschedule).1 hdraw n hlo hhi, hreturns.1 n hlo hhi⟩
    · rw [panicFree_iff, canPanic_resolveBroadcastPlan_iff (freeDraws_configured config),
        not_and, not_not] at hplanReturns
      rw [bound_iff hplan]
      exact fun n hlo hhi =>
        ⟨(drawSound_iff hplan).1 (hplanDraw hdraws) n hlo hhi, hplanReturns hdraws n hlo hhi⟩
  · rintro ⟨hhours, hfees, hplanHours⟩
    rw [bound_iff hschedule] at hhours
    refine ⟨?_, (drawSound_iff hschedule).2 fun n hlo hhi => (hhours n hlo hhi).1,
      timely_scheduleTransaction fun n hlo hhi => (hhours n hlo hhi).1, ?_, ?_, ?_⟩
    · rw [panicFree_iff, canPanic_scheduleTransaction_iff, not_not]
      exact ⟨fun n hlo hhi => (hhours n hlo hhi).2, hfees⟩
    · rw [panicFree_iff, canPanic_resolveBroadcastPlan_iff (freeDraws_configured config),
        not_and, not_not]
      exact fun hdraws n hlo hhi => ((bound_iff hplan).1 (hplanHours hdraws) n hlo hhi).2
    · exact fun hdraws => (drawSound_iff hplan).2 fun n hlo hhi =>
        ((bound_iff hplan).1 (hplanHours hdraws) n hlo hhi).1
    · intro hdraws seen mode time hpath
      exact planTime_of_cast
        (fun n hlo hhi => ((bound_iff hplan).1 (hplanHours hdraws) n hlo hhi).1) hdraws hpath

/-- A request for a delay of one hour more than a duration can have. -/
def longRequest : ScheduleRequest where
  id := "id0"
  minDelayHours := some 2562047788016
  maxDelayHours := some 2562047788016

/-- It makes the call panic. -/
theorem not_delay_total_longRequest :
    ¬ DelayTotal sampleEnv .daemon sampleConfig longRequest := by
  intro h
  refine panicFree_iff.1 h.scheduleReturns (canPanic_scheduleTransaction_iff.2 ?_)
  rintro ⟨hall, -⟩
  have hfit := hall 2562047788016 (by decide) (by decide)
  exact absurd hfit (by unfold HoursFit; decide)

end BroadcastPool
