import BroadcastPool.Proofs.Db.Seal
import BroadcastPool.Proofs.Releasable
import BroadcastPool.Proofs.Work
import BroadcastPool.Sample

/-!
# `BroadcastPool.Proofs.StuckRow`: which ingested rows the scheduler can release

`handle_broadcast` decides the mode, the target height and the insert under three acquisitions
of the config lock, and marks an immediate row after the insert. What other work does in between
shows only in the answers that the function gets, so a statement about all its paths
(`Prog.Path`) holds in every interleaving. `CanBeReleased` is the condition on the transaction,
the source label and these answers, and `releasable_ingested_iff` says that the row which a path
leaves is releasable exactly then.
-/

set_option autoImplicit false

namespace BroadcastPool

open Effects

/-- The answers that one program has had. -/
abbrev Log : Type := List (Seen Act Act.Res)

namespace Log

/-- The configuration that a step read. -/
def configOf : Seen Act Act.Res → Option BroadcastPool.Config
  | ⟨.lockConfig _, .ok config⟩ => some config
  | _ => none

/-- The chain height that a step read. -/
def tipOf : Seen Act Act.Res → Option (Option Nat)
  | ⟨.chainHealth _, health⟩ => some health.height
  | _ => none

/-- The target of the armed virtual block that a step captured. -/
def capturedOf : Seen Act Act.Res → Option Nat
  | ⟨.advanceVirtualBlock _, .ok target⟩ => target
  | _ => none

/-- The random number that a step drew. -/
def drawOf : Seen Act Act.Res → Option Nat
  | ⟨.random, n⟩ => some n
  | _ => none

/-- The clock reading of a step. -/
def timeOf : Seen Act Act.Res → Option DateTime
  | ⟨.now, t⟩ => some t
  | _ => none

/-- The row that a step inserted. -/
def insertedOf : Seen Act Act.Res → Option Row
  | ⟨.insert row, .ok ()⟩ => some row
  | _ => none

/-- The text of the time at which a step marked the row with an id. -/
def markOf (id : String) : Seen Act Act.Res → Option String
  | ⟨.update (.due target now), .ok _⟩ => if target = id then some now else none
  | _ => none

def configs (l : Log) : List BroadcastPool.Config := l.filterMap configOf
def tips (l : Log) : List (Option Nat) := l.filterMap tipOf
def captured (l : Log) : Option Nat := (l.filterMap capturedOf).head?
def draws (l : Log) : List Nat := l.filterMap drawOf
def times (l : Log) : List DateTime := l.filterMap timeOf

/-- The row that was inserted. -/
def inserted (l : Log) : Option Row := (l.filterMap insertedOf).head?

/-- The text of the time at which `mark_due` marked the inserted row. -/
def markedAt (l : Log) : Option String :=
  l.inserted.bind fun r => (l.filterMap (markOf r.id)).head?

/-- The row that the function leaves in the table. -/
def leftRow (env : Env) (l : Log) : Option Row :=
  l.inserted.map fun r =>
    match l.markedAt with
    | some now => r.marked env now
    | none => r

end Log

/-- The delay that a draw makes, added to a time. -/
def drawnTime (config : Config) (draw : Nat) (now : DateTime) : Option DateTime :=
  let lo := config.schedule.minDelayHours
  let hours := lo + draw % (max config.schedule.maxDelayHours lo - lo + 1)
  checkedAddSigned now (3600 * asI64 hours * 1000000000)

/-- The configured date of the mode `scheduled`, if it can be read. -/
def configuredTime (env : Env) (config : Config) : Option DateTime :=
  config.schedule.scheduledDatetime.bind fun s => (env.parseRfc3339 s).or (env.parseNaive s)

/-- The random delay is drawn, and added to the clock it gives a time. -/
def DrawsTime (config : Config) (l : Log) : Prop :=
  ∃ draw ∈ l.draws.head?, ∃ now ∈ l.times.head?, (drawnTime config draw now).isSome = true

/-- The condition on an ingest. `lockTime` is the transaction's own, and the log holds what the
configuration, the chain height, the virtual block, the random numbers and the clock were when
the function asked, and whether `mark_due` went through. -/
def CanBeReleased (env : Env) (sourceLabel : String) (lockTime : Nat) (l : Log) : Prop :=
  if sourceLabel = "liana" then
    0 < l.captured.getD lockTime ∧ l.captured.getD lockTime < 500000000
  else if 500000000 < lockTime then True
  else if 0 < lockTime ∧ lockTime < 500000000 then
    (∃ tip ∈ l.tips.head?, tip.any (lockTime ≤ ·) = true) → l.markedAt.isSome
  else ∃ config ∈ l.configs[1]?,
    match config.schedule.broadcastMode with
    | .immediate => l.markedAt.isSome
    | .scheduled => (configuredTime env config).isSome = true ∨ DrawsTime config l
    | .byBlock => False
    | .manual => True

/-! ### What later steps leave of a log -/

/-- The step reads neither the configuration, nor the chain, nor a random number. -/
def Act.isStoring : Act → Bool
  | now | uuid | nonce | insert _ | select _ | storePending .. | update _ | reseal _ => true
  | _ => false

/-- A log of storing steps. -/
def Log.Storing (l : Log) : Prop := ∀ s ∈ l, s.1.isStoring = true

namespace Log
variable {l l' : Log}

theorem draws_append (l l' : Log) : (l ++ l').draws = l.draws ++ l'.draws :=
  List.filterMap_append

/-- A storing step draws no random number. -/
theorem Storing.draws (h : l.Storing) : l.draws = [] := by
  refine List.filterMap_eq_nil_iff.2 fun s hs => ?_
  have hstep := h s hs
  obtain ⟨a, r⟩ := s
  cases a <;> first | rfl | cases hstep

/-- A storing step captures no virtual block. -/
theorem Storing.captured (h : l.Storing) : l.filterMap capturedOf = [] := by
  refine List.filterMap_eq_nil_iff.2 fun s hs => ?_
  have hstep := h s hs
  obtain ⟨a, r⟩ := s
  cases a <;> first | rfl | cases hstep

/-- A clock step captures no virtual block. -/
theorem captured_of_isClock (h : ∀ s ∈ l, s.1.isClock = true) : l.filterMap capturedOf = [] := by
  refine List.filterMap_eq_nil_iff.2 fun s hs => ?_
  have hstep := h s hs
  obtain ⟨a, r⟩ := s
  cases a <;> first | rfl | cases hstep

/-- The first clock reading stays the first. -/
theorem head?_times_append {t : DateTime} (h : l.times.head? = some t) :
    (l ++ l').times.head? = some t := by
  unfold times at h ⊢
  rw [List.filterMap_append, List.head?_append, h]
  rfl

end Log

/-! ### The parts of a path -/

/-- The plan is that of the configuration: a scheduled one has a time if one is configured or the
drawn delay gives one. A number is never drawn without a look at the clock. -/
structure FollowsConfig (env : Env) (config : Config) (plan : BroadcastMode × Option DateTime)
    (l : Log) : Prop where
  mode : plan.1 = config.schedule.broadcastMode
  time : plan.1 = .scheduled →
    (plan.2.isSome = true ↔ (configuredTime env config).isSome = true ∨ DrawsTime config l)
  clock : l.draws = [] ∨ ∃ now, l.times.head? = some now

/-- What `resolve_broadcast_plan` returns. -/
theorem path_resolveBroadcastPlan {env : Env} {config : Config} {l : Log}
    {plan : BroadcastMode × Option DateTime}
    (h : (resolveBroadcastPlan env config).Path anyAnswer l (.ok plan)) :
    FollowsConfig env config plan l := by
  unfold resolveBroadcastPlan at h
  cases hmode : config.schedule.broadcastMode with
  | immediate =>
    rw [hmode] at h
    obtain ⟨t, l₁, l₂, hnow, hret, rfl⟩ := Prog.path_bind_ok h
    obtain ⟨_, -, rfl, -⟩ := Prog.path_perform_iff.1 hnow
    obtain ⟨rfl, hplan⟩ := Prog.path_ret_iff.1 hret
    cases hplan
    exact ⟨hmode.symm, fun hs => by (cases hs), Or.inl rfl⟩
  | byBlock =>
    rw [hmode] at h
    obtain ⟨rfl, hplan⟩ := Prog.path_ret_iff.1 h
    cases hplan
    exact ⟨hmode.symm, fun hs => by (cases hs), Or.inl rfl⟩
  | manual =>
    rw [hmode] at h
    obtain ⟨rfl, hplan⟩ := Prog.path_ret_iff.1 h
    cases hplan
    exact ⟨hmode.symm, fun hs => by (cases hs), Or.inl rfl⟩
  | scheduled =>
    rw [hmode] at h
    dsimp only at h
    cases hconf : configuredTime env config with
    | some dt =>
      have hdt : (config.schedule.scheduledDatetime.bind fun s =>
        (env.parseRfc3339 s).or (env.parseNaive s)) = some dt := hconf
      rw [hdt] at h
      obtain ⟨rfl, hplan⟩ := Prog.path_ret_iff.1 h
      cases hplan
      exact ⟨hmode.symm, fun _ => by simp [hconf], Or.inl rfl⟩
    | none =>
      have hdt : (config.schedule.scheduledDatetime.bind fun s =>
        (env.parseRfc3339 s).or (env.parseNaive s)) = none := hconf
      rw [hdt] at h
      -- The random number and the clock are read in this order, and once each.
      obtain ⟨delay, l₁, l₂, hdelay, hrest, rfl⟩ := Prog.path_bind_ok h
      obtain ⟨draw, l₃, l₄, hdraw, hret, rfl⟩ := Prog.path_bind_ok hdelay
      obtain ⟨now, l₅, l₆, hnow, hdur, rfl⟩ := Prog.path_bind_ok hrest
      obtain ⟨d, l₇, l₈, hhours, hplan, rfl⟩ := Prog.path_bind_ok hdur
      obtain ⟨_, -, rfl, hr⟩ := Prog.path_perform_iff.1 hdraw
      cases hr
      obtain ⟨rfl, hr⟩ := Prog.path_ret_iff.1 hret
      cases hr
      obtain ⟨_, -, rfl, hr⟩ := Prog.path_perform_iff.1 hnow
      cases hr
      obtain ⟨rfl, hr⟩ := Prog.path_ret_iff.1 hplan
      cases hr
      unfold durationHours at hhours
      split at hhours
      · obtain ⟨rfl, hr⟩ := Prog.path_ret_iff.1 hhours
        cases hr
        have hd : (([⟨.random, draw⟩] ++ []) ++ ([⟨.now, now⟩] ++ ([] ++ [])) : Log).draws =
            [draw] :=
          rfl
        have ht : (([⟨.random, draw⟩] ++ []) ++ ([⟨.now, now⟩] ++ ([] ++ [])) : Log).times =
            [now] :=
          rfl
        refine ⟨hmode.symm, fun _ => ?_, Or.inr ⟨now, by rw [ht]; rfl⟩⟩
        unfold DrawsTime
        rw [hd, ht]
        simp [drawnTime, hconf]
      · obtain ⟨-, hr⟩ := Prog.path_fail_iff.1 hhours
        cases hr

/-- What `resolve_ingest_plan` returns. A liana transaction waits for a block or for the user, a
time or a height in the transaction decides the mode, and anything else follows the
configuration. -/
theorem path_resolveIngestPlan {env : Env} {sourceLabel : String} {lockTime : Nat}
    {config : Config} {height : Option Nat} {l : Log} {plan : BroadcastMode × Option DateTime}
    (h : (resolveIngestPlan env sourceLabel lockTime config height).Path anyAnswer l (.ok plan))
    (hmode : plan.1 ≠ .manual) :
    if sourceLabel = "liana" then plan.1 = .byBlock
    else if 500000000 < lockTime then plan.1 = .scheduled ∧ plan.2.isSome = true
    else if 0 < lockTime ∧ lockTime < 500000000 then
      plan.1 = if height.any (lockTime ≤ ·) = true then .immediate else .byBlock
    else FollowsConfig env config plan l := by
  unfold resolveIngestPlan at h
  by_cases hliana : sourceLabel = "liana"
  · rw [if_pos hliana] at h ⊢
    split at h
    · obtain ⟨-, hplan⟩ := Prog.path_ret_iff.1 h
      cases hplan
      rfl
    · obtain ⟨-, hplan⟩ := Prog.path_ret_iff.1 h
      cases hplan
      -- Liana without the virtual block is manual, which is excluded.
      exact absurd rfl hmode
  · rw [if_neg hliana] at h ⊢
    split at h
    · obtain ⟨-, hplan⟩ := Prog.path_ret_iff.1 h
      cases hplan
      exact absurd rfl hmode
    · by_cases htime : 500000000 < lockTime
      · rw [if_pos htime] at h ⊢
        obtain ⟨-, hplan⟩ := Prog.path_ret_iff.1 h
        cases hplan
        exact ⟨rfl, rfl⟩
      · rw [if_neg htime] at h ⊢
        by_cases hheight : 0 < lockTime ∧ lockTime < 500000000
        · rw [if_pos hheight] at h ⊢
          split at h
          · obtain ⟨t, l₁, l₂, -, hret, rfl⟩ := Prog.path_bind_ok h
            obtain ⟨-, hplan⟩ := Prog.path_ret_iff.1 hret
            cases hplan
            simp_all
          · obtain ⟨-, hplan⟩ := Prog.path_ret_iff.1 h
            cases hplan
            simp_all
        · rw [if_neg hheight] at h ⊢
          exact path_resolveBroadcastPlan h

/-- The target that `handle_broadcast` gets for a liana transaction is what its step captured. -/
theorem path_captureVirtualBlock {p : Proc} {mode : BroadcastMode} {sourceLabel : String}
    {l : Log} {target : Option Nat}
    (h : (captureVirtualBlock p mode sourceLabel).Path anyAnswer l (.ok target)) :
    (mode = .byBlock ∧ sourceLabel = "liana" → l.captured = target) ∧
      (¬ (mode = .byBlock ∧ sourceLabel = "liana") → target = none) ∧ l.draws = [] := by
  unfold captureVirtualBlock at h
  split at h
  · rename_i hliana
    obtain ⟨r, -, rfl, hr⟩ := Prog.path_perform_iff.1 (path_orRaise_ok h)
    cases hr
    refine ⟨fun _ => ?_, fun hnot => absurd hliana hnot, rfl⟩
    cases target <;> rfl
  · rename_i hother
    obtain ⟨rfl, htarget⟩ := Prog.path_ret_iff.1 h
    cases htarget
    exact ⟨fun hliana => absurd hliana hother, fun _ => rfl, rfl⟩

/-! ### The insert and the mark -/

/-- A step after the plan: it only stores, inserts a row of the request, and updates a row only
if the plan is immediate. -/
def StoresPlan (env : Env) (req : NewBroadcastTx) (mode : BroadcastMode) (a : Act) : Prop :=
  a.isStoring = true ∧ (∀ row, a = .insert row → IsNewRow env req row) ∧
    ∀ u, a = .update u → mode = .immediate

section
variable {env : Env} {req : NewBroadcastTx} {mode : BroadcastMode}

theorem storesPlan_of_isStoring {a : Act} (h : a.isStoring = true)
    (hinsert : ∀ row, a ≠ .insert row) (hupdate : ∀ u, a ≠ .update u) :
    StoresPlan env req mode a :=
  ⟨h, fun row ha => absurd ha (hinsert row), fun u ha => absurd ha (hupdate u)⟩

theorem uses_insertBroadcastTx :
    (insertBroadcastTx env req).Uses (StoresPlan env req mode) := by
  have hnonce : ∀ plaintext aad, (encode env plaintext aad).Uses (StoresPlan env req mode) :=
    fun _ _ => Prog.uses_bind (uses_act (storesPlan_of_isStoring rfl (by simp) (by simp)))
      fun _ => Prog.uses_ret _
  have hnonce? : ∀ plaintext aad,
      (encode? env plaintext aad).Uses (StoresPlan env req mode) := by
    intro plaintext aad
    cases plaintext with
    | none => exact Prog.uses_ret _
    | some s => exact Prog.uses_bind (hnonce s aad) fun _ => Prog.uses_ret _
  refine Prog.uses_bind (uses_act (storesPlan_of_isStoring rfl (by simp) (by simp))) fun id => ?_
  refine Prog.uses_bind (Prog.uses_bind (uses_act (storesPlan_of_isStoring rfl (by simp) (by simp)))
    fun _ => Prog.uses_ret _) fun now => ?_
  refine Prog.uses_bind (hnonce _ _) fun encTxHex => ?_
  refine Prog.uses_bind (hnonce? _ _) fun encDest => ?_
  refine Prog.uses_bind (hnonce? _ _) fun encSource => ?_
  refine Prog.uses_ensure_bind fun hlt => ?_
  refine Prog.uses_bind (uses_orFail _ (uses_act ⟨rfl, fun row hrow => ?_, by simp⟩)) fun _ => ?_
  · cases hrow
    exact ⟨hlt, id, now, encTxHex, encDest, encSource, rfl⟩
  · refine Prog.uses_bind
      (uses_orFail _ (uses_act (storesPlan_of_isStoring rfl (by simp) (by simp)))) fun txs => ?_
    cases txs with
    | nil => exact Prog.uses_fail _
    | cons tx txs => exact Prog.uses_ret _

/-- The mark of an immediate transaction. -/
theorem uses_logMarkDue (id : String) :
    (logErrorIf (mode = .immediate) (markDue env id)).Uses (StoresPlan env req mode) := by
  unfold logErrorIf
  split
  · rename_i himm
    have hmode : mode = .immediate := by simpa using himm
    refine Prog.uses_bind (uses_catchErr ?_) fun _ => Prog.uses_ret _
    refine Prog.uses_bind (Prog.uses_bind
      (uses_act (storesPlan_of_isStoring rfl (by simp) (by simp))) fun _ => Prog.uses_ret _)
      fun now => ?_
    refine Prog.uses_bind (uses_orFail _ (uses_act ⟨rfl, by simp, fun _ _ => hmode⟩))
      fun _ => ?_
    exact uses_orFail _ (uses_act (storesPlan_of_isStoring rfl (by simp) (by simp)))
  · exact Prog.uses_ret _

/-- What `handle_broadcast` does once it has the plan and the target. -/
theorem uses_storePlan (p : Proc) (txid txHex : String) :
    (do
      let imported ← importTransaction env req
      storePendingOutputs env p txid txHex
      logErrorIf (mode = .immediate) (markDue env imported.id)
      return txid : M String).Uses (StoresPlan env req mode) := by
  refine Prog.uses_bind uses_insertBroadcastTx fun imported => ?_
  refine Prog.uses_bind (uses_act (storesPlan_of_isStoring rfl (by simp) (by simp))) fun _ => ?_
  exact Prog.uses_bind (uses_logMarkDue _) fun _ => Prog.uses_ret _

end

/-- A step that looks something up inserts nothing. -/
theorem insertedOf_of_isLookup {s : Seen Act Act.Res} (h : s.1.isLookup = true) :
    Log.insertedOf s = none := by
  obtain ⟨a, r⟩ := s
  cases a <;> first | rfl | cases h

/-- A step that looks something up marks nothing. -/
theorem markOf_of_isLookup (id : String) {s : Seen Act Act.Res} (h : s.1.isLookup = true) :
    Log.markOf id s = none := by
  obtain ⟨a, r⟩ := s
  cases a <;> first | rfl | cases h

/-- A path with an insert has got past every part that only looks things up. -/
theorem path_bind_inserts {α β : Type} {p : M α} {f : α → M β} (hp : IsLookup p) {l : Log}
    {o : Except Failure β} (h : (p.bind f).Path anyAnswer l o) (hins : l.inserted.isSome = true) :
    ∃ (a : α) (l₁ l₂ : Log), p.Path anyAnswer l₁ (.ok a) ∧ (f a).Path anyAnswer l₂ o ∧
      l = l₁ ++ l₂ ∧ l₂.inserted.isSome = true := by
  have hnone : ∀ {l' : Log} {o' : Except Failure α}, p.Path anyAnswer l' o' →
      l'.filterMap Log.insertedOf = [] := fun hpath =>
    List.filterMap_eq_nil_iff.2 fun s hs => insertedOf_of_isLookup (hp.path hpath s hs)
  rcases Prog.path_bind_iff.1 h with ⟨a, l₁, l₂, hl₁, hl₂, rfl⟩ | ⟨e, hl, -⟩
  · refine ⟨a, l₁, l₂, hl₁, hl₂, rfl, ?_⟩
    unfold Log.inserted at hins ⊢
    rwa [List.filterMap_append, hnone hl₁] at hins
  · unfold Log.inserted at hins
    rw [hnone hl] at hins
    cases hins

/-- A path of `handle_broadcast` that inserts: the configuration and the chain height are read,
then the plan is made, then a virtual block is captured, and the rest stores the plan. -/
theorem path_handleBroadcast {env : Env} {p : Proc} {txHex sourceLabel : String}
    {tx : Transaction} (hdecode : decodeTx env (Text.trim txHex) = .ok tx) {l : Log}
    {o : Except Failure String}
    (h : (handleBroadcast env p txHex sourceLabel).Path anyAnswer l o)
    (hins : l.inserted.isSome = true) :
    ∃ (c₀ config : Config) (health : ChainHealth) (plan : BroadcastMode × Option DateTime)
      (target : Option Nat) (lp lt ls : Log) (network : String),
      l = [⟨.lockConfig p, .ok c₀⟩, ⟨.chainHealth p, health⟩, ⟨.lockConfig p, .ok config⟩] ++
        (lp ++ (lt ++ ls)) ∧
      (resolveIngestPlan env sourceLabel tx.lockTime config health.height).Path anyAnswer lp
        (.ok plan) ∧
      (captureVirtualBlock p plan.1 sourceLabel).Path anyAnswer lt (.ok target) ∧
      ∀ s ∈ ls, StoresPlan env (ingestRequest (Text.trim txHex) network sourceLabel tx plan target)
        plan.1 s.1 := by
  have hreadHealth : IsLookup (perform (.chainHealth p)) := uses_act rfl
  have hreadConfig : IsLookup (orRaise (perform (.lockConfig p))) := uses_orRaise (uses_act rfl)
  unfold handleBroadcast at h
  dsimp only at h
  rw [hdecode] at h
  -- Peel the program off, bind by bind. A path that inserts passes each of the lookups, for none of
  -- them inserts.
  obtain ⟨network, l₀, l₁, hnet, h₁, rfl, hins₁⟩ :=
    path_bind_inserts (clock_configNetwork p).lookup h hins
  obtain ⟨health, l₂, l₃, hhealth, h₂, rfl, hins₂⟩ :=
    path_bind_inserts hreadHealth h₁ hins₁
  obtain ⟨config, l₄, l₅, hconfig, h₃, rfl, hins₃⟩ :=
    path_bind_inserts hreadConfig h₂ hins₂
  obtain ⟨plan, lp, l₆, hplan, h₄, rfl, hins₄⟩ :=
    path_bind_inserts (clock_resolveIngestPlan env _ _ _ _).lookup h₃ hins₃
  obtain ⟨target, lt, ls, htarget, h₅, rfl, -⟩ :=
    path_bind_inserts (lookup_captureVirtualBlock p _ _) h₄ hins₄
  obtain ⟨c₀, l₇, l₈, hc₀, hret, rfl⟩ := Prog.path_bind_ok hnet
  obtain ⟨rfl, -⟩ := Prog.path_ret_iff.1 hret
  obtain ⟨_, -, rfl, hr⟩ := Prog.path_perform_iff.1 (path_orRaise_ok hc₀)
  cases hr
  obtain ⟨_, -, rfl, hr⟩ := Prog.path_perform_iff.1 hhealth
  cases hr
  obtain ⟨_, -, rfl, hr⟩ := Prog.path_perform_iff.1 (path_orRaise_ok hconfig)
  cases hr
  refine ⟨c₀, config, health, plan, target, lp, lt, ls, network, by simp, hplan, htarget, ?_⟩
  exact (uses_storePlan p _ _).path h₅

/-! ### Which rows can be released -/

section
variable {env : Env} {txHex network sourceLabel : String} {tx : Transaction}
  {plan : BroadcastMode × Option DateTime} {target : Option Nat} {r : Row}

/-- The locktime column of an ingest. -/
theorem ingestRequest_nlocktime :
    (ingestRequest txHex network sourceLabel tx plan target).nlocktime.getD 0 =
      target.getD tx.lockTime := by
  cases target with
  | some n => rfl
  | none =>
    simp only [ingestRequest, Option.none_or, Option.getD_none]
    split
    · rfl
    · show 0 = tx.lockTime
      omega

/-- The value column of an ingest holds a number. -/
theorem newRow_totalValueBtc (hsats : ∀ n, (env.satsToBtc n).isNan = false)
    {id now encTxHex : String} {encDest encSource : Option String} :
    (newRow env (ingestRequest txHex network sourceLabel tx plan target) id now encTxHex encDest
      encSource).totalValueBtc ≠ none := by
  have hvalue : (((outputValueBtcFromHex env txHex).getD F64.zero).isNan) = false := by
    unfold outputValueBtcFromHex
    split
    · rfl
    · split
      · exact hsats _
      · rfl
  simp only [newRow, ingestRequest, Option.none_or, F64.toSql, hvalue]
  exact Option.some_ne_none _

/-- The row of an ingest can be read. -/
theorem IsNewRow.readable (hsats : ∀ n, (env.satsToBtc n).isNan = false)
    (hnew : IsNewRow env (ingestRequest txHex network sourceLabel tx plan target) r) :
    r.Readable := by
  obtain ⟨hlt, id, now, encTxHex, encDest, encSource, rfl⟩ := hnew
  exact (newRow_verifies hlt (newRow_totalValueBtc hsats)).1

/-- A row that `insert_broadcast_tx` makes of an ingest is releasable by the block it waits for,
or by the time it has. -/
theorem releasable_newRow_iff (hsats : ∀ n, (env.satsToBtc n).isNan = false)
    (hnew : IsNewRow env (ingestRequest txHex network sourceLabel tx plan target) r) :
    r.Releasable env ↔
      match plan.1 with
      | .immediate => False
      | .byBlock => 0 < target.getD tx.lockTime ∧ target.getD tx.lockTime < 500000000
      | .scheduled | .manual => plan.2.isSome = true := by
  have hread : r.Readable := hnew.readable hsats
  obtain ⟨-, id, now, encTxHex, encDest, encSource, hr⟩ := hnew
  have hmode : r.broadcastMode = some plan.1.toText := by rw [hr]; rfl
  have htime : r.scheduledTime.isSome = plan.2.isSome := by
    rw [hr]
    exact Option.isSome_map
  have hlock : r.nlocktime = some ((target.getD tx.lockTime : Nat) : Int) := by
    rw [hr, ← ingestRequest_nlocktime]
    rfl
  rw [releasable_pending_iff hread (by rw [hr]; rfl) (by rw [hr]; rfl) (by rw [hr]; rfl)]
  rw [htime, hlock, hmode]
  cases plan.1 with
  | immediate => simp [BroadcastMode.toText]
  | scheduled => simp [BroadcastMode.toText]
  | manual => simp [BroadcastMode.toText]
  | byBlock =>
    simp only [BroadcastMode.toText, Option.some.injEq, true_and, or_false, String.reduceEq,
      false_and]
    constructor
    · rintro ⟨n, rfl, hpos, hlt⟩
      exact ⟨by omega, by omega⟩
    · rintro ⟨hpos, hlt⟩
      exact ⟨_, rfl, by omega, by omega⟩

/-- What the path asks for, in terms of its plan. -/
theorem canBeReleased_iff {p : Proc} {c₀ config : Config} {health : ChainHealth}
    {lp lt ls : Log}
    (hplan : (resolveIngestPlan env sourceLabel tx.lockTime config health.height).Path anyAnswer lp
      (.ok plan))
    (htarget : (captureVirtualBlock p plan.1 sourceLabel).Path anyAnswer lt (.ok target))
    (hstore : Log.Storing ls) (hmanual : plan.1 ≠ .manual) {l : Log}
    (hl : l = [⟨.lockConfig p, .ok c₀⟩, ⟨.chainHealth p, health⟩, ⟨.lockConfig p, .ok config⟩] ++
      (lp ++ (lt ++ ls))) :
    CanBeReleased env sourceLabel tx.lockTime l ↔
      match plan.1 with
      | .immediate => l.markedAt.isSome = true
      | .byBlock => 0 < target.getD tx.lockTime ∧ target.getD tx.lockTime < 500000000
      | .scheduled | .manual => plan.2.isSome = true := by
  have hdecides := path_resolveIngestPlan hplan hmanual
  obtain ⟨hliana, hother, hdraws⟩ := path_captureVirtualBlock htarget
  -- What the condition reads off the whole log is what the one part of it read that decides.
  have hconfig : l.configs[1]? = some config := by rw [hl]; rfl
  have htip : l.tips.head? = some health.height := by rw [hl]; rfl
  have hcaptured : l.captured = lt.captured := by
    have hlp := Log.captured_of_isClock
      ((clock_resolveIngestPlan env _ _ _ _).path hplan)
    unfold Log.captured
    rw [hl]
    simp only [List.filterMap_append, hlp, hstore.captured, List.append_nil, List.nil_append]
    rfl
  have hdrawn : l.draws = lp.draws := by
    rw [hl]
    simp only [Log.draws_append, hdraws, hstore.draws, List.append_nil]
    rfl
  unfold CanBeReleased
  -- The cases of `resolve_ingest_plan`, in its order: the label, a time, a height, the
  -- configuration.
  by_cases hlabel : sourceLabel = "liana"
  · rw [if_pos hlabel] at hdecides ⊢
    rw [hcaptured, hliana ⟨hdecides, hlabel⟩, hdecides]
  · rw [if_neg hlabel] at hdecides ⊢
    have hnone : target = none := hother fun h => hlabel h.2
    by_cases htime : 500000000 < tx.lockTime
    · rw [if_pos htime] at hdecides ⊢
      rw [hdecides.1]
      exact iff_of_true trivial hdecides.2
    · rw [if_neg htime] at hdecides ⊢
      by_cases hheight : 0 < tx.lockTime ∧ tx.lockTime < 500000000
      · rw [if_pos hheight] at hdecides ⊢
        rw [htip, hdecides, hnone]
        by_cases hreached : health.height.any (tx.lockTime ≤ ·) = true
        · simp [hreached]
        · simp [hreached, hheight]
      · rw [if_neg hheight] at hdecides ⊢
        rw [hconfig]
        simp only [Option.mem_some_iff, exists_eq_left', ← hdecides.mode]
        -- The configuration decides; a plan by block without a height is never due.
        cases hmode : plan.1 with
        | immediate => rfl
        | manual => exact absurd hmode hmanual
        | byBlock =>
          rw [hnone]
          exact iff_of_false not_false hheight
        | scheduled =>
          rw [hdecides.time hmode]
          refine or_congr_right ?_
          -- The delay is drawn in the plan, and the clock that it is added to is the first one in
          -- the log.
          unfold DrawsTime
          rw [hdrawn]
          rcases hdecides.clock with hnil | ⟨now, hnow⟩
          · simp [hnil]
          · have hlater : (Log.times (lp ++ (lt ++ ls))).head? = some now :=
              Log.head?_times_append hnow
            have htimes : l.times.head? = some now := by
              rw [hl]
              exact hlater
            rw [hnow, htimes]

/-- The row that a path leaves is the inserted one, or that one marked. It is marked only if the
plan is immediate. -/
theorem leftRow_cases {l : Log} {before ls : Log} (hl : l = before ++ ls)
    (hbefore : ∀ s ∈ before, s.1.isLookup = true)
    (hstore : ∀ s ∈ ls, StoresPlan env
      (ingestRequest txHex network sourceLabel tx plan target) plan.1 s.1)
    (hr : l.leftRow env = some r) :
    ∃ row, IsNewRow env (ingestRequest txHex network sourceLabel tx plan target) row ∧
      ((l.markedAt = none ∧ r = row) ∨
        plan.1 = .immediate ∧ ∃ now, l.markedAt = some now ∧ r = row.marked env now) := by
  cases hins : l.inserted with
  | none =>
    unfold Log.leftRow at hr
    rw [hins] at hr
    cases hr
  | some row =>
    -- The step that inserted the row is one of the storing steps.
    have hstep : ∀ {β : Type} {f : Seen Act Act.Res → Option β} {b : β},
        (l.filterMap f).head? = some b → (∀ s, s.1.isLookup = true → f s = none) →
        ∃ s ∈ ls, f s = some b := by
      intro β f b hb hf
      have hmem := List.mem_of_head? hb
      obtain ⟨s, hs, hfs⟩ := List.mem_filterMap.1 hmem
      rw [hl] at hs
      rcases List.mem_append.1 hs with hs | hs
      · rw [hf s (hbefore s hs)] at hfs
        cases hfs
      · exact ⟨s, hs, hfs⟩
    have hnew : IsNewRow env (ingestRequest txHex network sourceLabel tx plan target) row := by
      obtain ⟨s, hs, hrow⟩ := hstep hins fun s hs => insertedOf_of_isLookup hs
      refine (hstore s hs).2.1 row ?_
      obtain ⟨a, answer⟩ := s
      cases a <;> first | cases hrow | skip
      rename_i row'
      rcases answer with e | u
      · cases hrow
      · cases hrow
        rfl
    refine ⟨row, hnew, ?_⟩
    cases hmark : l.markedAt with
    | none =>
      unfold Log.leftRow at hr
      rw [hins, hmark] at hr
      exact Or.inl ⟨rfl, (Option.some.inj hr).symm⟩
    | some now =>
      unfold Log.leftRow at hr
      rw [hins, hmark] at hr
      refine Or.inr ⟨?_, now, rfl, (Option.some.inj hr).symm⟩
      unfold Log.markedAt at hmark
      rw [hins] at hmark
      obtain ⟨s, hs, hnow⟩ := hstep hmark fun s hs => markOf_of_isLookup row.id hs
      obtain ⟨a, answer⟩ := s
      cases a <;> first | cases hnow | skip
      rename_i u
      exact (hstore _ hs).2.2 u rfl

end

/-- The condition on one path of `handle_broadcast`. -/
theorem releasable_iff_of_path {env : Env} (hsats : ∀ n, (env.satsToBtc n).isNan = false)
    {p : Proc} {txHex sourceLabel : String} {tx : Transaction}
    (hdecode : decodeTx env (Text.trim txHex) = .ok tx) {l : Log} {o : Except Failure String}
    (h : (handleBroadcast env p txHex sourceLabel).Path anyAnswer l o) {r : Row}
    (hr : l.leftRow env = some r) (hmode : r.broadcastMode ≠ some "manual") :
    r.Releasable env ↔ CanBeReleased env sourceLabel tx.lockTime l := by
  have hins : l.inserted.isSome = true := by
    unfold Log.leftRow at hr
    cases hrow : l.inserted with
    | none =>
      rw [hrow] at hr
      cases hr
    | some row => rfl
  obtain ⟨c₀, config, health, plan, target, lp, lt, ls, network, hl, hplan, htarget, hstore⟩ :=
    path_handleBroadcast hdecode h hins
  have hlookup : ∀ s ∈ ([⟨.lockConfig p, .ok c₀⟩, ⟨.chainHealth p, health⟩,
      ⟨.lockConfig p, .ok config⟩] ++ (lp ++ lt) : Log), s.1.isLookup = true := by
    intro s hs
    rcases List.mem_append.1 hs with hs | hs
    · simp only [List.mem_cons, List.not_mem_nil, or_false] at hs
      rcases hs with rfl | rfl | rfl <;> rfl
    · rcases List.mem_append.1 hs with hs | hs
      · exact (clock_resolveIngestPlan env _ _ _ _).lookup.path hplan s hs
      · exact (lookup_captureVirtualBlock p _ _).path htarget s hs
  obtain ⟨row, hnew, hcases⟩ := leftRow_cases (by simpa using hl) hlookup hstore hr
  -- The row keeps the mode of its plan, marked or not, so the plan is not manual either.
  have hmanual : plan.1 ≠ .manual := by
    intro hplan
    have hrow : row.broadcastMode = some "manual" := by
      obtain ⟨-, id, now, encTxHex, encDest, encSource, rfl⟩ := hnew
      show some plan.1.toText = _
      rw [hplan]
      rfl
    rcases hcases with ⟨-, rfl⟩ | ⟨-, now, -, rfl⟩
    · exact hmode hrow
    · exact hmode hrow
  rw [canBeReleased_iff hplan htarget (fun s hs => (hstore s hs).1) hmanual hl]
  rcases hcases with ⟨hmark, rfl⟩ | ⟨himm, now, hmark, rfl⟩
  · rw [releasable_newRow_iff hsats hnew, hmark]
    cases plan.1 <;> simp
  · have hread := hnew.readable hsats
    have hdefer : row.deferUntil = none := by
      obtain ⟨-, id, now', encTxHex, encDest, encSource, rfl⟩ := hnew
      rfl
    rw [himm, hmark]
    exact iff_of_true (Or.inl (dueSomeday_marked hread hdefer)) rfl

/-- In every interleaving with any other work, the row that `handle_broadcast` leaves is
releasable exactly under the condition. -/
theorem releasable_ingested_iff {env : Env} (hsats : ∀ n, (env.satsToBtc n).isNan = false)
    {p : Proc} {txHex sourceLabel : String} {tx : Transaction}
    (hdecode : decodeTx env (Text.trim txHex) = .ok tx) (w : World)
    (others : List (Task Act Act.Res Failure)) (chs : List (Choice Act Act.Res Failure))
    (hrunning : Choice.drop 0 ∉ chs) {t : Task Act Act.Res Failure}
    (ht : (Config.exec (World.exec env)
      ⟨w, ⟨(handleBroadcast env p txHex sourceLabel).bind fun _ => .ret (), []⟩ :: others⟩
      chs).tasks.head? = some t)
    {o : Except Failure Unit} (ho : t.prog.outcome = some o) {r : Row}
    (hr : Log.leftRow env t.seen = some r) (hmode : r.broadcastMode ≠ some "manual") :
    r.Releasable env ↔ CanBeReleased env sourceLabel tx.lockTime t.seen := by
  have hanswers : ∀ a w, anyAnswer a (World.exec env a w).1 := fun _ _ => rfl
  have hpath : ((handleBroadcast env p txHex sourceLabel).bind fun _ => .ret ()).Path anyAnswer
      t.seen o := by
    generalize (handleBroadcast env p txHex sourceLabel).bind (fun _ => .ret ()) = prog at ht ⊢
    exact Config.head_finished_path hanswers chs _ rfl (fun l o' hl => hl) hrunning ht ho
  rcases Prog.path_bind_iff.1 hpath with ⟨txid, l₁, l₂, h, hret, hl⟩ | ⟨e, h, -⟩
  · obtain ⟨rfl, -⟩ := Prog.path_ret_iff.1 hret
    rw [hl, List.append_nil] at hr ⊢
    exact releasable_iff_of_path hsats hdecode h hr hmode
  · exact releasable_iff_of_path hsats hdecode h hr hmode

/-! ### A row that no query selects -/

/-- An outside world in which the transactions have a locktime. -/
def lockedEnv (lockTime : Nat) : Env :=
  { sampleEnv with
    consensusDecode := fun
      | [] => none
      | b :: _ => some ({ version := b.toNat, lockTime, input := [], output := [] }, []) }

/-- A daemon whose transactions wait for a block. -/
def byBlockWorld : World :=
  { sampleWorld with
    daemon := { indexer := true, config := { sampleConfig with
      schedule := { broadcastMode := .byBlock } } } }

/-- One broadcast from a wallet on its own. -/
def ingestRun (env : Env) (w : World) (txHex sourceLabel : String) :
    Effects.Config Act Act.Res Failure World :=
  Config.exec (World.exec env)
    ⟨w, [⟨(handleBroadcast env .daemon txHex sourceLabel).bind fun _ => .ret (), []⟩]⟩
    (List.replicate 20 (.step 0))

/-- The row of a broadcast from a wallet with that locktime. -/
def lockedRow (lockTime : Nat) : Row :=
  newRow (lockedEnv lockTime)
    (ingestRequest "07" "testnet4" "sparrow" { version := 7, lockTime, input := [], output := [] }
      (.byBlock, none) none)
    "id3" "4" "enc:v1:07" none (some "enc:v1:sparrow")

/-- A transaction that is locked until block 200. -/
theorem releasable_ingested_iff_locked : ∃ t,
    (ingestRun (lockedEnv 200) byBlockWorld "07" "sparrow").tasks.head? = some t ∧
      ((lockedRow 200).Releasable (lockedEnv 200) ↔
        CanBeReleased (lockedEnv 200) "sparrow" 200 t.seen) := by
  obtain ⟨t, ht, hleft⟩ : ∃ t,
      (ingestRun (lockedEnv 200) byBlockWorld "07" "sparrow").tasks.head? = some t ∧
        t.prog.outcome = some (.ok ()) ∧
          Log.leftRow (lockedEnv 200) t.seen = some (lockedRow 200) :=
    ⟨_, rfl, by decide +kernel⟩
  have hdecode : decodeTx (lockedEnv 200) (Text.trim "07") = .ok
      { version := 7, lockTime := 200, input := [], output := [] } := by decide +kernel
  exact ⟨t, ht, releasable_ingested_iff (fun _ => rfl) hdecode _ _ _ (by simp) ht hleft.1 hleft.2
    (by decide)⟩

/-- The time lock 500000000 is neither a height nor a time for the plan, so the row waits for a
block, and the query of the block-height monitor leaves it out. -/
theorem by_block_row_stuck : ∃ t,
    (ingestRun (lockedEnv 500000000) byBlockWorld "07" "sparrow").tasks.head? = some t ∧
      t.prog.outcome = some (.ok ()) ∧
      Log.leftRow (lockedEnv 500000000) t.seen = some (lockedRow 500000000) ∧
      (lockedRow 500000000).broadcastMode = some "by_block" ∧
      ¬ (lockedRow 500000000).Releasable (lockedEnv 500000000) := by
  have hnew : IsNewRow (lockedEnv 500000000) _ (lockedRow 500000000) :=
    ⟨by decide, _, _, _, _, _, rfl⟩
  refine ⟨_, rfl, by decide +kernel, by decide +kernel, rfl, fun hrel => ?_⟩
  have hheight := (releasable_newRow_iff (fun _ => rfl) hnew).1 hrel
  exact absurd hheight.2 (by decide)

end BroadcastPool
