import BroadcastPool.ElectrumServer.Headers
import BroadcastPool.Proofs.VirtualBlock.Steps
import BroadcastPool.Sample

/-!
# `BroadcastPool.Proofs.VirtualBlock.Range`: how far the target is from the real tip

A `Setting` is a target that a user has set and that `validate_virtual_height` accepts, with the
height it is checked against and the number of transactions captured since. `Setting.after`
collects them along a run, the last one first.

`KeepsRange` is the condition on one step. A save that names a target and leaves the block armed
names one that is accepted, and the real tip stays at or above every height that a target was
checked against. In a run whose steps meet it, the target of an armed block comes from the last
setting (`InRange`), so it is above zero and not further from the real tip than a setting may be
plus two for each capture, and no header request makes more headers than that
(`virtual_range_bounded`).

`target_only_save_unbounded` is a run in which a save names a target while the block is armed.
-/

set_option autoImplicit false

namespace BroadcastPool

open Effects

/-- A target that a user has set, the height it was checked against, and the captures since. -/
structure Setting where
  target : Nat
  height : Nat
  captures : Nat := 0
deriving DecidableEq, Repr

/-- The setting that a request makes, if its target is accepted. A request that neither names a
target nor arms the block makes none. -/
def SaveConfigRequest.setting? (request : SaveConfigRequest) (realHeight : Option Nat)
    (vb : LianaVirtualBlockConfig) : Option Setting :=
  if request.lianaVbTargetHeight.isSome ∨ request.lianaVbEnabled = some true then
    let target := request.lianaVbTargetHeight.getD vb.targetHeight
    match realHeight with
    | none => none
    | some height =>
      match validateVirtualHeight target (some height) with
      | .ok () => some { target, height }
      | .error _ => none
  else none

/-- The request arms the block, or arms it again. -/
def SaveConfigRequest.arms (request : SaveConfigRequest) (realHeight : Option Nat)
    (vb : LianaVirtualBlockConfig) : Prop :=
  request.lianaVbEnabled = some true ∧ (request.setting? realHeight vb).isSome

instance (request : SaveConfigRequest) (realHeight : Option Nat)
    (vb : LianaVirtualBlockConfig) : Decidable (request.arms realHeight vb) :=
  inferInstanceAs (Decidable (_ ∧ _))

namespace Setting

/-- The settings with one more capture for the last of them. -/
def capture : List Setting → List Setting
  | [] => []
  | s :: settings => { s with captures := s.captures + 1 } :: settings

/-- The settings after a step of the daemon, the last one first. -/
def after (env : Env) (settings : List Setting) (e : Performed Act Act.Res World) :
    List Setting :=
  match e.act with
  | .saveConfig p request realHeight =>
      if p = .daemon ∧ env.configPoisoned e.state.tick = false then
        (request.setting? realHeight (e.state.virtualBlock .daemon)).toList ++ settings
      else settings
  | .advanceVirtualBlock p =>
      if p = .daemon ∧ env.configPoisoned e.state.tick = false ∧
          (e.state.virtualBlock .daemon).enabled then capture settings
      else settings
  | _ => settings

/-- The setting is valid, and the target is at most two above it for each capture. -/
structure Covers (s : Setting) (target : Nat) : Prop where
  valid : validateVirtualHeight s.target (some s.height) = .ok ()
  positive : 0 < target
  le : target ≤ s.target + 2 * s.captures

/-- How many headers a setting allows. -/
def bound (s : Setting) : Nat := maxVirtualBlockGap + 2 * s.captures

end Setting

/-- The tips are at or above a height, where they are known. -/
def TipsFrom (height : Nat) (tips : Option Nat × Option Nat) : Prop :=
  (∀ h ∈ tips.1, height ≤ h) ∧ ∀ h ∈ tips.2, height ≤ h

/-- The condition on a step. -/
def KeepsRange (env : Env) (settings : List Setting) (e : Performed Act Act.Res World) : Prop :=
  let vb := e.state.virtualBlock .daemon
  match e.act with
  | .startProcess p .. => p ≠ .daemon
  | .saveConfig p request realHeight =>
      p = .daemon ∧ env.configPoisoned e.state.tick = false →
      -- A target that is named while the block is armed, and stays armed, is accepted.
      (vb.enabled → request.lianaVbEnabled ≠ some false →
        request.lianaVbTargetHeight.isSome → (request.setting? realHeight vb).isSome) ∧
      ∀ s ∈ request.setting? realHeight vb, TipsFrom s.height (e.state.tips .daemon)
  | .writeChainHealth .. | .cacheChainTip .. =>
      ∀ s ∈ settings, TipsFrom s.height (tipsAfter .daemon e.state e.act)
  | _ => True

/-- The target of an armed block is covered by the last setting, and the tips are not below any
height that was checked. -/
structure InRange (settings : List Setting) (w : World) : Prop where
  covered : (w.virtualBlock .daemon).enabled = true →
    ∃ s ∈ settings.head?, s.Covers (w.virtualBlock .daemon).targetHeight
  tips : ∀ s ∈ settings, TipsFrom s.height (w.tips .daemon)

/-- What a program knows that has read the configuration: its target was covered. -/
def ReadInRange (settings : List Setting) (x : Seen Act Act.Res) : Prop :=
  ∀ config : Config, x = ⟨.lockConfig .daemon, (.ok config : Except String Config)⟩ →
    config.schedule.lianaVirtualBlock.enabled = true →
      ∃ s ∈ settings, s.Covers config.schedule.lianaVirtualBlock.targetHeight

/-- What is asked for in a state: the target of an armed block has been accepted, is above zero,
and is not too far from either tip. -/
def TargetBounded (settings : List Setting) (w : World) : Prop :=
  let vb := w.virtualBlock .daemon
  vb.enabled = true →
    ∃ s ∈ settings.head?, validateVirtualHeight s.target (some s.height) = .ok () ∧
      0 < vb.targetHeight ∧ (∀ h ∈ (w.tips .daemon).1, vb.targetHeight ≤ h + s.bound) ∧
      ∀ h ∈ (w.tips .daemon).2, vb.targetHeight ≤ h + s.bound

/-- The tip that a program makes headers on: the cached tip, if it reads that now, or a pushed
tip that is not below the heights that were checked. -/
def BuildsOn (settings : List Setting) (e : Performed Act Act.Res World) (realHeight : Nat) :
    Prop :=
  e.act = .cachedChainTip .daemon ∧ (e.state.tips .daemon).2 = some realHeight ∨
    ∀ s ∈ settings, s.height ≤ realHeight

/-- A program that has read the configuration, and makes headers for a virtual tip, makes no more
of them than a setting allows. -/
def FabricationBounded (headers : HeaderLibs) (settings : List Setting)
    (e : Performed Act Act.Res World) : Prop :=
  ∀ config : Config, ⟨.lockConfig .daemon, (.ok config : Except String Config)⟩ ∈ e.seen →
    ∀ target, virtualTipHeight config true = some target →
      ∀ realHeight, BuildsOn settings e realHeight →
        ∀ hex upTo made, upTo ≤ target ∨ upTo = advertisedHeight target realHeight →
          fabricateHeaders headers realHeight hex upTo = .ok made →
            ∃ s ∈ settings, made.length ≤ s.bound

instance KeepsRange.decidable (env : Env) (settings : List Setting)
    (e : Performed Act Act.Res World) : Decidable (KeepsRange env settings e) := by
  apply @Act.casesOn (fun a => Decidable (KeepsRange env settings ⟨e.state, e.seen, a⟩)) e.act
  all_goals
    intros
    dsimp only [KeepsRange, TipsFrom]
    infer_instance

/-! ### One step -/

section
variable {env : Env} {settings : List Setting}

/-- A capture keeps what is covered. -/
theorem Setting.Covers.advanced {s : Setting} {vb : LianaVirtualBlockConfig}
    (h : s.Covers vb.targetHeight) :
    Covers { s with captures := s.captures + 1 } vb.advanced.targetHeight := by
  obtain ⟨hvalid, hpositive, hle⟩ := h
  refine ⟨hvalid, ?_, ?_⟩
  · show 0 < min (vb.targetHeight + 2) (2 ^ 64 - 1)
    omega
  · show min (vb.targetHeight + 2) (2 ^ 64 - 1) ≤ s.target + 2 * (s.captures + 1)
    omega

/-- What is covered stays covered along a run. -/
theorem Setting.covered_after (e : Performed Act Act.Res World) {target : Nat}
    (h : ∃ s ∈ settings, s.Covers target) :
    ∃ s ∈ Setting.after env settings e, s.Covers target := by
  obtain ⟨s, hs, hcovers⟩ := h
  unfold Setting.after
  split
  · split
    · exact ⟨s, List.mem_append_right _ hs, hcovers⟩
    · exact ⟨s, hs, hcovers⟩
  · split
    · cases settings with
      | nil => cases hs
      | cons first rest =>
        rcases List.mem_cons.1 hs with rfl | hs
        · refine ⟨_, List.mem_cons_self .., hcovers.valid, hcovers.positive, ?_⟩
          have hle := hcovers.le
          show target ≤ s.target + 2 * (s.captures + 1)
          omega
        · exact ⟨s, List.mem_cons_of_mem _ hs, hcovers⟩
    · exact ⟨s, hs, hcovers⟩
  · exact ⟨s, hs, hcovers⟩

/-- A setting covers its own target. -/
theorem SaveConfigRequest.setting?_covers {request : SaveConfigRequest}
    {realHeight : Option Nat} {vb : LianaVirtualBlockConfig} {s : Setting}
    (h : request.setting? realHeight vb = some s) :
    realHeight = some s.height ∧
      s.Covers (request.lianaVbTargetHeight.getD vb.targetHeight) := by
  unfold setting? at h
  split at h
  · dsimp only at h
    split at h
    · cases h
    · rename_i height
      split at h
      · rename_i hvalid
        cases h
        refine ⟨rfl, hvalid, Nat.pos_of_ne_zero fun hzero => ?_, Nat.le_add_right _ _⟩
        rw [hzero] at hvalid
        cases hvalid
      · cases h
  · cases h

/-- The block after a save: it stays as it was, it is disarmed, or it is armed with the target
that the request sets. -/
theorem SaveConfigRequest.applyVirtualBlock_cases (request : SaveConfigRequest)
    (realHeight : Option Nat) (vb : LianaVirtualBlockConfig) :
    (request.applyVirtualBlock realHeight vb).2.targetHeight =
        request.lianaVbTargetHeight.getD vb.targetHeight ∧
      ((request.applyVirtualBlock realHeight vb).2.enabled = true →
        request.arms realHeight vb ∨
          vb.enabled = true ∧ request.lianaVbEnabled ≠ some false) := by
  unfold applyVirtualBlock
  dsimp only
  cases henabled : request.lianaVbEnabled with
  | none => exact ⟨rfl, fun h => Or.inr ⟨h, by simp⟩⟩
  | some enable =>
    cases enable with
    | false => exact ⟨rfl, fun h => by cases h⟩
    | true =>
      cases realHeight with
      | none => exact ⟨rfl, fun h => Or.inr ⟨h, by simp⟩⟩
      | some height =>
        dsimp only
        cases hvalid : validateVirtualHeight
            (request.lianaVbTargetHeight.getD vb.targetHeight) (some height) with
        | error e => exact ⟨rfl, fun h => Or.inr ⟨h, by simp⟩⟩
        | ok u =>
          refine ⟨rfl, fun _ => Or.inl ⟨henabled, ?_⟩⟩
          unfold setting?
          rw [if_pos (Or.inr henabled)]
          simp only [hvalid]
          rfl

/-- A capture changes no height that was checked. -/
theorem Setting.mem_capture {s : Setting} (h : s ∈ capture settings) :
    ∃ s' ∈ settings, s'.height = s.height := by
  cases settings with
  | nil => cases h
  | cons first rest =>
    rcases List.mem_cons.1 h with rfl | h
    · exact ⟨first, List.mem_cons_self .., rfl⟩
    · exact ⟨s, List.mem_cons_of_mem _ h, rfl⟩

/-- The tips stay at or above every height that was checked. -/
theorem tipsFrom_step {e : Performed Act Act.Res World} (h : InRange settings e.state)
    (hstep : KeepsRange env settings e) :
    ∀ s ∈ Setting.after env settings e,
      TipsFrom s.height (tipsAfter .daemon e.state e.act) := by
  obtain ⟨w, seen, a⟩ := e
  intro s hs
  cases a
  case startProcess q rpc indexer config =>
    have hother : q ≠ .daemon := hstep
    have htips : tipsAfter .daemon w (.startProcess q rpc indexer config) = w.tips .daemon :=
      if_neg hother
    rw [htips]
    exact h.tips s hs
  case saveConfig q request realHeight =>
    dsimp only [Setting.after] at hs
    split at hs
    · rename_i hwritten
      rcases List.mem_append.1 hs with hs | hs
      · exact (hstep hwritten).2 s (Option.mem_toList.1 hs)
      · exact h.tips s hs
    · exact h.tips s hs
  case advanceVirtualBlock q =>
    dsimp only [Setting.after] at hs
    split at hs
    · obtain ⟨s', hs', hheight⟩ := Setting.mem_capture hs
      exact hheight ▸ h.tips s' hs'
    · exact h.tips s hs
  case writeChainHealth | cacheChainTip => exact hstep s hs
  all_goals exact h.tips s hs

/-- The target of an armed block stays covered by the last setting. -/
theorem covered_step {e : Performed Act Act.Res World} (h : InRange settings e.state)
    (hstep : KeepsRange env settings e)
    (henabled : (virtualBlockAfter env .daemon e.state e.act).enabled = true) :
    ∃ s ∈ (Setting.after env settings e).head?,
      s.Covers (virtualBlockAfter env .daemon e.state e.act).targetHeight := by
  obtain ⟨w, seen, a⟩ := e
  cases a
  case startProcess q rpc indexer config =>
    have hother : q ≠ .daemon := hstep
    have hsame : virtualBlockAfter env .daemon w (.startProcess q rpc indexer config) =
        w.virtualBlock .daemon := if_neg hother
    rw [hsame] at henabled ⊢
    exact h.covered henabled
  case saveConfig q request realHeight =>
    dsimp only [virtualBlockAfter, Setting.after] at henabled ⊢
    split
    · rename_i hwritten
      rw [if_pos hwritten] at henabled
      obtain ⟨htarget, hcases⟩ :=
        request.applyVirtualBlock_cases realHeight (w.virtualBlock .daemon)
      rw [htarget]
      cases hsetting : request.setting? realHeight (w.virtualBlock .daemon) with
      | some s => exact ⟨s, rfl, (SaveConfigRequest.setting?_covers hsetting).2⟩
      | none =>
        -- The block was armed before, so the request names no target.
        rcases hcases henabled with ⟨-, hsome⟩ | ⟨harmed, hkept⟩
        · rw [hsetting] at hsome
          cases hsome
        · have hunnamed : request.lianaVbTargetHeight = none := by
            by_contra hnamed
            have hsome := (hstep hwritten).1 harmed hkept (Option.isSome_iff_ne_none.2 hnamed)
            dsimp only at hsome
            rw [hsetting] at hsome
            cases hsome
          rw [hunnamed]
          exact h.covered harmed
    · rename_i hunwritten
      rw [if_neg hunwritten] at henabled
      exact h.covered henabled
  case advanceVirtualBlock q =>
    dsimp only [virtualBlockAfter, Setting.after] at henabled ⊢
    split
    · rename_i hcaptured
      obtain ⟨s, hs, hcovers⟩ := h.covered hcaptured.2.2
      cases settings with
      | nil => cases hs
      | cons first rest =>
        cases hs
        exact ⟨_, rfl, hcovers.advanced⟩
    · rename_i huncaptured
      rw [if_neg huncaptured] at henabled
      exact h.covered henabled
  case disarmVirtualBlock q realHeight =>
    dsimp only [virtualBlockAfter] at henabled ⊢
    split
    · rename_i hdisarmed
      rw [if_pos hdisarmed] at henabled
      cases henabled
    · rename_i hkept
      rw [if_neg hkept] at henabled
      exact h.covered henabled
  all_goals exact h.covered henabled

/-- One step keeps the target in range, if it meets the condition. -/
theorem inRange_step {e : Performed Act Act.Res World} (h : InRange settings e.state)
    (hstep : KeepsRange env settings e) :
    InRange (Setting.after env settings e) (World.exec env e.act e.state).2 := by
  refine ⟨fun henabled => ?_, ?_⟩
  · rw [exec_virtualBlock] at henabled ⊢
    exact covered_step h hstep henabled
  · rw [exec_tips]
    exact tipsFrom_step h hstep

/-- What a step reads of the configuration is in range. -/
theorem readInRange_step {e : Performed Act Act.Res World} (h : InRange settings e.state) :
    ReadInRange (Setting.after env settings e) ⟨e.act, (World.exec env e.act e.state).1⟩ := by
  intro config hread henabled
  obtain ⟨w, seen, a⟩ := e
  obtain ⟨rfl, hanswer⟩ := Sigma.mk.inj hread
  have hanswer := eq_of_heq hanswer
  rcases exec_lockConfig env w .daemon with hexec | hexec
  · dsimp only at hanswer
    rw [hexec] at hanswer
    cases hanswer
  · dsimp only at hanswer
    rw [hexec] at hanswer
    cases hanswer
    obtain ⟨s, hs, hcovers⟩ := h.covered henabled
    exact ⟨s, List.mem_of_mem_head? hs, hcovers⟩

/-! ### Whole runs -/

/-- A covered target is not further from a tip than the setting allows. -/
theorem Setting.Covers.le_bound {s : Setting} {target height : Nat} (h : s.Covers target)
    (hheight : s.height ≤ height) : target ≤ height + s.bound := by
  have hvalid := h.valid
  have hle := h.le
  unfold validateVirtualHeight at hvalid
  dsimp only at hvalid
  unfold bound
  split at hvalid
  · cases hvalid
  · split at hvalid
    · cases hvalid
    · split at hvalid
      · cases hvalid
      · omega

/-- How many headers are made on a tip for a covered target. -/
theorem length_fabricated_le {headers : HeaderLibs} {s : Setting}
    {target realHeight upTo : Nat} (hcovers : s.Covers target)
    (hheight : s.height ≤ realHeight)
    (hasked : upTo ≤ target ∨ upTo = advertisedHeight target realHeight) {hex : String}
    {made : List (Nat × String)} (hmade : fabricateHeaders headers realHeight hex upTo = .ok made) :
    made.length ≤ s.bound := by
  have hle := hcovers.le_bound hheight
  have hone : 1 ≤ s.bound := by
    unfold Setting.bound maxVirtualBlockGap
    omega
  have hmod : (realHeight + 1) % 2 ^ 64 ≤ realHeight + 1 := Nat.mod_le _ _
  rw [length_fabricateHeaders hmade]
  rcases hasked with hasked | rfl
  · omega
  · unfold advertisedHeight
    omega

/-- From a disarmed block, in every run whose steps meet the condition, the target of an armed
block is in range, and no program makes more headers than the range has. -/
theorem virtual_range_bounded (env : Env) (headers : HeaderLibs) (w : World)
    (chs : List (Choice Act Act.Res Failure))
    (hdisarmed : (w.virtualBlock .daemon).enabled = false)
    (hsteps : Along (Setting.after env) (KeepsRange env) []
      (Config.performed (World.exec env) ⟨w, []⟩ chs)) :
    TargetBounded ((Config.performed (World.exec env) ⟨w, []⟩ chs).foldl (Setting.after env) [])
        (Config.exec (World.exec env) ⟨w, []⟩ chs).state ∧
      ∀ before e rest, Config.performed (World.exec env) ⟨w, []⟩ chs = before ++ e :: rest →
        FabricationBounded headers (before.foldl (Setting.after env) []) e := by
  have hstart : InRange [] w := by
    refine ⟨fun henabled => ?_, fun s hs => by cases hs⟩
    rw [hdisarmed] at henabled
    cases henabled
  have hrecorded : (⟨w, []⟩ : Effects.Config Act Act.Res Failure World).Recorded InRange
      ReadInRange [] := ⟨hstart, fun t ht => by cases ht⟩
  have hmono : ∀ settings e x, ReadInRange settings x →
      ReadInRange (Setting.after env settings e) x :=
    fun settings e x hx config hread henabled =>
      Setting.covered_after e (hx config hread henabled)
  constructor
  · have hend := (Config.exec_recorded (Setting.after env) hmono chs _ [] hrecorded hsteps
      fun e _ settings hI _ hP => ⟨inRange_step hI hP, readInRange_step hI⟩).state
    intro henabled
    obtain ⟨s, hs, hcovers⟩ := hend.covered henabled
    have htips := hend.tips s (List.mem_of_mem_head? hs)
    exact ⟨s, hs, hcovers.valid, hcovers.positive,
      fun h hh => hcovers.le_bound (htips.1 h hh), fun h hh => hcovers.le_bound (htips.2 h hh)⟩
  · intro before e rest hsplit config hread target htarget realHeight hbuilds hex upTo made
      hasked hmade
    obtain ⟨hI, hseen, -⟩ := Config.performed_recorded (Setting.after env) hmono chs _ []
      hrecorded hsteps (fun e _ settings hI _ hP => ⟨inRange_step hI hP, readInRange_step hI⟩)
      hsplit
    unfold virtualTipHeight at htarget
    dsimp only at htarget
    split at htarget
    · rename_i harmed
      cases htarget
      obtain ⟨s, hs, hcovers⟩ := hseen _ hread config rfl harmed.2.1
      refine ⟨s, hs, length_fabricated_le hcovers ?_ hasked hmade⟩
      rcases hbuilds with ⟨-, hcached⟩ | hnotBelow
      · exact (hI.tips s hs).2 realHeight hcached
      · exact hnotBelow s hs
    · cases htarget

end

/-- The settings are saved twice: once to arm the block, and once with a target alone. -/
def targetOnlySchedule (target : Nat) : List (Choice Act Act.Res Failure) :=
  [.start (saveConfig .daemon { lianaVbEnabled := some true, lianaVbTargetHeight := some 101 }),
    .step 0, .step 0,
    .start (saveConfig .daemon { lianaVbTargetHeight := some target }), .step 1, .step 1]

/-- The target of the second save is checked by nothing. -/
theorem target_only_save_unbounded :
    ¬ TargetBounded
      ((Config.performed (World.exec sampleEnv) ⟨polledWorld 100, []⟩
        (targetOnlySchedule 1000000000)).foldl (Setting.after sampleEnv) [])
      (Config.exec (World.exec sampleEnv) ⟨polledWorld 100, []⟩
        (targetOnlySchedule 1000000000)).state := by
  intro h
  obtain ⟨s, hs, -, -, hpolled, -⟩ := h rfl
  cases hs
  exact absurd (hpolled 100 rfl) (by decide)

theorem virtual_range_bounded_targetOnlySchedule :
    TargetBounded
        ((Config.performed (World.exec sampleEnv) ⟨polledWorld 100, []⟩
          (targetOnlySchedule 105)).foldl (Setting.after sampleEnv) [])
        (Config.exec (World.exec sampleEnv) ⟨polledWorld 100, []⟩
          (targetOnlySchedule 105)).state ∧
      ∀ before e rest, Config.performed (World.exec sampleEnv) ⟨polledWorld 100, []⟩
          (targetOnlySchedule 105) = before ++ e :: rest →
        FabricationBounded sampleHeaders (before.foldl (Setting.after sampleEnv) []) e :=
  virtual_range_bounded sampleEnv sampleHeaders (polledWorld 100) (targetOnlySchedule 105) rfl
    (by decide)

end BroadcastPool
