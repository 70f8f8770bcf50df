import BroadcastPool.Proofs.Rules

/-!
# `BroadcastPool.Proofs.VirtualBlock.Steps`: what one step does to the virtual block and the tips

The virtual block is written by a save of the settings, by a capture, by the automatic disarm
and by a start of the process (`virtualBlockAfter`). The real tip is known twice: as the height
of the chain-health snapshot and as the cached tip with its header. The first is written by the
health poller and by a query that reached the indexer, the second by whoever has asked the
indexer for its tip (`tipsAfter`).
-/

set_option autoImplicit false

namespace BroadcastPool

open Effects

/-- The virtual block of a process. -/
def PoolManager.virtualBlock (m : PoolManager) : LianaVirtualBlockConfig :=
  m.config.schedule.lianaVirtualBlock

@[inherit_doc PoolManager.virtualBlock]
def World.virtualBlock (w : World) (p : Proc) : LianaVirtualBlockConfig :=
  (w.pm p).virtualBlock

/-- The heights of the real tip that a process knows: the polled one and the cached one. -/
def PoolManager.tips (m : PoolManager) : Option Nat × Option Nat :=
  (m.chainHealth.height, m.cachedChainTip.map (·.1))

@[inherit_doc PoolManager.tips]
def World.tips (w : World) (p : Proc) : Option Nat × Option Nat := (w.pm p).tips

/-- A capture moves the target. -/
def LianaVirtualBlockConfig.advanced (vb : LianaVirtualBlockConfig) : LianaVirtualBlockConfig :=
  { vb with targetHeight := min (vb.targetHeight + 2) (2 ^ 64 - 1) }

/-- The virtual block after a step. -/
def virtualBlockAfter (env : Env) (p : Proc) (w : World) : Act → LianaVirtualBlockConfig
  | .startProcess q _ _ config =>
      if q = p then config.schedule.lianaVirtualBlock else w.virtualBlock p
  | .saveConfig q request realHeight =>
      if q = p ∧ env.configPoisoned w.tick = false then
        (request.applyVirtualBlock realHeight (w.virtualBlock p)).2
      else w.virtualBlock p
  | .advanceVirtualBlock q =>
      if q = p ∧ env.configPoisoned w.tick = false ∧ (w.virtualBlock p).enabled then
        (w.virtualBlock p).advanced
      else w.virtualBlock p
  | .disarmVirtualBlock q realHeight =>
      if q = p ∧ env.configPoisoned w.tick = false ∧ (w.virtualBlock p).enabled ∧
          (w.virtualBlock p).armedAtHeight + 10 ≤ realHeight then
        { w.virtualBlock p with enabled := false }
      else w.virtualBlock p
  | _ => w.virtualBlock p

/-- The tips after a step. -/
def tipsAfter (p : Proc) (w : World) : Act → Option Nat × Option Nat
  | .startProcess q .. => if q = p then (none, none) else w.tips p
  | .writeChainHealth q write =>
      if q = p then ((write.apply (w.pm p).chainHealth).height, (w.tips p).2) else w.tips p
  | .cacheChainTip q height hex =>
      if q = p ∧ ¬ (height = 0 ∨ hex = "") then ((w.tips p).1, some height) else w.tips p
  | _ => w.tips p

section
variable {env : Env} {a : Act} {w : World} {p : Proc}

/-- What is read through `f` after a write to another process. -/
theorem setPm_field_ne {β : Type} (f : PoolManager → β) {q : Proc} (h : q ≠ p)
    (m : PoolManager) : f ((w.setPm q m).pm p) = f (w.pm p) := by
  rw [World.setPm_pm_ne w m (Ne.symm h)]

/-- Reading `f` after one process's memory has been written. -/
theorem setPm_field_ite {β : Type} (f : PoolManager → β) (w : World) (p q : Proc)
    (m : PoolManager) :
    f ((w.setPm q m).pm p) = if q = p then f m else f (w.pm p) := by
  split
  · rename_i h
    rw [h, World.setPm_pm_self]
  · rename_i h
    exact setPm_field_ne f h m

theorem exec_virtualBlock (env : Env) (a : Act) (w : World) (p : Proc) :
    (World.exec env a w).2.virtualBlock p = virtualBlockAfter env p w a := by
  show (w.effect env a).2.ticked.virtualBlock p = _
  unfold World.virtualBlock
  rw [World.ticked_pm]
  cases a
  case startProcess q rpc indexer config =>
    exact setPm_field_ite PoolManager.virtualBlock w p q _
  case saveConfig q request realHeight =>
    by_cases hp : q = p
    · subst hp
      cases hpoisoned : env.configPoisoned w.tick
      · simp [World.effect, virtualBlockAfter, hpoisoned, SaveConfigRequest.apply,
          World.virtualBlock,
          PoolManager.virtualBlock]
      · simp [World.effect, virtualBlockAfter, hpoisoned, World.virtualBlock,
          PoolManager.virtualBlock]
    · have hrest : virtualBlockAfter env p w (.saveConfig q request realHeight) =
          w.virtualBlock p := if_neg fun h => hp h.1
      rw [hrest]
      simp only [World.effect]
      split
      · rfl
      · exact setPm_field_ne PoolManager.virtualBlock hp _
  case advanceVirtualBlock q =>
    by_cases hp : q = p
    · subst hp
      cases hpoisoned : env.configPoisoned w.tick
      · cases henabled : (w.pm q).config.schedule.lianaVirtualBlock.enabled
        · simp [World.effect, virtualBlockAfter, hpoisoned, henabled, World.virtualBlock,
          PoolManager.virtualBlock]
        · simp [World.effect, virtualBlockAfter, hpoisoned, henabled, World.virtualBlock,
            PoolManager.virtualBlock, LianaVirtualBlockConfig.advanced]
      · simp [World.effect, virtualBlockAfter, hpoisoned, World.virtualBlock,
          PoolManager.virtualBlock]
    · have hrest : virtualBlockAfter env p w (.advanceVirtualBlock q) = w.virtualBlock p :=
        if_neg fun h => hp h.1
      rw [hrest]
      simp only [World.effect]
      repeat' split
      · rfl
      · exact setPm_field_ne PoolManager.virtualBlock hp _
      · rfl
  case disarmVirtualBlock q realHeight =>
    by_cases hp : q = p
    · subst hp
      simp only [World.effect, virtualBlockAfter, World.virtualBlock, true_and,
        PoolManager.virtualBlock]
      split
      · rw [World.setPm_pm_self]
      · rfl
    · have hrest : virtualBlockAfter env p w (.disarmVirtualBlock q realHeight) =
          w.virtualBlock p := if_neg fun h => hp h.1
      rw [hrest]
      simp only [World.effect]
      split
      · exact setPm_field_ne PoolManager.virtualBlock hp _
      · rfl
  case select | selectLegacy | txHexByTxid | insert | update | delete | reseal | migrate =>
    exact congrArg PoolManager.virtualBlock (statement_pm _ p)
  all_goals
    simp only [World.effect]
    repeat' split
    all_goals
      first
        | rfl
        | (apply setPm_field PoolManager.virtualBlock; rfl)

theorem exec_tips (env : Env) (a : Act) (w : World) (p : Proc) :
    (World.exec env a w).2.tips p = tipsAfter p w a := by
  show (w.effect env a).2.ticked.tips p = _
  unfold World.tips
  rw [World.ticked_pm]
  cases a
  case startProcess q rpc indexer config => exact setPm_field_ite _ w p q _
  case writeChainHealth q write =>
    simp only [World.effect, tipsAfter]
    rw [setPm_field_ite PoolManager.tips]
    split
    · rename_i h
      rw [h]
      rfl
    · rfl
  case cacheChainTip q height hex =>
    simp only [World.effect, tipsAfter]
    by_cases hempty : height = 0 ∨ hex = ""
    · rw [if_pos hempty, if_neg (fun h => h.2 hempty)]
      rfl
    · rw [if_neg hempty, setPm_field_ite PoolManager.tips]
      by_cases hp : q = p
      · rw [if_pos hp, if_pos ⟨hp, hempty⟩, hp]
        rfl
      · rw [if_neg hp, if_neg (fun h => hp h.1)]
        rfl
  case select | selectLegacy | txHexByTxid | insert | update | delete | reseal | migrate =>
    exact congrArg PoolManager.tips
      (statement_pm _ p)
  all_goals
    simp only [World.effect]
    repeat' split
    all_goals
      first
        | rfl
        | (apply setPm_field PoolManager.tips; rfl)

end

end BroadcastPool
