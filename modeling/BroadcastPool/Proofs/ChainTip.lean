import BroadcastPool.Pool.ChainTip
import Mathlib.Data.List.Chain

/-!
# `BroadcastPool.Proofs.ChainTip`: which tips the wallets hear about

A wallet that has subscribed to headers keeps the last tip that was pushed to it, so the last
notification has to be the cached tip. `cache_chain_tip` stores height and header but compares
only heights. `tips_announced_iff` is what follows over any sequence of calls: every call does
what it should if and only if no accepted tip replaces the header of the height before it.
-/

set_option autoImplicit false

namespace BroadcastPool

open Effects

/-- What a call has to do: an accepted tip is stored, it is sent if it differs from the cached
pair, and the last notification is the cached tip. -/
structure TipChannel.Announces (c : TipChannel) (tip : ChainTip) : Prop where
  cached : (c.cacheChainTip tip).cached = if isTip tip then some tip else c.cached
  sent : (c.cacheChainTip tip).sent =
    if isTip tip ∧ c.cached ≠ some tip then c.sent ++ [tip] else c.sent
  last : (c.cacheChainTip tip).sent.getLast? = (c.cacheChainTip tip).cached

/-- Every call of a sequence does what it has to do. -/
def TipsAnnounced (tips : List ChainTip) : Prop :=
  Along TipChannel.cacheChainTip TipChannel.Announces {} tips

/-- A tip after another one does not replace its header at the same height. -/
def KeepsHeader (tip next : ChainTip) : Prop := tip.1 = next.1 → tip.2 = next.2

namespace TipChannel
variable {c : TipChannel} {tip : ChainTip}

theorem cacheChainTip_refused (h : isTip tip = false) : c.cacheChainTip tip = c := by
  simp [cacheChainTip, h]

theorem cached_cacheChainTip (h : isTip tip = true) :
    (c.cacheChainTip tip).cached = some tip := by
  simp [cacheChainTip, h]

/-- A height that differs from the cached one is announced. -/
theorem sent_of_new_height (h : isTip tip = true) (hheight : c.cached.map (·.1) ≠ some tip.1) :
    (c.cacheChainTip tip).sent = c.sent ++ [tip] := by
  simp only [cacheChainTip, h, if_true]
  simp [hheight]

theorem sent_of_same_height (h : isTip tip = true) (hheight : c.cached.map (·.1) = some tip.1) :
    (c.cacheChainTip tip).sent = c.sent := by
  simp only [cacheChainTip, h, if_true]
  simp [hheight]

/-- A refused tip changes nothing, so nothing has to be announced. -/
theorem announces_refused (h : isTip tip = false) (hlast : c.sent.getLast? = c.cached) :
    c.Announces tip := by
  have hsame := cacheChainTip_refused (c := c) h
  refine ⟨?_, ?_, ?_⟩
  · rw [hsame]
    simp [h]
  · rw [hsame]
    simp [h]
  · rw [hsame]
    exact hlast

/-- An accepted tip is announced as it should be if and only if it keeps the header of the cached
height. -/
theorem announces_iff (h : isTip tip = true) (hlast : c.sent.getLast? = c.cached) :
    c.Announces tip ↔ ∀ x ∈ c.cached, KeepsHeader x tip := by
  constructor
  · intro hannounces x hx hheight
    have hsame : c.cached.map (·.1) = some tip.1 := by
      rw [Option.mem_def.1 hx]
      exact congrArg some hheight
    have hsent := hannounces.sent
    rw [sent_of_same_height h hsame] at hsent
    have hcached : c.cached = some tip := by
      by_contra hne
      rw [if_pos ⟨h, hne⟩] at hsent
      have := congrArg List.length hsent
      simp at this
    have hpair : x = tip := Option.some.inj ((Option.mem_def.1 hx).symm.trans hcached)
    rw [hpair]
  · intro hkeeps
    by_cases hheight : c.cached.map (·.1) = some tip.1
    · -- The height is the cached one, and so is the header.
      obtain ⟨x, hx, hxheight⟩ := Option.map_eq_some_iff.1 hheight
      have hpair : x = tip := Prod.ext hxheight (hkeeps x hx hxheight)
      rw [hpair] at hx
      refine ⟨?_, ?_, ?_⟩
      · simp [cached_cacheChainTip h, h]
      · simp [sent_of_same_height h hheight, hx]
      · rw [sent_of_same_height h hheight, cached_cacheChainTip h, hlast, hx]
    · have hne : c.cached ≠ some tip := fun heq => hheight (by rw [heq]; rfl)
      refine ⟨?_, ?_, ?_⟩
      · simp [cached_cacheChainTip h, h]
      · simp [sent_of_new_height h hheight, h, hne]
      · simp [sent_of_new_height h hheight, cached_cacheChainTip h]

/-- From a channel whose last notification is the cached tip. The induction is on the calls that
are left; the cached tip is the one before the first of them. -/
theorem announced_from_iff (tips : List ChainTip) (hlast : c.sent.getLast? = c.cached) :
    Along cacheChainTip Announces c tips ↔
      (c.cached.toList ++ tips.filter isTip).IsChain KeepsHeader := by
  induction tips generalizing c with
  | nil =>
    cases hcached : c.cached with
    | none => simp [Along]
    | some x => simp [Along]
  | cons tip tips ih =>
    cases htip : isTip tip with
    | false =>
      have hsame := cacheChainTip_refused (c := c) htip
      simp only [Along, hsame, List.filter_cons, htip, Bool.false_eq_true, if_false]
      rw [ih hlast]
      exact and_iff_right (announces_refused htip hlast)
    | true =>
      have hrest : c.Announces tip →
          (Along cacheChainTip Announces (c.cacheChainTip tip) tips ↔
            (tip :: tips.filter isTip).IsChain KeepsHeader) := by
        intro hannounces
        rw [ih hannounces.last, cached_cacheChainTip htip]
        rfl
      have hchain : (c.cached.toList ++ tip :: tips.filter isTip).IsChain KeepsHeader ↔
          (∀ x ∈ c.cached, KeepsHeader x tip) ∧
            (tip :: tips.filter isTip).IsChain KeepsHeader := by
        cases hcached : c.cached with
        | none => simp
        | some x => simp
      simp only [Along, List.filter_cons, htip, if_true]
      rw [hchain, ← announces_iff htip hlast]
      exact and_congr_right hrest

end TipChannel

/-- Over any sequence of calls on a new `PoolManager`, every accepted tip that differs from the
cached one is announced, and the last notification is the cached tip, if and only if no accepted
tip has the height of the one before it with another header. -/
theorem tips_announced_iff (tips : List ChainTip) :
    TipsAnnounced tips ↔ (tips.filter isTip).IsChain KeepsHeader :=
  TipChannel.announced_from_iff tips rfl

/-- A reorganisation of one block: the header of height 100 is replaced, and the last notification
is the header that has lost. -/
theorem replaced_tip_unannounced :
    ¬ TipsAnnounced [(100, "aa"), (100, "bb")] ∧
      (channelAfter [(100, "aa"), (100, "bb")]).cached = some (100, "bb") ∧
      (channelAfter [(100, "aa"), (100, "bb")]).sent = [(100, "aa")] := by
  refine ⟨fun h => ?_, by decide, by decide⟩
  have hlast := h.2.1.last
  revert hlast
  decide

end BroadcastPool
