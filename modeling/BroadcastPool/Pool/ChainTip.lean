import BroadcastPool.Pool.World

/-!
# `BroadcastPool.Pool.ChainTip`: the cached chain tip and its notifications

`cache_chain_tip` stores the tip that a wallet session or a probe has read, and wakes the wallet
sessions through the channel `chain_tip_notifications`. `TipChannel` is the cache together with
everything sent on the channel.
-/

set_option autoImplicit false

namespace BroadcastPool

/-- A chain tip: its height and its header. The same pair is a `ChainTipNotification`. -/
abbrev ChainTip : Type := Nat × String

/-- `cached_chain_tip`, and what has been sent on `chain_tip_notifications`. -/
structure TipChannel where
  cached : Option ChainTip := none
  sent : List ChainTip := []
deriving DecidableEq, Repr

/-- A tip that `cache_chain_tip` accepts. -/
def isTip (tip : ChainTip) : Bool := tip.1 ≠ 0 && tip.2 ≠ ""

/-- `cache_chain_tip`. The whole pair is stored, and a notification is sent if the height is
another one. -/
def TipChannel.cacheChainTip (c : TipChannel) (tip : ChainTip) : TipChannel :=
  if isTip tip then
    let changed := c.cached.map (·.1) ≠ some tip.1
    { cached := some tip, sent := if changed then c.sent ++ [tip] else c.sent }
  else c

/-- The channel of a new `PoolManager` after some calls. -/
def channelAfter (tips : List ChainTip) : TipChannel := tips.foldl TipChannel.cacheChainTip {}

/-- The cache of a `PoolManager` is that of the channel. -/
theorem exec_cacheChainTip (env : Env) (w : World) (p : Proc) (height : Nat) (hex : String) :
    ((World.exec env (.cacheChainTip p height hex) w).2.pm p).cachedChainTip =
      (TipChannel.cacheChainTip { cached := (w.pm p).cachedChainTip } (height, hex)).cached := by
  unfold TipChannel.cacheChainTip isTip World.exec World.effect
  by_cases hzero : height = 0
  · simp [hzero]
  · by_cases hempty : hex = ""
    · simp [hempty]
    · simp [hzero, hempty]

end BroadcastPool
