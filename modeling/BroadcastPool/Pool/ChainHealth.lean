import Mathlib.Tactic.Basic

/-!
# `BroadcastPool.Pool.ChainHealth`: which backend serves the chain clock
-/

set_option autoImplicit false

namespace BroadcastPool

/-- `ChainSource`. -/
inductive ChainSource
  | indexer | bitcoinCore | none
deriving DecidableEq, Repr

/-- `ChainHealth`, the cached view of the two backends. -/
structure ChainHealth where
  indexerUp : Bool := false
  coreUp : Bool := false
  coreIbd : Bool := false
  height : Option Nat := Option.none
  mtp : Option Nat := Option.none
  source : ChainSource := .none
  polled : Bool := false
deriving DecidableEq, Repr

/-- `decide_chain_source`. -/
def decideChainSource (indexerUp coreUp coreIbd : Bool) : ChainSource :=
  if indexerUp then .indexer
  else if coreUp && !coreIbd then .bitcoinCore
  else .none

namespace ChainHealth

/-- `ChainHealth::clock_available`. -/
def clockAvailable (h : ChainHealth) : Bool := h.source ≠ .none

/-- `ChainHealth::should_try_indexer`. -/
def shouldTryIndexer (h : ChainHealth) : Bool := h.indexerUp || !h.polled

/-- `write_chain_health`: the source is recomputed after every write. -/
def rewrite (f : ChainHealth → ChainHealth) (h : ChainHealth) : ChainHealth :=
  { f h with source := decideChainSource (f h).indexerUp (f h).coreUp (f h).coreIbd }

/-- `note_indexer_failure`. -/
def noteIndexerFailure : ChainHealth → ChainHealth :=
  rewrite fun h => { h with indexerUp := false, polled := true }

/-- `note_indexer_success`. -/
def noteIndexerSuccess (height : Nat) : ChainHealth → ChainHealth :=
  rewrite fun h => { h with indexerUp := true, polled := true, height := some height }

/-- The write of `refresh_chain_health`: what Core and the indexer answered. -/
def refreshed (core : Option (Nat × Nat × Bool)) (indexerHeight : Option Nat) :
    ChainHealth → ChainHealth :=
  rewrite fun h =>
    { h with
      indexerUp := indexerHeight.isSome
      coreUp := core.isSome
      coreIbd := match core with | some (_, _, ibd) => ibd | Option.none => false
      height := indexerHeight.or (core.map (·.1))
      mtp := (core.map (·.2.1)).or h.mtp
      polled := true }

end ChainHealth

end BroadcastPool
