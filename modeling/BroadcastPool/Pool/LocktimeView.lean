import BroadcastPool.Pool.Manager

/-!
# `BroadcastPool.Pool.LocktimeView`: what the dashboard shows of a locktime

`enrich_tx_locktime` fills in the fields of a row that are not stored. It reads the height of the
cached chain health and the cached median time, and never asks a backend for a height.
-/

set_option autoImplicit false

namespace BroadcastPool

open Effects

/-- The fields that `enrich_tx_locktime` fills in. -/
structure LocktimeView where
  locktimeWaiting : Option Bool := none
  locktimeDeferred : Option Bool := none
  canReschedule : Option Bool := none
  chainMtp : Option Nat := none
  locktimeTarget : Option Nat := none
  locktimeRemainingSecs : Option Int := none
  locktimeKind : Option String := none
  locktimeRemainingBlocks : Option Int := none
  locktimeSatisfied : Option Bool := none
  currentBtcPrice : Option F64 := none
deriving DecidableEq, Repr

namespace BroadcastTx

/-- The row has been sent. -/
def emitted (tx : BroadcastTx) : Bool := tx.status = .broadcast || tx.status = .confirmed

/-- `matches!(tx.status, Pending | Scheduled)`. -/
def held (tx : BroadcastTx) : Bool := tx.status = .pending || tx.status = .scheduled

/-- `tx_has_broadcast_schedule`. -/
def hasBroadcastSchedule (tx : BroadcastTx) : Bool :=
  tx.broadcastMode = some "scheduled" || isUserScheduledMode tx.broadcastMode
    || tx.scheduledTime.isSome || tx.deferUntil.isSome || tx.broadcastMissedAt.isSome
    || tx.scheduleTrigger = some "price"

/-- `tx_can_reschedule`. -/
def canReschedule (tx : BroadcastTx) : Bool := tx.held && tx.hasBroadcastSchedule

/-- The price shown for a price trigger. -/
def shownPrice (cachedPrices : Option (String → Option F64)) (tx : BroadcastTx) : Option F64 :=
  if tx.scheduleTrigger = some "price" then
    tx.priceCurrency.bind fun currency => cachedPrices.bind fun prices => prices currency
  else none

/-- The fields that do not depend on the locktime. -/
def baseView (cachedPrices : Option (String → Option F64)) (tx : BroadcastTx) :
    LocktimeView where
  locktimeDeferred := some (tx.broadcastMissedAt.isSome && !tx.emitted)
  canReschedule := some (!tx.emitted && tx.canReschedule)
  currentBtcPrice := tx.shownPrice cachedPrices

/-- What is left until the clock reaches the locktime, `0` once it has. -/
def remaining (n clock : Nat) : Int := if n ≤ clock then 0 else asI64 n - asI64 clock

/-- The fields for a block-height lock, at a height. -/
def heightView (tx : BroadcastTx) (n height : Nat) (view : LocktimeView) : LocktimeView :=
  { view with
    locktimeSatisfied := some (n ≤ height)
    locktimeRemainingBlocks := some (remaining n height)
    locktimeWaiting := some (!tx.emitted && tx.held && !decide (n ≤ height)) }

/-- The fields for a time lock, at a median time. -/
def timeView (tx : BroadcastTx) (n mtp : Nat) (view : LocktimeView) : LocktimeView :=
  { view with
    chainMtp := some mtp
    locktimeSatisfied := some (n ≤ mtp)
    locktimeRemainingSecs := some (remaining n mtp)
    locktimeWaiting := some (!tx.emitted && tx.held && !decide (n ≤ mtp)) }

end BroadcastTx

/-- `enrich_tx_locktime`. A clock that cannot be read leaves the fields of the lock empty. -/
def enrichLocktime (p : Proc) (cachedPrices : Option (String → Option F64)) (tx : BroadcastTx) :
    M LocktimeView :=
  let base := tx.baseView cachedPrices
  match tx.nlocktime with
  | none | some 0 => pure { base with locktimeWaiting := some false }
  | some n =>
    let shown := { base with
      locktimeTarget := some n
      locktimeKind := some (if n < 500000000 then "height" else "time") }
    if n < 500000000 then do
      let health ← perform (.chainHealth p)
      match health.height with
      | some height => return tx.heightView n height shown
      | none => return shown
    else do
      match ← catchErr (getMedianTimePastCached p) with
      | .ok mtp => return tx.timeView n mtp shown
      | .error _ => return shown

end BroadcastPool
