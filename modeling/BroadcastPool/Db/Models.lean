import Mathlib.Data.BitVec

/-!
# `BroadcastPool.Db.Models`: the rows of `broadcast_pool` and what they read back as

`Row` is one row of the table, column by column. Text columns are strings, because a status
or a mode that no code path writes can still be stored there. `BroadcastTx` is the value
`map_broadcast_row` makes of a row, and `NewBroadcastTx` the request that an insert starts
from.

An instant is an integer number of nanoseconds since the Unix epoch. A 64-bit float is its
bit pattern, with the comparisons the pool uses.
-/

set_option autoImplicit false

namespace BroadcastPool

/-- A UTC instant, in nanoseconds since the Unix epoch. -/
abbrev DateTime : Type := Int

/-- A 64-bit IEEE 754 float, by its bits. -/
structure F64 where
  bits : BitVec 64
deriving DecidableEq, Repr

namespace F64

/-- The bits below the sign bit. -/
def magnitude (x : F64) : Nat := x.bits.toNat % 2 ^ 63

def isNeg (x : F64) : Bool := decide (2 ^ 63 ≤ x.bits.toNat)

/-- A NaN has all exponent bits set and a fraction. -/
def isNan (x : F64) : Bool := decide (0x7FF0000000000000 < x.magnitude)

/-- The position of a float that is not a NaN in the order of the floats. Both zeros have
position 0. -/
def position (x : F64) : Int := if x.isNeg then -(x.magnitude : Int) else x.magnitude

/-- `x <= y`. It is false when one of them is a NaN. -/
def le (x y : F64) : Bool := !x.isNan && !y.isNan && decide (x.position ≤ y.position)

/-- `x < y`. It is false when one of them is a NaN. -/
def lt (x y : F64) : Bool := !x.isNan && !y.isNan && decide (x.position < y.position)

/-- `f64::max`: the other argument when one is a NaN. -/
def max (x y : F64) : F64 :=
  if x.isNan then y else if y.isNan then x else if x.lt y then y else x

def zero : F64 := ⟨0⟩

/-- The value SQLite stores for a bound float: a NaN becomes NULL. -/
def toSql (x : F64) : Option F64 := if x.isNan then none else some x

end F64

/-- `TxStatus`. -/
inductive TxStatus
  | pending | scheduled | broadcast | confirmed | expired | failed
deriving DecidableEq, Repr

namespace TxStatus

/-- `TxStatus::as_str`. -/
def asStr : TxStatus → String
  | pending => "pending"
  | scheduled => "scheduled"
  | broadcast => "broadcast"
  | confirmed => "confirmed"
  | expired => "expired"
  | failed => "failed"

/-- `TxStatus::from_str`: an unknown text reads as `pending`. -/
def fromStr (s : String) : TxStatus :=
  if s = "pending" then pending
  else if s = "scheduled" then scheduled
  else if s = "broadcast" then broadcast
  else if s = "confirmed" then confirmed
  else if s = "expired" then expired
  else if s = "failed" then failed
  else pending

/-- Every status reads back from its own text. -/
@[simp] theorem fromStr_asStr (s : TxStatus) : fromStr s.asStr = s := by
  cases s <;> rfl

end TxStatus

/-- A `REAL` column: SQLite keeps a bound text that does not look like a number as text. -/
inductive RealColumn
  | null
  | real (x : F64)
  | text (s : String)
deriving DecidableEq, Repr

/-- A bound `Option<f64>` in a `REAL` column. -/
def RealColumn.ofFloat? : Option F64 → RealColumn
  | none => .null
  | some x => match x.toSql with
    | none => .null
    | some y => .real y

/-- One row of `broadcast_pool`. -/
structure Row where
  id : String
  txHex : String
  txid : Option String
  status : String
  network : String
  nlocktime : Option Int
  broadcastMode : Option String
  scheduledTime : Option String
  broadcastAt : Option String
  confirmedAt : Option String
  blockHeight : Option Int
  targetFeeRate : RealColumn
  actualFeeRate : Option F64
  sourceLabel : Option String
  destinationAddress : Option String
  utxoCount : Option Int
  totalValueBtc : Option F64
  replacementOf : Option String
  errorMessage : Option String
  retryCount : Option Int
  broadcastMissedAt : Option String
  originalScheduledTime : Option String
  deferUntil : Option String
  scheduleTrigger : Option String
  targetPrice : Option F64
  priceCurrency : Option String
  priceCondition : Option String
  createdAt : String
  updatedAt : String
  rowMac : Option String
deriving DecidableEq, Repr

/-- `BroadcastTx`, without the fields that the API layer fills in for the dashboard. -/
structure BroadcastTx where
  id : String
  txHex : String
  txid : Option String
  status : TxStatus
  network : String
  nlocktime : Option Nat
  broadcastMode : Option String
  scheduledTime : Option DateTime
  broadcastAt : Option DateTime
  confirmedAt : Option DateTime
  blockHeight : Option Nat
  targetFeeRate : Option F64
  actualFeeRate : Option F64
  sourceLabel : Option String
  destinationAddress : Option String
  utxoCount : Int32
  totalValueBtc : F64
  replacementOf : Option String
  errorMessage : Option String
  retryCount : Int32
  broadcastMissedAt : Option DateTime
  originalScheduledTime : Option DateTime
  deferUntil : Option DateTime
  scheduleTrigger : Option String
  targetPrice : Option F64
  priceCurrency : Option String
  priceCondition : Option String
  createdAt : DateTime
  updatedAt : DateTime
  tampered : Option Bool
deriving DecidableEq, Repr

/-- `NewBroadcastTx`. -/
structure NewBroadcastTx where
  txHex : String
  network : String
  nlocktime : Option Nat := none
  broadcastMode : Option String := none
  scheduledTime : Option DateTime := none
  targetFeeRate : Option F64 := none
  sourceLabel : Option String := none
  destinationAddress : Option String := none
  utxoCount : Option Int32 := none
  totalValueBtc : Option F64 := none
  replacementOf : Option String := none
deriving DecidableEq, Repr

end BroadcastPool
