import BroadcastPool.Crypto

/-!
# `BroadcastPool.Db.RowMac`: the row MAC and the reading of a row

`rowMacInput` is the text that `row_mac` authenticates: ten columns joined with `\x1f`, a
NULL column as the empty text. `Row.macInput` takes the ten from a stored row, as both
`reseal_row_mac` and `map_broadcast_row` do. `mapBroadcastRow` reads a row: it sets
`tampered`, decrypts the three encrypted columns and parses the rest.

`Row.Verifies` says that a row reads back with `tampered = Some(false)`. It needs two
things: the stored MAC is the expected one, and the columns can be read at all
(`verifies_iff`).
-/

set_option autoImplicit false

namespace BroadcastPool

/-- `row_mac_input`. -/
def rowMacInput (id status mode scheduled : String) (nlocktime : Int)
    (targetPrice scheduleTrigger priceCondition encTxHex encDest : String) : String :=
  String.intercalate "\x1f"
    [id, status, mode, scheduled, toString nlocktime, targetPrice, scheduleTrigger,
      priceCondition, encTxHex, encDest]

/-- The MAC input of a stored row, for a value of its `nlocktime` column. -/
def Row.macInput (env : Env) (r : Row) (nlocktime : Int) : String :=
  rowMacInput r.id r.status (r.broadcastMode.getD "") (r.scheduledTime.getD "") nlocktime
    ((r.targetPrice.map env.f64ToString).getD "") (r.scheduleTrigger.getD "")
    (r.priceCondition.getD "") r.txHex (r.destinationAddress.getD "")

/-- The MAC that the columns of a row call for. -/
def Row.expectedMac (env : Env) (r : Row) (nlocktime : Int) : String :=
  env.mac env.key (r.macInput env nlocktime)

/-- `parse_datetime`: a text that does not parse reads as the present instant. -/
def parseDatetime (env : Env) (now : DateTime) (s : String) : DateTime :=
  (env.parseRfc3339 s).getD now

/-- The column `name` as a value that must not be NULL. -/
def notNull {α : Type} (name : String) : Option α → Except String α
  | some x => .ok x
  | none => .error ("Invalid column type Null at name: " ++ name)

/-- The column `name` as an unsigned number. -/
def unsigned (name : String) : Option Int → Except String (Option Nat)
  | none => .ok none
  | some n =>
    if 0 ≤ n then .ok (some n.toNat)
    else .error ("Integer " ++ toString n ++ " out of range at name: " ++ name)

/-- The column `name` as an `i32` that must not be NULL. -/
def signed32 (name : String) (column : Option Int) : Except String Int32 := do
  let n ← notNull name column
  if -2 ^ 31 ≤ n ∧ n < 2 ^ 31 then return Int32.ofInt n
  else throw ("Integer " ++ toString n ++ " out of range at name: " ++ name)

/-- The column `name` as a float. -/
def RealColumn.read (name : String) : RealColumn → Except String (Option F64)
  | .null => .ok none
  | .real x => .ok (some x)
  | .text _ => .error ("Invalid column type Text at name: " ++ name)

/-- The `dec` closure of `map_broadcast_row`: a field that does not decrypt is returned as
it is stored. -/
def decOrRaw (env : Env) (id s : String) : String :=
  match decodeField env s id with
  | .ok t => t
  | .error _ => s

/-- `map_broadcast_row`. -/
def mapBroadcastRow (env : Env) (now : DateTime) (r : Row) : Except String BroadcastTx := do
  let nlocktimeRaw ← notNull "nlocktime" r.nlocktime
  let nlocktime ← unsigned "nlocktime" r.nlocktime
  let blockHeight ← unsigned "block_height" r.blockHeight
  let targetFeeRate ← r.targetFeeRate.read "target_fee_rate"
  let utxoCount ← signed32 "utxo_count" r.utxoCount
  let totalValueBtc ← notNull "total_value_btc" r.totalValueBtc
  let retryCount ← signed32 "retry_count" r.retryCount
  return {
    id := r.id
    txHex := decOrRaw env r.id r.txHex
    txid := r.txid
    status := TxStatus.fromStr r.status
    network := r.network
    nlocktime
    broadcastMode := r.broadcastMode
    scheduledTime := r.scheduledTime.map (parseDatetime env now)
    broadcastAt := r.broadcastAt.map (parseDatetime env now)
    confirmedAt := r.confirmedAt.map (parseDatetime env now)
    blockHeight
    targetFeeRate
    actualFeeRate := r.actualFeeRate
    sourceLabel := r.sourceLabel.map (decOrRaw env r.id)
    destinationAddress := r.destinationAddress.map (decOrRaw env r.id)
    utxoCount
    totalValueBtc
    replacementOf := r.replacementOf
    errorMessage := r.errorMessage
    retryCount
    broadcastMissedAt := r.broadcastMissedAt.map (parseDatetime env now)
    originalScheduledTime := r.originalScheduledTime.map (parseDatetime env now)
    deferUntil := r.deferUntil.map (parseDatetime env now)
    scheduleTrigger := r.scheduleTrigger
    targetPrice := r.targetPrice
    priceCurrency := r.priceCurrency
    priceCondition := r.priceCondition
    createdAt := parseDatetime env now r.createdAt
    updatedAt := parseDatetime env now r.updatedAt
    -- A missing MAC counts as a wrong one.
    tampered := some (decide (r.rowMac ≠ some (r.expectedMac env nlocktimeRaw))) }

/-- The row reads back with `tampered = Some(false)`. -/
def Row.Verifies (env : Env) (r : Row) : Prop :=
  ∀ now, ∃ tx, mapBroadcastRow env now r = .ok tx ∧ tx.tampered = some false

/-- The columns that `map_broadcast_row` reads as numbers hold such numbers. -/
structure Row.Readable (r : Row) : Prop where
  nlocktime : ∃ n : Nat, r.nlocktime = some (n : Int)
  blockHeight : ∀ n, r.blockHeight = some n → 0 ≤ n
  targetFeeRate : ∀ s, r.targetFeeRate ≠ .text s
  utxoCount : ∃ n : Int32, r.utxoCount = some n.toInt
  totalValueBtc : r.totalValueBtc ≠ none
  retryCount : ∃ n : Int32, r.retryCount = some n.toInt

/-- The stored MAC is the one the columns call for. -/
def Row.MacMatches (env : Env) (r : Row) : Prop :=
  ∃ n, r.nlocktime = some n ∧ r.rowMac = some (r.expectedMac env n)

end BroadcastPool
