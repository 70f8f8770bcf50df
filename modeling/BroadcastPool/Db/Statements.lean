import BroadcastPool.Db.RowMac
import BroadcastPool.Pool.VirtualMempool
import Mathlib.Data.List.Sort

/-!
# `BroadcastPool.Db.Statements`: the SQL statements on `broadcast_pool`

Every statement the program sends is one constructor here, with its parameters. `Query` is a
`SELECT` whose rows go through `map_broadcast_row`. `Update` is an `UPDATE ... WHERE id = ?`:
`target` is the id, `guard` the rest of the `WHERE` clause and `set` the assignments.

`selectRows`, `applyUpdate`, `insertRow`, `deleteRow` and `resealRow` are their effects on the
list of rows. `migration007`, `backfillRow` and `isLegacy` belong to `Database::open`.
-/

set_option autoImplicit false

namespace BroadcastPool

/-- A `SELECT` over the columns of `BROADCAST_SELECT`. -/
inductive Query
  | byId (id : String)
  | list (status : Option String) (network : String) (limit : Int)
  | due (network : String)
  | priceTriggered (network : String)
  | pendingByBlockHeight (network : String)
  | pendingByScheduledTime (network : String)
  | pendingRebroadcast (cutoff network : String)
  | terminalOlderThan (network cutoff : String)
deriving DecidableEq, Repr

/-- The `WHERE` clause of a query. SQLite compares texts by their bytes, which is the order
of their code points. -/
def Query.selects : Query → Row → Bool
  | .byId id, r => r.id = id
  | .list status network _, r =>
      r.network = network && (match status with | none => true | some s => r.status = s)
  | .due network, r => r.status = "scheduled" && r.network = network
  | .priceTriggered network, r =>
      (r.status = "pending" || r.status = "scheduled")
        && r.scheduleTrigger = some "price" && r.targetPrice.isSome && r.network = network
  | .pendingByBlockHeight network, r =>
      r.status = "pending" && r.broadcastMode = some "by_block"
        && (match r.nlocktime with | none => false | some n => 0 < n && n < 500000000)
        && r.network = network
  | .pendingByScheduledTime network, r =>
      r.status = "pending"
        && (r.broadcastMode = some "scheduled" || r.broadcastMode = some "manual"
          || r.broadcastMode = some "imported")
        && r.scheduledTime.isSome && r.network = network
  | .pendingRebroadcast cutoff network, r =>
      r.status = "broadcast" && r.confirmedAt.isNone
        && (match r.broadcastAt with | none => true | some t => t < cutoff)
        && r.network = network
  | .terminalOlderThan network cutoff, r =>
      (r.status = "confirmed" || r.status = "failed" || r.status = "broadcast")
        && r.updatedAt < cutoff && r.network = network

/-- `LIMIT`: a negative limit is no limit. -/
def limitRows (limit : Int) (rows : List Row) : List Row :=
  if limit < 0 then rows else rows.take limit.toNat

/-- The rows a query returns. Only the listing has an order and a limit. -/
def selectRows (q : Query) (rows : List Row) : List Row :=
  match q with
  | .list _ _ limit =>
      limitRows limit
        ((rows.filter q.selects).insertionSort fun a b => b.createdAt ≤ a.createdAt)
  | .byId _ => (rows.filter q.selects).take 1
  | _ => rows.filter q.selects

/-- An `UPDATE` of the row with one id. -/
inductive Update
  /-- `update_tx_status` -/
  | txStatus (id : String) (status : TxStatus) (error : Option String) (now : String)
  /-- `reset_failed_to_scheduled` -/
  | failedToScheduled (id now : String)
  /-- `mark_broadcast` -/
  | broadcast (id txid : String) (feeRate : F64) (now : String)
  /-- `mark_confirmed` -/
  | confirmed (id : String) (blockHeight : Int) (now : String)
  /-- `record_broadcast_miss` -/
  | broadcastMiss (id missedAt : String) (originalScheduled : Option String) (now : String)
  /-- `update_reschedule` -/
  | reschedule (id scheduledTime : String) (deferUntil : Option String) (feeRate : F64)
      (now : String)
  /-- `update_price_schedule` -/
  | priceSchedule (id : String) (targetPrice : F64) (priceCurrency priceCondition : String)
      (feeRate : F64) (now : String)
  /-- `mark_due` -/
  | due (id now : String)
  /-- `mark_due_from_price_trigger` -/
  | dueFromPriceTrigger (id now : String)
  /-- `mark_due_with_schedule` -/
  | dueWithSchedule (id scheduledTime now : String)
  /-- The raw statement of `PoolManager::schedule_transaction`. The fee rate is bound as
  text. -/
  | scheduleRaw (id scheduledTime feeText now : String)
  /-- The raw statement of `PoolManager::rebroadcast_pending` -/
  | rebroadcastAt (id now : String)
  /-- The statement of `encrypt_legacy_rows` -/
  | encryptFields (id txHex : String) (destination source : Option String)
deriving DecidableEq, Repr

namespace Update

/-- The id in the `WHERE` clause. -/
def target : Update → String
  | txStatus id .. | failedToScheduled id .. | broadcast id .. | confirmed id ..
  | broadcastMiss id .. | reschedule id .. | priceSchedule id .. | due id ..
  | dueFromPriceTrigger id .. | dueWithSchedule id .. | scheduleRaw id ..
  | rebroadcastAt id .. | encryptFields id .. => id

/-- The rest of the `WHERE` clause. -/
def guard : Update → Row → Bool
  | failedToScheduled .., r => r.status = "failed"
  | broadcastMiss .., r => r.broadcastMissedAt.isNone
  | _, _ => true

/-- The assignments. -/
def set (env : Env) : Update → Row → Row
  | txStatus _ status error now, r =>
      { r with status := status.asStr, errorMessage := error, updatedAt := now }
  | failedToScheduled _ now, r =>
      { r with status := "scheduled", errorMessage := none, updatedAt := now }
  | broadcast _ txid feeRate now, r =>
      { r with
        status := "broadcast", txid := some txid, actualFeeRate := feeRate.toSql
        broadcastAt := some now, updatedAt := now
        broadcastMissedAt := none, deferUntil := none }
  | confirmed _ blockHeight now, r =>
      { r with
        status := "confirmed", blockHeight := some blockHeight
        confirmedAt := some now, updatedAt := now }
  | broadcastMiss _ missedAt originalScheduled now, r =>
      { r with
        broadcastMissedAt := some missedAt
        originalScheduledTime := match originalScheduled with
          | none => r.originalScheduledTime
          | some orig => some (r.originalScheduledTime.getD orig)
        updatedAt := now }
  | reschedule _ scheduledTime deferUntil feeRate now, r =>
      { r with
        status := "scheduled", scheduledTime := some scheduledTime, deferUntil
        targetFeeRate := .ofFloat? (some feeRate), errorMessage := none
        scheduleTrigger := some "datetime", targetPrice := none, priceCurrency := none
        priceCondition := none, updatedAt := now }
  | priceSchedule _ targetPrice priceCurrency priceCondition feeRate now, r =>
      { r with
        status := "pending", scheduledTime := none, deferUntil := none
        targetFeeRate := .ofFloat? (some feeRate), errorMessage := none
        scheduleTrigger := some "price", targetPrice := targetPrice.toSql
        priceCurrency := some priceCurrency, priceCondition := some priceCondition
        updatedAt := now }
  | due _ now, r =>
      { r with status := "scheduled", scheduledTime := some now, updatedAt := now }
  | dueFromPriceTrigger _ now, r =>
      { r with
        status := "scheduled", scheduledTime := some now
        scheduleTrigger := some "datetime", updatedAt := now }
  | dueWithSchedule _ scheduledTime now, r =>
      { r with status := "scheduled", scheduledTime := some scheduledTime, updatedAt := now }
  | scheduleRaw _ scheduledTime feeText now, r =>
      { r with
        status := "scheduled", scheduledTime := some scheduledTime
        targetFeeRate := match env.realAffinity feeText with
          | some x => .ofFloat? (some x)
          | none => .text feeText
        updatedAt := now }
  | rebroadcastAt _ now, r => { r with broadcastAt := some now, updatedAt := now }
  | encryptFields _ txHex destination source, r =>
      { r with txHex, destinationAddress := destination, sourceLabel := source }

/-- The row an update leaves, for each row of the table. -/
def onRow (env : Env) (u : Update) (r : Row) : Row :=
  if r.id = u.target ∧ u.guard r then u.set env r else r

end Update

/-- The table after an update. -/
def applyUpdate (env : Env) (u : Update) (rows : List Row) : List Row :=
  rows.map (u.onRow env)

/-- The number of rows an update changes. -/
def updateCount (u : Update) (rows : List Row) : Nat :=
  rows.countP fun r => r.id = u.target && u.guard r

/-- `INSERT`: a second row with an id of the table is refused. -/
def insertRow (row : Row) (rows : List Row) : Except String (List Row) :=
  if rows.any (·.id = row.id) then .error "UNIQUE constraint failed: broadcast_pool.id"
  else .ok (rows ++ [row])

/-- `DELETE FROM broadcast_pool WHERE id = ?1`, where `linked` are the ids that
`migration_utxos.broadcast_pool_id` refers to. -/
def deleteRow (linked : List String) (id : String) (rows : List Row) :
    Except String (List Row) :=
  if rows.any (·.id = id) && linked.contains id then .error "FOREIGN KEY constraint failed"
  else .ok (rows.filter (·.id ≠ id))

/-- `row_mac` recomputed from the columns the row has now. -/
def resealed (env : Env) (r : Row) : Row :=
  match r.nlocktime with
  | none => r
  | some n => { r with rowMac := some (r.expectedMac env n) }

/-- `reseal_row_mac`: one lock acquisition that reads the covered columns and writes the
MAC. -/
def resealRow (env : Env) (id : String) (rows : List Row) : Except String (List Row) :=
  match rows.find? (·.id = id) with
  | none => .error "Failed to load row for row_mac reseal"
  | some r =>
    match r.nlocktime with
    | none => .error "Failed to load row for row_mac reseal"
    | some _ => .ok (rows.map fun r => if r.id = id then resealed env r else r)

/-! ### The statements of `Database::open` -/

/-- `MIGRATION_007` on one row. -/
def migration007 (r : Row) : Row :=
  if r.broadcastMode = some "immediate" ∧ r.status = "pending" then
    { r with broadcastMode := some "imported" }
  else r

/-- `backfill_output_values` on one row: a value that is 0 or NULL is taken from the
transaction. -/
def backfillRow (env : Env) (r : Row) : Row :=
  if r.totalValueBtc = none ∨ r.totalValueBtc.any (·.position = 0) then
    match outputValueBtcFromHex env (decOrRaw env r.id r.txHex) with
    | some btc => if F64.zero.lt btc then { r with totalValueBtc := some btc } else r
    | none => r
  else r

/-- The `WHERE` clause of `encrypt_legacy_rows`. `LIKE` ignores the case of ASCII letters. -/
def isLegacy (r : Row) : Bool :=
  !Text.startsWith (Text.asciiLower r.txHex) "enc:" || r.rowMac.isNone

end BroadcastPool
