import BroadcastPool.Pool.World

/-!
# `BroadcastPool.Db.Database`: the methods of `Database`

Each method is a program over the statements of `BroadcastPool.Db.Statements`. A mutator
takes the connection mutex twice: once for its own statement and once for `reseal_row_mac`.
`openDatabase` is `Database::open`, which every start of a process runs.
-/

set_option autoImplicit false

namespace BroadcastPool

open Effects

/-- `n as i64` for an unsigned 64-bit `n`. -/
def asI64 (n : Nat) : Int :=
  if n % 2 ^ 64 < 2 ^ 63 then (n % 2 ^ 64 : Nat) else (n % 2 ^ 64 : Nat) - 2 ^ 64

variable (env : Env)

/-- `Utc::now().to_rfc3339()`. -/
def nowText : M String := do
  let now ← perform .now
  return env.toRfc3339 now

/-- `encode_field` with a fresh nonce. -/
def encode (plaintext aad : String) : M String := do
  let nonce ← perform .nonce
  return encodeField env nonce plaintext aad

/-- `Option::map` over `encode`. -/
def encode? (plaintext : Option String) (aad : String) : M (Option String) :=
  match plaintext with
  | none => pure none
  | some s => do
    let enc ← encode env s aad
    return some enc

/-- `get_broadcast_tx_by_id`. -/
def getBroadcastTxById (id : String) : M BroadcastTx := do
  match ← orFail "Failed to get broadcast tx" (perform (.select (.byId id))) with
  | tx :: _ => return tx
  | [] => bail "Failed to get broadcast tx"

/-- `reseal_row_mac`. -/
def resealRowMac (id : String) : M Unit :=
  orFail "Failed to reseal row_mac" (perform (.reseal id))

/-- A mutator of covered columns: the statement, and then `reseal_row_mac`. -/
def updateAndReseal (context : String) (u : Update) : M Unit := do
  let _ ← orFail context (perform (.update u))
  resealRowMac u.target

/-- The row that `insert_broadcast_tx` writes. Its MAC covers the values as they land in the
columns; the last three schedule columns take their schema defaults. -/
def newRow (tx : NewBroadcastTx) (id now encTxHex : String)
    (encDest encSource : Option String) : Row :=
  let status := TxStatus.pending.asStr
  let scheduled := tx.scheduledTime.map env.toRfc3339
  let nlocktime := tx.nlocktime.getD 0
  let broadcastMode := tx.broadcastMode.getD "immediate"
  let totalValueBtc :=
    (tx.totalValueBtc.or (outputValueBtcFromHex env tx.txHex)).getD F64.zero
  let rowMac := env.mac env.key
    (rowMacInput id status broadcastMode (scheduled.getD "") (asI64 nlocktime) "" "datetime"
      "" encTxHex (encDest.getD ""))
  { id, txHex := encTxHex, txid := none, status, network := tx.network
    nlocktime := some nlocktime, broadcastMode := some broadcastMode
    scheduledTime := scheduled, broadcastAt := none, confirmedAt := none
    blockHeight := none, targetFeeRate := .ofFloat? tx.targetFeeRate, actualFeeRate := none
    sourceLabel := encSource, destinationAddress := encDest
    utxoCount := some (tx.utxoCount.getD 1).toInt, totalValueBtc := totalValueBtc.toSql
    replacementOf := tx.replacementOf, errorMessage := none, retryCount := some 0
    broadcastMissedAt := none, originalScheduledTime := none, deferUntil := none
    scheduleTrigger := some "datetime", targetPrice := none, priceCurrency := none
    priceCondition := none, createdAt := now, updatedAt := now, rowMac := some rowMac }

/-- `insert_broadcast_tx`. -/
def insertBroadcastTx (tx : NewBroadcastTx) : M BroadcastTx := do
  let id ← perform .uuid
  let now ← nowText env
  let encTxHex ← encode env tx.txHex id
  let encDest ← encode? env tx.destinationAddress id
  let encSource ← encode? env tx.sourceLabel id
  -- An unsigned 64-bit number above `i64::MAX` cannot be bound to a column.
  ensure (tx.nlocktime.getD 0 < 2 ^ 63) "Failed to insert broadcast tx"
  orFail "Failed to insert broadcast tx"
    (perform (.insert (newRow env tx id now encTxHex encDest encSource)))
  getBroadcastTxById id

/-- `list_broadcast_txs`. -/
def listBroadcastTxs (status : Option String) (network : String) (limit : Int) :
    M (List BroadcastTx) :=
  orFail "Failed to read row" (perform (.select (.list status network limit)))

/-- `update_tx_status`. -/
def updateTxStatus (id : String) (status : TxStatus) (error : Option String) : M Unit := do
  let now ← nowText env
  updateAndReseal "Failed to update tx status" (.txStatus id status error now)

/-- `reset_failed_to_scheduled`. -/
def resetFailedToScheduled (id : String) : M Unit := do
  let now ← nowText env
  let updated ← orFail "Failed to reset failed tx to scheduled"
    (perform (.update (.failedToScheduled id now)))
  ensure (updated ≠ 0) ("Transaction " ++ id ++ " is not in failed state")
  resealRowMac id

/-- `Database::mark_broadcast`. -/
def dbMarkBroadcast (id txid : String) (feeRate : F64) : M Unit := do
  let now ← nowText env
  updateAndReseal "Failed to mark as broadcast" (.broadcast id txid feeRate now)

/-- `Database::get_tx_hex_by_txid`. -/
def getTxHexByTxid (txid : String) : M (Option String) :=
  orRaise (perform (.txHexByTxid txid))

/-- `mark_confirmed`. -/
def markConfirmed (id : String) (blockHeight : Nat) : M Unit := do
  let now ← nowText env
  ensure (blockHeight < 2 ^ 63) "Failed to mark as confirmed"
  updateAndReseal "Failed to mark as confirmed" (.confirmed id blockHeight now)

/-- `get_due_transactions`. -/
def getDueTransactions (network : String) : M (List BroadcastTx) :=
  orFail "Failed to read row" (perform (.select (.due network)))

/-- `record_broadcast_miss`. -/
def recordBroadcastMiss (id missedAt : String) (originalScheduled : Option String) :
    M Unit := do
  let now ← nowText env
  let _ ← orFail "Failed to record broadcast miss"
    (perform (.update (.broadcastMiss id missedAt originalScheduled now)))

/-- `update_reschedule`. -/
def updateReschedule (id scheduledTime : String) (deferUntil : Option String)
    (feeRate : F64) : M Unit := do
  let now ← nowText env
  updateAndReseal "Failed to update reschedule"
    (.reschedule id scheduledTime deferUntil feeRate now)

/-- `update_price_schedule`. -/
def updatePriceSchedule (id : String) (targetPrice : F64)
    (priceCurrency priceCondition : String) (feeRate : F64) : M Unit := do
  let now ← nowText env
  updateAndReseal "Failed to update price schedule"
    (.priceSchedule id targetPrice priceCurrency priceCondition feeRate now)

/-- `get_price_triggered_pending`. -/
def getPriceTriggeredPending (network : String) : M (List BroadcastTx) :=
  orFail "Failed to read row" (perform (.select (.priceTriggered network)))

/-- `get_pending_by_block_height`. -/
def getPendingByBlockHeight (network : String) : M (List BroadcastTx) :=
  orFail "Failed to read row" (perform (.select (.pendingByBlockHeight network)))

/-- `get_pending_by_scheduled_time`. -/
def getPendingByScheduledTime (network : String) : M (List BroadcastTx) := do
  let now ← perform .now
  let txs ← orFail "Failed to read row" (perform (.select (.pendingByScheduledTime network)))
  return txs.filter fun tx => tx.scheduledTime.any (· ≤ now)

/-- `get_pending_rebroadcast`. -/
def getPendingRebroadcast (intervalMinutes : Int) (network : String) :
    M (List BroadcastTx) := do
  let now ← perform .now
  let cutoff := env.toRfc3339 (now - intervalMinutes * 60 * 1000000000)
  orFail "Failed to read row" (perform (.select (.pendingRebroadcast cutoff network)))

/-- `mark_due`. -/
def markDue (id : String) : M Unit := do
  let now ← nowText env
  updateAndReseal "Failed to mark tx as due" (.due id now)

/-- `Database::mark_due_from_price_trigger`. -/
def markDueFromPriceTrigger (id : String) : M Unit := do
  let now ← nowText env
  updateAndReseal "Failed to mark price-triggered tx as due" (.dueFromPriceTrigger id now)

/-- `mark_due_with_schedule`. -/
def markDueWithSchedule (id : String) (scheduledTime : DateTime) : M Unit := do
  let now ← nowText env
  updateAndReseal "Failed to mark tx as due with schedule"
    (.dueWithSchedule id (env.toRfc3339 scheduledTime) now)

/-- `remove_broadcast_tx`. -/
def removeBroadcastTx (id : String) : M Nat :=
  orFail "Failed to remove broadcast tx" (perform (.delete id))

/-- `select_terminal_older_than`. -/
def selectTerminalOlderThan (network cutoff : String) : M (List BroadcastTx) :=
  orFail "Failed to read row" (perform (.select (.terminalOlderThan network cutoff)))

/-- The loop body of `archive_terminal_older_than`. A tampered row stays in the pool. -/
def archiveTx (key : Key) (tx : BroadcastTx) : M Unit :=
  if tx.tampered = some true then pure ()
  else do
    let archiveId ← perform .uuid
    let nonce ← perform .nonce
    let archivedAt ← nowText env
    let blob := env.sealHex key nonce (env.txToJson tx) archiveId
    orRaise (perform (.archiveRow tx.id
      { id := archiveId, network := tx.network, archivedAt, blob }))

/-- `archive_terminal_older_than`. -/
def archiveTerminalOlderThan (key : Key) (network cutoff : String) : M Unit := do
  let txs ← selectTerminalOlderThan network cutoff
  Prog.forEach txs (archiveTx env key)

/-! ### Opening the database -/

/-- A field that `encrypt_legacy_rows` finds: encoded once, and never twice. -/
def encodeMissing (s aad : String) : M String :=
  if isEncoded s then pure s else encode env s aad

/-- `encodeMissing` on a column that can be NULL. -/
def encodeMissing? (s : Option String) (aad : String) : M (Option String) :=
  match s with
  | none => pure none
  | some s => do
    let enc ← encodeMissing env s aad
    return some enc

/-- The loop body of `encrypt_legacy_rows`. -/
def encryptLegacyRow (row : LegacyRow) : M Unit := do
  let (id, txHex, dest, source) := row
  let encTxHex ← encodeMissing env txHex id
  let encDest ← encodeMissing? env dest id
  let encSource ← encodeMissing? env source id
  updateAndReseal "Failed to encrypt legacy row" (.encryptFields id encTxHex encDest encSource)

/-- `encrypt_legacy_rows`. -/
def encryptLegacyRows : M Unit := do
  let rows ← orRaise (perform .selectLegacy)
  Prog.forEach rows (encryptLegacyRow env)

/-- `run_migrations`. The columns that the migrations add are part of `Row`. -/
def runMigrations : M Unit :=
  orFail "Failed to run migrations" (perform .migrate)

/-- `backfill_output_values`. -/
def backfillOutputValues : M Nat :=
  orRaise (perform .backfill)

/-- `Database::open`. Errors of the last two steps are only logged. -/
def openDatabase : M Unit := do
  runMigrations
  let _ ← catchErr backfillOutputValues
  let _ ← catchErr (encryptLegacyRows env)

end BroadcastPool
