import BroadcastPool.Db.Database

/-!
# `BroadcastPool.Pool.Manager`: the methods of `PoolManager`

Every method takes the process whose `PoolManager` it runs on. The methods come in the order
of the source: the chain clock first, then scheduling, the hand-over to a backend, the
scheduler tick, and the upkeep of the virtual mempool.

Log lines and the fields that only the dashboard shows are left out, and so are the events
for the notification dispatcher.
-/

set_option autoImplicit false

namespace BroadcastPool

open Effects

/-- `is_user_scheduled_mode`. -/
def isUserScheduledMode (mode : Option String) : Bool :=
  mode = some "manual" || mode = some "imported"

/-- `is_retriable_broadcast_error`. -/
def isRetriableBroadcastError (msg : String) : Bool :=
  let m := Text.lowercase msg
  Text.containsText m "non-final" || Text.containsText m "non final"
    || Text.containsText m "not final" || Text.containsText m "locktime"
    || Text.containsText m "too-long-mempool-chain"

/-- `PriceFeed::price_condition_met`. -/
def priceConditionMet (current target : F64) (condition : String) : Bool :=
  if condition = "below" then current.le target else target.le current

/-- `chrono::Duration::hours(h)` in nanoseconds. It panics when the milliseconds overflow. -/
def durationHours (h : Int) : M Int :=
  if -9223372036854775 ≤ 3600 * h ∧ 3600 * h ≤ 9223372036854775 then
    pure (3600 * h * 1000000000)
  else .fail (.panic "TimeDelta::hours out of bounds")

/-- `DateTime::checked_add_signed`: `None` outside the years chrono can represent. -/
def checkedAddSigned (t d : Int) : Option DateTime :=
  if -8334601228800000000000 ≤ t + d ∧ t + d < 8210266876800000000000 then some (t + d)
  else none

/-- Run `prog` if `c` holds, and log its error if it has one. -/
def logErrorIf {α : Type} (c : Bool) (prog : M α) : M Unit :=
  if c then do
    let _ ← catchErr prog
  else pure ()

variable (env : Env) (p : Proc)

/-- The network that the `config` lock gives. -/
def configNetwork : M String := do
  let config ← orRaise (perform (.lockConfig p))
  return config.network

/-! ### The chain clock -/

/-- The indexer's height, and the note that it is up or down. -/
def indexerBlockHeight : M (Option Nat) := do
  let health ← perform (.chainHealth p)
  if health.shouldTryIndexer then
    if ← perform (.hasIndexer p) then
      match ← perform .indexerHeight with
      | .ok height =>
        perform (.writeChainHealth p (.indexerSuccess height))
        return some height
      | .error _ =>
        perform (.writeChainHealth p .indexerFailure)
        return none
    else return none
  else return none

/-- `check_block_height`. -/
def checkBlockHeight : M (Option Nat) := do
  match ← indexerBlockHeight p with
  | some height => return some height
  | none =>
    if ← perform (.hasRpc p) then
      match ← perform .rpcHeight with
      | .ok height => return some height
      | .error _ => return none
    else return none

/-- The median time Core gives, if it answers. -/
def rpcMedianTime : M (Option Nat) := do
  if ← perform (.hasRpc p) then
    match ← perform .rpcMtp with
    | .ok mtp => return some mtp
    | .error _ => return none
  else return none

/-- `get_median_time_past`. -/
def getMedianTimePast : M Nat := do
  match ← rpcMedianTime p with
  | some mtp => return mtp
  | none =>
    let health ← perform (.chainHealth p)
    if health.shouldTryIndexer then
      if ← perform (.hasIndexer p) then
        match ← perform .indexerMtp with
        | .ok mtp => return mtp
        | .error _ =>
          perform (.writeChainHealth p .indexerFailure)
          bail "No backend available to read median time past"
      else bail "No backend available to read median time past"
    else bail "No backend available to read median time past"

/-- Read the median time past and store it in the cache. -/
def refreshMtpCache : M Nat := do
  let mtp ← getMedianTimePast p
  let fetchedAt ← perform .instant
  perform (.writeMtpCache p fetchedAt mtp)
  return mtp

/-- `get_median_time_past_cached`. A cached value lives for 30 seconds. -/
def getMedianTimePastCached : M Nat := do
  match ← perform (.readMtpCache p) with
  | some (fetchedAt, mtp) =>
    let now ← perform .instant
    if now - fetchedAt < 30000000000 then return mtp else refreshMtpCache p
  | none => refreshMtpCache p

/-- `is_locktime_satisfied`. -/
def isLocktimeSatisfied (nlocktime : Option Nat) : M Bool :=
  match nlocktime with
  | none | some 0 => pure true
  | some n =>
    if 500000000 < n then do
      let mtp ← getMedianTimePastCached p
      return n ≤ mtp
    else do
      match ← checkBlockHeight p with
      | some height => return n ≤ height
      | none => return false

/-- What Core says about the chain, if it answers. -/
def coreStatus : M (Option (Nat × Nat × Bool)) := do
  if ← perform (.hasRpc p) then
    let status ← perform .rpcChainStatus
    return status.toOption
  else return none

/-- The height the indexer gives, if it answers. -/
def indexerProbe : M (Option Nat) := do
  if ← perform (.hasIndexer p) then
    let height ← perform .indexerHeight
    return height.toOption
  else return none

/-- Warm the cached median time with Core's. -/
def warmMtpCache (core : Option (Nat × Nat × Bool)) : M Unit :=
  match core with
  | some (_, mtp, _) => do
    let fetchedAt ← perform .instant
    perform (.writeMtpCache p fetchedAt mtp)
  | none => pure ()

/-- `maybe_disarm_virtual_block`. -/
def maybeDisarmVirtualBlock : M Unit := do
  let health ← perform (.chainHealth p)
  match health.height with
  | some height => perform (.disarmVirtualBlock p height)
  | none => pure ()

/-- `refresh_chain_health`, without the software name shown on the dashboard. -/
def refreshChainHealth : M Unit := do
  let core ← coreStatus p
  let indexerHeight ← indexerProbe p
  perform (.writeChainHealth p (.refresh core indexerHeight))
  warmMtpCache p core
  maybeDisarmVirtualBlock p

/-- `enrich_tx_locktime` fills in fields for the dashboard. To do so for a time lock it reads
the cached median time, which can refresh the cache. -/
def enrichTxLocktime (tx : BroadcastTx) : M Unit :=
  logErrorIf (500000000 ≤ tx.nlocktime.getD 0) (getMedianTimePastCached p)

/-! ### Scheduling -/

/-- The check of `schedule_at` against a time nLockTime. -/
def scheduleBeforeLocktime (nlocktime : Option Nat) (scheduledTime : DateTime) : Bool :=
  match nlocktime with
  | some n => 500000000 < n && (max (scheduledTime / 1000000000) 0).toNat < n
  | none => false

/-- `is_reschedule` of `schedule_at`. -/
def isReschedule (tx : BroadcastTx) : Bool :=
  tx.broadcastMissedAt.isSome || tx.deferUntil.isSome || tx.scheduledTime.isSome
    || tx.scheduleTrigger = some "price" || tx.broadcastMode = some "scheduled"
    || isUserScheduledMode tx.broadcastMode

/-- `schedule_at`. -/
def scheduleAt (id : String) (scheduledTime : DateTime) (feeRate : F64) : M BroadcastTx := do
  let tx ← getBroadcastTxById id
  let now ← perform .now
  ensure (now < scheduledTime) "Scheduled time must be in the future"
  ensure (scheduleBeforeLocktime tx.nlocktime scheduledTime = false)
    ("Scheduled time cannot be before nLockTime (unix " ++ toString (tx.nlocktime.getD 0) ++
      "). The network will only accept this transaction when chain MTP reaches the signed " ++
      "nLockTime.")
  let scheduledStr := env.toRfc3339 scheduledTime
  let deferUntil := if isReschedule tx then some scheduledStr else none
  updateReschedule env id scheduledStr deferUntil feeRate
  let updated ← getBroadcastTxById id
  enrichTxLocktime p updated
  return updated

/-- `schedule_by_price`. -/
def scheduleByPrice (id : String) (targetPrice : F64) (priceCurrency priceCondition : String)
    (feeRate : F64) : M BroadcastTx := do
  ensure (targetPrice.le F64.zero = false) "Target price must be positive"
  let currency := Text.lowercase priceCurrency
  ensure (currency = "eur" ∨ currency = "usd") "price_currency must be eur or usd"
  let condition := Text.lowercase priceCondition
  ensure (condition = "above" ∨ condition = "below") "price_condition must be above or below"
  let tx ← getBroadcastTxById id
  ensure (tx.status = .pending ∨ tx.status = .scheduled)
    ("Cannot set price trigger on transaction in status " ++ tx.status.asStr)
  ensure (isUserScheduledMode tx.broadcastMode)
    "Price trigger scheduling is only available for manual/imported (pending) transactions"
  ensure (tx.nlocktime.getD 0 = 0)
    "Price trigger scheduling is only available when nLockTime is disabled (0)"
  updatePriceSchedule env id targetPrice currency condition feeRate
  let updated ← getBroadcastTxById id
  enrichTxLocktime p updated
  return updated

/-- The price monitor's decision on one row. A price that is missing decides nothing. -/
def priceTriggerMet (prices : String → Option F64) (tx : BroadcastTx) : Bool :=
  match tx.targetPrice, prices (tx.priceCurrency.getD "usd") with
  | some target, some current =>
    priceConditionMet current target (tx.priceCondition.getD "above")
  | _, _ => false

/-- The loop body of `check_price_triggers`. -/
def checkPriceTrigger (prices : String → Option F64) (tx : BroadcastTx) : M Unit :=
  logErrorIf (priceTriggerMet prices tx) (markDueFromPriceTrigger env tx.id)

/-- `check_price_triggers`. -/
def checkPriceTriggers (prices : String → Option F64) : M Unit := do
  let network ← configNetwork p
  let txs ← getPriceTriggeredPending network
  Prog.forEach txs (checkPriceTrigger env prices)

/-- `rng.gen_range(lo..=hi)` on unsigned numbers. -/
def genRange (lo hi : Nat) : M Nat := do
  let n ← perform .random
  return lo + n % (hi - lo + 1)

/-- `rng.gen_range(lo..=hi)` on floats. -/
def genRangeF64 (lo hi : F64) : M F64 :=
  if env.floatRangeOk lo hi then perform (.randomF64 lo hi)
  else .fail (.panic "UniformSampler::sample_single: range overflow")

/-- The fee rate of `schedule_transaction`: fixed, or drawn from the configured range. -/
def chooseFeeRate (fixedFeeRate : Option F64) (minFee maxFee : F64) : M F64 :=
  match fixedFeeRate with
  | some fixed => pure fixed
  | none => genRangeF64 env minFee (maxFee.max minFee)

/-- `schedule_transaction`. Its `UPDATE` is not followed by `reseal_row_mac`. -/
def scheduleTransaction (id : String) (minDelayHours maxDelayHours : Option Nat)
    (minFeeRate maxFeeRate fixedFeeRate : Option F64) : M BroadcastTx := do
  let config ← orRaise (perform (.lockConfig p))
  let minDelay := minDelayHours.getD config.schedule.minDelayHours
  let maxDelay := maxDelayHours.getD config.schedule.maxDelayHours
  let minFee := minFeeRate.getD config.schedule.minFeeRate
  let maxFee := maxFeeRate.getD config.schedule.maxFeeRate
  let delayHours ← genRange minDelay (max maxDelay minDelay)
  let feeRate ← chooseFeeRate env fixedFeeRate minFee maxFee
  let now ← perform .now
  let delay ← durationHours (asI64 delayHours)
  match checkedAddSigned now delay with
  | none => bail "Failed to calculate scheduled time"
  | some scheduledTime =>
    let updated ← nowText env
    let _ ← orFail "Failed to execute raw SQL"
      (perform (.update (.scheduleRaw id (env.toRfc3339 scheduledTime)
        (env.f64ToString feeRate) updated)))
    getBroadcastTxById id

/-- The loop body of `schedule_all_pending`. -/
def schedulePending (tx : BroadcastTx) : M Unit := do
  let _ ← scheduleTransaction env p tx.id none none none none none

/-- `schedule_all_pending`. -/
def scheduleAllPending (network : String) : M Unit := do
  let txs ← listBroadcastTxs (some "pending") network 1000
  Prog.forEach txs (schedulePending env p)

/-! ### The hand-over to a backend -/

/-- The indexer's verdict on a transaction, if it is asked at all. -/
def indexerVerdict (tx : BroadcastTx) : M (Option (Except String String)) := do
  let health ← perform (.chainHealth p)
  if health.shouldTryIndexer then
    if ← perform (.hasIndexer p) then
      let verdict ← perform (.indexerBroadcast tx)
      return some verdict
    else return none
  else return none

/-- `broadcast_transaction`: the indexer first, then Core. -/
def broadcastTransaction (tx : BroadcastTx) : M String := do
  match ← indexerVerdict p tx with
  | some (.ok txid) => return txid
  | verdict =>
    if ← perform (.hasRpc p) then orRaise (perform (.rpcBroadcast tx))
    else match verdict with
      | some (.error e) => bail e
      | _ => bail "No broadcast backend available (neither Indexer nor RPC)"

/-- `import_transaction`. -/
def importTransaction (newTx : NewBroadcastTx) : M BroadcastTx :=
  insertBroadcastTx env newTx

/-- `PoolManager::mark_broadcast`. -/
def markBroadcast (id txid : String) (feeRate : F64) : M Unit := do
  dbMarkBroadcast env id txid feeRate
  let _ ← perform (.removePending p txid)

/-- The refusal of a status that `broadcast_now` does not accept. -/
def refuseEmitted (status : TxStatus) : M Unit :=
  match status with
  | .broadcast => bail "This transaction has already been broadcast."
  | .confirmed => bail "This transaction is already confirmed."
  | _ => pure ()

/-- The locktime check before a hand-over. -/
def locktimeOrRefuse (nlocktime : Option Nat) : M Bool := do
  match ← catchErr (isLocktimeSatisfied p nlocktime) with
  | .ok ok => return ok
  | .error e =>
    bail ("Cannot verify this transaction's nLockTime without a chain data source (" ++ e ++
      "). Refusing to broadcast blind.")

/-- The refusal of `broadcast_now` for a locktime that is not reached. -/
def refuseNonFinal (nlocktime : Option Nat) : M String := do
  let n := nlocktime.getD 0
  if 500000000 < n then
    let mtp ← catchErr (getMedianTimePastCached p)
    let remaining := match mtp with
      | .ok mtp => n - mtp
      | .error _ => 0
    bail ("The transaction's own nLockTime is not reached yet (~" ++ toString remaining ++
      "s to go). The network would reject it as non-final.")
  else
    bail ("The transaction's own nLockTime targets block " ++ toString n ++
      ", which the chain has not reached. The network would reject it as non-final.")

/-- `broadcast_now`. -/
def broadcastNow (id : String) : M String := do
  let halted ← perform (.isSafeMode p)
  ensure (halted = false)
    ("Safe mode is active after a tampered row was detected — broadcasting is halted until " ++
      "it is acknowledged.")
  let tx ← getBroadcastTxById id
  if tx.tampered = some true then do
    perform (.enterSafeMode p tx.id)
    bail "This row failed its integrity check — broadcasting halted."
  else do
    refuseEmitted tx.status
    let locktimeOk ← locktimeOrRefuse p tx.nlocktime
    if locktimeOk then
      let txid ← broadcastTransaction p tx
      markBroadcast env p tx.id txid (tx.targetFeeRate.getD F64.zero)
      return txid
    else refuseNonFinal p tx.nlocktime

/-! ### The scheduler tick -/

/-- `is_tx_due_for_broadcast`. -/
def isTxDueForBroadcast (tx : BroadcastTx) (now : DateTime) : M Bool :=
  if tx.scheduleTrigger = some "price" ∧ tx.status = .pending then pure false
  else do
    let locktimeOk ← isLocktimeSatisfied p tx.nlocktime
    match tx.deferUntil with
    | some deferUntil => if now < deferUntil then return false else return locktimeOk
    | none =>
      if tx.scheduledTime.any (· ≤ now) then return locktimeOk else return false

/-- The candidates that are due. A locktime that cannot be read counts as not due. -/
def dueTxs (now : DateTime) : List BroadcastTx → M (List BroadcastTx)
  | [] => pure []
  | tx :: txs => do
    let due ← catchErr (isTxDueForBroadcast p tx now)
    let rest ← dueTxs now txs
    return if due = .ok true then tx :: rest else rest

/-- A due transaction whose locktime is not reached: record the missed release once. -/
def recordMiss (tx : BroadcastTx) (now : DateTime) : M Unit :=
  if 500000000 < tx.nlocktime.getD 0 then do
    logErrorIf tx.broadcastMissedAt.isNone
      (recordBroadcastMiss env tx.id (env.toRfc3339 now)
        (tx.scheduledTime.map env.toRfc3339))
    -- The remaining time is only logged, but reading it can refresh the cache.
    logErrorIf true (getMedianTimePastCached p)
  else pure ()

/-- Hand a due transaction over and store the outcome. -/
def broadcastDueTx (tx : BroadcastTx) : M Unit := do
  match ← catchErr (broadcastTransaction p tx) with
  | .ok txid => markBroadcast env p tx.id txid (tx.targetFeeRate.getD F64.zero)
  | .error e =>
    if isRetriableBroadcastError e then pure ()
    else updateTxStatus env tx.id .failed (some e)

/-- One due transaction of the batch, after the check of its locktime. -/
def broadcastIfFinal (tx : BroadcastTx) (now : DateTime) : M Unit := do
  let locktimeOk ← locktimeOrRefuse p tx.nlocktime
  if locktimeOk then broadcastDueTx env p tx else recordMiss env p tx now

/-- The loop of `broadcast_due_transactions`. Safe mode, or a tampered row, ends it. -/
def broadcastDueLoop (now : DateTime) : List BroadcastTx → M Unit
  | [] => pure ()
  | tx :: txs => do
    let halted ← perform (.isSafeMode p)
    if halted then pure ()
    else if tx.tampered = some true then perform (.enterSafeMode p tx.id)
    else do
      broadcastIfFinal env p tx now
      broadcastDueLoop now txs

/-- `broadcast_due_transactions`. -/
def broadcastDueTransactions : M Unit := do
  let halted ← perform (.isSafeMode p)
  if halted then pure ()
  else do
    let network ← configNetwork p
    let now ← perform .now
    let candidates ← getDueTransactions network
    let due ← dueTxs p now candidates
    broadcastDueLoop env p now due

/-- Whether `requeue_retriable_failures` takes a failed row back. -/
def isRequeued (tx : BroadcastTx) : Bool :=
  let err := tx.errorMessage.getD ""
  isRetriableBroadcastError err
    || (0 < tx.nlocktime.getD 0 && Text.containsText err "Failed to broadcast")

/-- The loop body of `requeue_retriable_failures`. -/
def requeueFailure (tx : BroadcastTx) : M Unit :=
  if isRequeued tx then resetFailedToScheduled env tx.id else pure ()

/-- `requeue_retriable_failures`. -/
def requeueRetriableFailures : M Unit := do
  let network ← configNetwork p
  let failed ← listBroadcastTxs (some "failed") network 1000
  Prog.forEach failed (requeueFailure env)

/-- Whether the tick marks a pending row whose time has come. -/
def isTickMode (tx : BroadcastTx) : Bool :=
  (isUserScheduledMode tx.broadcastMode || tx.broadcastMode = some "scheduled")
    && tx.scheduleTrigger ≠ some "price"

/-- The loop of `run_scheduler_tick` over the pending rows whose time has come. -/
def markPendingLoop : List BroadcastTx → M Unit
  | [] => pure ()
  | tx :: txs => do
    let halted ← perform (.isSafeMode p)
    if halted then pure ()
    else if tx.tampered = some true then perform (.enterSafeMode p tx.id)
    else do
      logErrorIf (isTickMode tx) (markDue env tx.id)
      markPendingLoop txs

/-- `run_scheduler_tick`. -/
def runSchedulerTick : M Unit := do
  let halted ← perform (.isSafeMode p)
  if halted then pure ()
  else do
    let health ← perform (.chainHealth p)
    ensure (health.clockAvailable) "no chain data source available"
    let network ← configNetwork p
    let pending ← getPendingByScheduledTime network
    markPendingLoop env p pending
    let _ ← catchErr (requeueRetriableFailures env p)
    broadcastDueTransactions env p

/-- `retry_failed_transaction`. -/
def retryFailedTransaction (id : String) : M BroadcastTx := do
  let tx ← getBroadcastTxById id
  ensure (tx.status = .failed) ("Transaction " ++ id ++ " is not in failed state")
  resetFailedToScheduled env id
  let updated ← getBroadcastTxById id
  enrichTxLocktime p updated
  return updated

/-- The loop body of `rebroadcast_pending`. -/
def rebroadcastTx (tx : BroadcastTx) : M Unit := do
  match ← catchErr (broadcastTransaction p tx) with
  | .ok _ =>
    let now ← nowText env
    let _ ← orFail "Failed to execute raw SQL" (perform (.update (.rebroadcastAt tx.id now)))
  | .error _ => pure ()

/-- `n as i32`. -/
def asI32 (n : Nat) : Int :=
  if n % 2 ^ 32 < 2 ^ 31 then (n % 2 ^ 32 : Nat) else (n % 2 ^ 32 : Nat) - 2 ^ 32

/-- `rebroadcast_pending`. It reads neither the safe-mode flag nor `tampered`. -/
def rebroadcastPending : M Unit := do
  let config ← orRaise (perform (.lockConfig p))
  let txs ← getPendingRebroadcast env (asI32 config.rebroadcastIntervalMinutes) config.network
  Prog.forEach txs (rebroadcastTx env p)

/-- The loop body of `check_confirmations`, when Core answers. -/
def checkConfirmation (tx : BroadcastTx) : M Unit :=
  match tx.txid with
  | none => pure ()
  | some txid => do
    match ← perform (.rpcTransaction txid) with
    | .ok (some _) =>
      match ← perform .rpcHeight with
      | .ok height =>
        let _ ← catchErr (markConfirmed env tx.id height)
      | .error _ => pure ()
    | _ => pure ()

/-- `check_confirmations`. The indexer cannot confirm anything. -/
def checkConfirmations : M Unit := do
  let network ← configNetwork p
  let txs ← listBroadcastTxs (some "broadcast") network 1000
  if ← perform (.hasRpc p) then
    if ← perform .rpcTest then Prog.forEach txs (checkConfirmation env) else pure ()
  else pure ()

/-- `remove_transaction`. -/
def removeTransaction (id : String) : M Unit := do
  let tx ← getBroadcastTxById id
  let txid := tx.txid.or (computeTxid env tx.txHex).toOption
  let removed ← removeBroadcastTx id
  ensure (removed ≠ 0) "Transaction not found"
  match txid with
  | some txid =>
    let _ ← perform (.removePending p txid)
  | none => pure ()

/-! ### The virtual mempool -/

/-- The scripthashes that the inputs spend from. A previous transaction that cannot be
fetched is skipped. -/
def fetchInputScripthashes : List TxIn → M (List String)
  | [] => pure []
  | input :: inputs => do
    let prev ← perform (.fetchPrevTx input.prevTxid)
    let rest ← fetchInputScripthashes inputs
    match prev with
    | .ok prev => return (spentScripthash env input prev).toList ++ rest
    | .error _ => return rest

/-- `extract_affected_scripthashes`. -/
def extractAffectedScripthashes (txHex : String) : M (List String) := do
  match decodeTx env txHex with
  | .error e => bail e
  | .ok tx =>
    let spent ← fetchInputScripthashes env tx.input
    return (tx.output.map (fun out => env.scripthash out.scriptPubkey) ++ spent).dedup

/-- The outputs of a transaction, none if it does not decode. -/
def outputsOrEmpty (txHex : String) : List PendingTxOutput :=
  match extractOutputs env txHex with
  | .ok l => l
  | .error _ => []

/-- Store the entry of a held row under its txid. -/
def storeRehydrated (tx : BroadcastTx) (txid : String) : M Unit := do
  match ← catchErr (extractAffectedScripthashes env tx.txHex) with
  | .ok scripthashes =>
    perform (.storePending p txid
      { txHex := tx.txHex, scripthashes, outputs := outputsOrEmpty env tx.txHex })
  | .error _ => pure ()

/-- The loop body of `load_pending_from_db`. -/
def rehydrateTx (tx : BroadcastTx) : M Unit :=
  match tx.txid, computeTxid env tx.txHex with
  | some txid, _ => storeRehydrated env p tx txid
  | none, .ok txid => storeRehydrated env p tx txid
  | none, .error _ => pure ()

/-- `load_pending_from_db`. -/
def loadPendingFromDb : M Unit := do
  let network ← configNetwork p
  match ← perform (.lockConfig p) with
  | .ok { indexerUrl := some _, .. } =>
    let pending ← listBroadcastTxs (some "pending") network 10000
    let scheduled ← listBroadcastTxs (some "scheduled") network 10000
    Prog.forEach (pending ++ scheduled) (rehydrateTx env p)
  | _ => bail "No indexer configured for pending tx rehydration"

/-- The start of a process, up to the dispatch of its command: `main`. -/
def startUp (rpc indexer : Bool) (config : Config) : M Unit := do
  perform (.startProcess p rpc indexer config)
  openDatabase env
  refreshChainHealth p
  let _ ← catchErr (loadPendingFromDb env p)
  let _ ← catchErr (requeueRetriableFailures env p)

end BroadcastPool
