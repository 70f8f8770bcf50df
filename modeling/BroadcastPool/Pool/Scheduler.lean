import BroadcastPool.Pool.Manager

/-!
# `BroadcastPool.Pool.Scheduler`: one pass of each background loop

Every loop of the scheduler sleeps and then does one pass. A pass that fails is logged, and
the loop goes on. The sleeps and the back-off are left out, so a pass can start at any time.
-/

set_option autoImplicit false

namespace BroadcastPool

open Effects

variable (env : Env) (p : Proc)

/-- One pass of `run_broadcast_loop`. -/
def broadcastLoopPass : M Unit := do
  let halted ← perform (.isSafeMode p)
  if halted then pure () else runSchedulerTick env p

/-- Whether a row waits for a block that `height` has reached. -/
def isBlockReached (height : Nat) (tx : BroadcastTx) : Bool :=
  tx.broadcastMode = some "by_block" &&
    match tx.nlocktime with
    | some n => 0 < n && n < 500000000 && n ≤ height
    | none => false

/-- The loop body of `run_block_height_monitor`. -/
def markBlockReached (height : Nat) (tx : BroadcastTx) : M Unit :=
  logErrorIf (isBlockReached height tx) (markDue env tx.id)

/-- One pass of `run_block_height_monitor`. -/
def blockHeightMonitorPass : M Unit := do
  let network ← configNetwork p
  let health ← perform (.chainHealth p)
  if health.clockAvailable then
    match ← checkBlockHeight p with
    | some height =>
      let txs ← getPendingByBlockHeight network
      Prog.forEach txs (markBlockReached env height)
    | none => pure ()
  else pure ()

/-- One pass of `run_rebroadcast_loop`. -/
def rebroadcastLoopPass : M Unit := do
  let health ← perform (.chainHealth p)
  if health.clockAvailable then rebroadcastPending env p else pure ()

/-- One pass of `run_confirmation_checker`. -/
def confirmationCheckerPass : M Unit := do
  let health ← perform (.chainHealth p)
  if health.clockAvailable then checkConfirmations env p else pure ()

/-- One pass of `run_price_monitor` whose prices are not stale. -/
def priceMonitorPass (prices : String → Option F64) : M Unit :=
  checkPriceTriggers env p prices

/-- One pass of `run_retention_loop` with the archive unlocked. -/
def retentionPass (key : Key) : M Unit := do
  let config ← orRaise (perform (.lockConfig p))
  let now ← perform .now
  let cutoff := env.toRfc3339 (now - config.expiryDays * 86400 * 1000000000)
  archiveTerminalOlderThan env key config.network cutoff

end BroadcastPool
