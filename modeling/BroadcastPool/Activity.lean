import BroadcastPool.ElectrumServer.Ingest
import BroadcastPool.Lib.Attributed
import BroadcastPool.Pool.Broadcaster
import BroadcastPool.Pool.Scheduler

/-!
# `BroadcastPool.Activity`: everything the program does with the pool

An `Activity` is a piece of work that the program starts on its own or on a request: one pass
of a loop of the daemon, one request of the dashboard, one part of a wallet's broadcast, one
command line, one start of the daemon. `Activity.prog` is the function that does it.

A command line is a process of its own. It opens the database and builds its `PoolManager`
before it does what it was asked to do.

`workDeeds` are the actions of an interleaving of pieces of work, each with its piece of work.
-/

set_option autoImplicit false

namespace BroadcastPool

open Effects

/-- The command lines that write the pool table. -/
inductive Command
  | importTxs (txs : List NewBroadcastTx)
  | broadcast (id : String)
  | broadcastAll
  | schedule (id : String) (minDelayHours maxDelayHours : Option Nat)
      (minFeeRate maxFeeRate : Option F64)
  | scheduleAll
  | remove (id : String)
  /-- A command that only shows something. -/
  | display

/-- A piece of work. -/
inductive Activity
  -- one pass of a loop of the daemon
  | broadcastLoop
  | blockHeightMonitor
  | priceMonitor (prices : String → Option F64)
  | rebroadcastLoop
  | confirmationChecker
  | retention (key : Key)
  | chainHealthPoll
  -- a request of the dashboard
  | importTx (newTx : NewBroadcastTx)
  | scheduleAt (id : String) (scheduledTime : DateTime) (feeRate : F64)
  | scheduleByPrice (id : String) (targetPrice : F64) (priceCurrency priceCondition : String)
      (feeRate : F64)
  | scheduleTransaction (id : String) (minDelayHours maxDelayHours : Option Nat)
      (minFeeRate maxFeeRate fixedFeeRate : Option F64)
  | retry (id : String)
  | broadcastNow (id : String)
  | remove (id : String)
  | acknowledge
  | archiveFlush (key : Key)
  | saveConfig (request : SaveConfigRequest)
  -- the two parts of a wallet's broadcast
  | preAck (txHex : String)
  | ingest (txHex sourceLabel : String)
  -- the start of a process
  | restart (rpc indexer : Bool) (config : Config)
  | command (rpc indexer : Bool) (config : Config) (c : Command)

/-- `save_config`, as far as the schedule is concerned. The height of the chain is read before the
lock is taken. -/
def saveConfig (p : Proc) (request : SaveConfigRequest) : M Unit := do
  let health ← perform (.chainHealth p)
  orRaise (perform (.saveConfig p request health.height))

variable (env : Env)

/-- `archive_flush` with the archive unlocked. -/
def archiveFlush (p : Proc) (key : Key) : M Unit := do
  let config ← orRaise (perform (.lockConfig p))
  let now ← perform .now
  archiveTerminalOlderThan env key config.network (env.toRfc3339 now)

/-- The loop body of `import`: a transaction with a scheduled time is scheduled again, with
the configured delays. -/
def importAndSchedule (newTx : NewBroadcastTx) : M Unit := do
  let tx ← importTransaction env newTx
  if newTx.scheduledTime.isSome then
    let _ ← scheduleTransaction env .cli tx.id none none none none none
  else pure ()

/-- What a command line does after its start. -/
def Command.prog (network : String) : Command → M Unit
  | importTxs txs => Prog.forEach txs (importAndSchedule env)
  | broadcast id => do
    let _ ← broadcastSingle env id
  | broadcastAll => broadcastAllPending env network
  | schedule id minDelay maxDelay minFee maxFee => do
    let _ ← scheduleTransaction env .cli id minDelay maxDelay minFee maxFee none
  | scheduleAll => scheduleAllPending env .cli network
  | remove id => removeTransaction env .cli id
  | display => pure ()

/-- The function that does a piece of work. -/
def Activity.prog : Activity → M Unit
  | broadcastLoop => broadcastLoopPass env .daemon
  | blockHeightMonitor => blockHeightMonitorPass env .daemon
  | priceMonitor prices => priceMonitorPass env .daemon prices
  | rebroadcastLoop => rebroadcastLoopPass env .daemon
  | confirmationChecker => confirmationCheckerPass env .daemon
  | retention key => retentionPass env .daemon key
  | chainHealthPoll => refreshChainHealth .daemon
  | importTx newTx => do
    let _ ← importTransaction env newTx
  | scheduleAt id scheduledTime feeRate => do
    let _ ← BroadcastPool.scheduleAt env .daemon id scheduledTime feeRate
  | scheduleByPrice id targetPrice priceCurrency priceCondition feeRate => do
    let _ ← BroadcastPool.scheduleByPrice env .daemon id targetPrice priceCurrency
      priceCondition feeRate
  | scheduleTransaction id minDelay maxDelay minFee maxFee fixedFee => do
    let _ ← BroadcastPool.scheduleTransaction env .daemon id minDelay maxDelay minFee maxFee
      fixedFee
  | retry id => do
    let _ ← retryFailedTransaction env .daemon id
  | broadcastNow id => do
    let _ ← BroadcastPool.broadcastNow env .daemon id
  | remove id => removeTransaction env .daemon id
  | acknowledge => perform (.clearSafeMode .daemon)
  | archiveFlush key => BroadcastPool.archiveFlush env .daemon key
  | saveConfig request => BroadcastPool.saveConfig .daemon request
  | preAck txHex => preAckStore env .daemon txHex
  | ingest txHex sourceLabel => ingestTask env .daemon txHex sourceLabel
  | restart rpc indexer config => startUp env .daemon rpc indexer config
  | command rpc indexer config c => do
    startUp env .cli rpc indexer config
    c.prog env config.network

/-- The work that hands rows over without a look at `tampered` or at the safe-mode flag. -/
def Activity.handsOverUnchecked : Activity → Bool
  | rebroadcastLoop => true
  | command _ _ _ (.broadcast _) | command _ _ _ .broadcastAll => true
  | _ => false

/-- A start of the daemon. -/
def Activity.isRestart : Activity → Bool
  | restart .. => true
  | _ => false

/-- A performed action, and the piece of work that has performed it. -/
abbrev WorkDeed : Type := Deed Activity Act Act.Res World

/-- The decisions about the programs of the pieces of work. -/
abbrev workSchedule (os : List (Order Activity)) : List (Choice Act Act.Res Failure) :=
  os.map (Order.choice (Activity.prog env))

/-- What the pieces of work do, from a world in which nothing runs. -/
abbrev workDeeds (w : World) (os : List (Order Activity)) : List WorkDeed :=
  Effects.Config.deeds (World.exec env) (Activity.prog env) ⟨w, []⟩ {} os

end BroadcastPool
