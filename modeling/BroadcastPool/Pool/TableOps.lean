import BroadcastPool.Pool.Manager

/-!
# `BroadcastPool.Pool.TableOps`: the operations on the pool table

`TableOp` lists the operations through which the program writes `broadcast_pool`, with their
arguments. `TableOp.prog` is the function each one runs. A restart opens the database again,
with all its migrations.
-/

set_option autoImplicit false

namespace BroadcastPool

/-- An operation that writes the pool table. -/
inductive TableOp
  | insert (tx : NewBroadcastTx)
  | scheduleAt (p : Proc) (id : String) (scheduledTime : DateTime) (feeRate : F64)
  | scheduleByPrice (p : Proc) (id : String) (targetPrice : F64)
      (priceCurrency priceCondition : String) (feeRate : F64)
  | scheduleTransaction (p : Proc) (id : String) (minDelayHours maxDelayHours : Option Nat)
      (minFeeRate maxFeeRate fixedFeeRate : Option F64)
  | scheduleAllPending (p : Proc) (network : String)
  | markDue (id : String)
  | markDueFromPriceTrigger (id : String)
  | markDueWithSchedule (id : String) (scheduledTime : DateTime)
  | markBroadcast (id txid : String) (feeRate : F64)
  | markConfirmed (id : String) (blockHeight : Nat)
  | updateTxStatus (id : String) (status : TxStatus) (error : Option String)
  | resetFailedToScheduled (id : String)
  | recordBroadcastMiss (id missedAt : String) (originalScheduled : Option String)
  | rebroadcastPending (p : Proc)
  | restart

variable (env : Env)

/-- The function an operation runs. -/
def TableOp.prog : TableOp → M Unit
  | insert tx => do
    let _ ← insertBroadcastTx env tx
  | scheduleAt p id scheduledTime feeRate => do
    let _ ← BroadcastPool.scheduleAt env p id scheduledTime feeRate
  | scheduleByPrice p id targetPrice priceCurrency priceCondition feeRate => do
    let _ ← BroadcastPool.scheduleByPrice env p id targetPrice priceCurrency priceCondition
      feeRate
  | scheduleTransaction p id minDelay maxDelay minFee maxFee fixedFee => do
    let _ ← BroadcastPool.scheduleTransaction env p id minDelay maxDelay minFee maxFee fixedFee
  | scheduleAllPending p network => BroadcastPool.scheduleAllPending env p network
  | markDue id => BroadcastPool.markDue env id
  | markDueFromPriceTrigger id => BroadcastPool.markDueFromPriceTrigger env id
  | markDueWithSchedule id scheduledTime =>
    BroadcastPool.markDueWithSchedule env id scheduledTime
  | markBroadcast id txid feeRate => dbMarkBroadcast env id txid feeRate
  | markConfirmed id blockHeight => BroadcastPool.markConfirmed env id blockHeight
  | updateTxStatus id status error => BroadcastPool.updateTxStatus env id status error
  | resetFailedToScheduled id => BroadcastPool.resetFailedToScheduled env id
  | recordBroadcastMiss id missedAt originalScheduled =>
    BroadcastPool.recordBroadcastMiss env id missedAt originalScheduled
  | rebroadcastPending p => BroadcastPool.rebroadcastPending env p
  | restart => openDatabase env

end BroadcastPool
