import BroadcastPool.Pool.Manager

/-!
# `BroadcastPool.Pool.Broadcaster`: the broadcast of the command line

`Broadcaster` hands a row over without `PoolManager`: it has no safe-mode flag to read, and
it looks at the status only.
-/

set_option autoImplicit false

namespace BroadcastPool

open Effects

variable (env : Env)

/-- The indexer's verdict, if the command line has an indexer. -/
def rawIndexerVerdict (tx : BroadcastTx) : M (Option (Except String String)) := do
  if ← perform (.hasIndexer .cli) then
    let verdict ← perform (.indexerBroadcast tx)
    return some verdict
  else return none

/-- `Broadcaster::broadcast_raw`. -/
def broadcastRaw (tx : BroadcastTx) : M String := do
  match ← rawIndexerVerdict tx with
  | some (.ok txid) => return txid
  | _ =>
    if ← perform (.hasRpc .cli) then orRaise (perform (.rpcBroadcast tx))
    else bail "No broadcast backend available"

/-- `Broadcaster::broadcast_single`. -/
def broadcastSingle (id : String) : M String := do
  let tx ← getBroadcastTxById id
  ensure (tx.status ≠ .confirmed) ("Transaction " ++ id ++ " is already confirmed")
  let txid ← orFail ("Failed to broadcast transaction " ++ id) (catchErr (broadcastRaw tx))
  dbMarkBroadcast env id txid (tx.targetFeeRate.getD F64.zero)
  return txid

/-- The loop body of `Broadcaster::broadcast_all_pending`. -/
def broadcastPending (tx : BroadcastTx) : M Unit := do
  let _ ← catchErr (broadcastSingle env tx.id)

/-- `Broadcaster::broadcast_all_pending`. -/
def broadcastAllPending (network : String) : M Unit := do
  let txs ← listBroadcastTxs (some "pending") network 1000
  Prog.forEach txs (broadcastPending env)

end BroadcastPool
