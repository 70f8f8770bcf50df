import BroadcastPool.Pool.Manager

/-!
# `BroadcastPool.Pool.Rejection`: the text of a rejected broadcast

Each backend has a reason, and each client wraps it in its own way. What the pool sees is
`e.to_string()`: for an error with a context this is the context, and the reason is lost.
-/

set_option autoImplicit false

namespace BroadcastPool

/-- `BitcoinRpc::broadcast_transaction`: the context covers whatever Core says. -/
def rpcErrorText (_reason : String) : String := "Failed to broadcast transaction"

/-- The error of `json_rpc` for the error value of an answer, in its JSON text. -/
def jsonRpcErrorText (reason : String) : String := "Indexer RPC error: " ++ reason

/-- `ElectrumClient::broadcast_transaction`, with the error of its request. -/
def indexerErrorText (msg : String) : String :=
  let lower := Text.lowercase msg
  if Text.containsText lower "non-final" || Text.containsText lower "non final" then
    "non-final: transaction locktime not yet satisfied (" ++ msg ++ ")"
  else "Failed to broadcast transaction via indexer: " ++ msg

end BroadcastPool
