import BroadcastPool.Api.SaveConfig
import BroadcastPool.Pool.Manager

/-!
# `BroadcastPool.Api.Import`: imports from the dashboard and from the command line

Two of the three ways into the pool. The dashboard decodes the transaction and refuses one without
signatures. The command line only wants hex digits. Both store the text as it came. The third way
is a wallet's broadcast, in `BroadcastPool.ElectrumServer.Ingest`.
-/

set_option autoImplicit false

namespace BroadcastPool

open Effects

variable (env : Env)

/-- `is_unsigned`. -/
def isUnsigned (txHex : String) : Except String Bool :=
  (decodeTx env txHex).map fun tx =>
    if tx.input.isEmpty then false
    else tx.input.any fun input => input.scriptSig.isEmpty && input.witness.isEmpty

namespace Api

/-- `ImportRequest`. -/
structure ImportRequest where
  txHex : String
  label : Option String := none
  targetFeeRate : Option F64 := none
  network : Option String := none
deriving DecidableEq, Repr

/-- The row that the dashboard asks for. -/
def ImportRequest.newTx (req : ImportRequest) (network : String) : NewBroadcastTx where
  txHex := req.txHex
  network := req.network.getD network
  broadcastMode := some "imported"
  targetFeeRate := req.targetFeeRate
  sourceLabel := req.label
  utxoCount := some 1

/-- `import_transaction` of the dashboard. -/
def importTransaction (req : ImportRequest) : M (Except (StatusCode × String) BroadcastTx) := do
  match ← perform (.lockConfig .daemon) with
  | .error e => return .error (.internalServerError, e)
  | .ok config =>
    match isUnsigned env req.txHex with
    | .ok true => return .error (.badRequest,
        "This transaction is not signed — its inputs carry no signature, so the network " ++
        "would reject it. Copy the final hex from your wallet after signing.")
    | .error e => return .error (.badRequest, "Could not decode this transaction: " ++ e)
    | .ok false =>
      match ← catchErr (BroadcastPool.importTransaction env (req.newTx config.network)) with
      | .ok tx => return .ok tx
      | .error e => return .error (.internalServerError, e)

end Api

/-- `import_raw_tx_hex`. -/
def importRawTxHex (hex network : String) (label : Option String) :
    Except String NewBroadcastTx :=
  match Text.hexDecode hex with
  | none => .error "Invalid hex data"
  | some _ => .ok
    { txHex := hex
      network := network
      sourceLabel := label
      utxoCount := some 1 }

/-- `Commands::Import` of one transaction in hex. -/
def importCommand (tx network : String) (label : Option String)
    (scheduledTime : Option DateTime) : M Unit :=
  match importRawTxHex tx network label with
  | .error e => bail e
  | .ok newTx => do
    let imported ← importTransaction env { newTx with scheduledTime }
    if scheduledTime.isSome then
      let _ ← scheduleTransaction env .cli imported.id none none none none none
    else pure ()

end BroadcastPool
