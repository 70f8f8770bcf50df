import BroadcastPool.Env
import BroadcastPool.Lib.Text
import Mathlib.Data.List.Dedup

/-!
# `BroadcastPool.Pool.VirtualMempool`: what a held transaction touches

Functions of a transaction's hex text: its txid, its outputs and their scripthashes. A set of
scripthashes is a list without repetitions. The functions that look up previous transactions
take the lookup as an argument.
-/

set_option autoImplicit false

namespace BroadcastPool

/-- `PendingTxOutput`. -/
structure PendingTxOutput where
  outputIndex : Nat
  value : Nat
  scripthash : String
deriving DecidableEq, Repr

/-- `PendingTxInfo`, one entry of the virtual mempool. -/
structure PendingTxInfo where
  txHex : String
  scripthashes : List String
  outputs : List PendingTxOutput
deriving DecidableEq, Repr

variable (env : Env)

/-- `decode_tx`. Bytes after the transaction are ignored. -/
def decodeTx (txHex : String) : Except String Transaction :=
  match Text.hexDecode (Text.trim txHex) with
  | none => .error "Invalid tx hex"
  | some raw =>
    match env.consensusDecode raw with
    | none => .error "Failed to decode transaction"
    | some (tx, _) => .ok tx

/-- `alternate_txid_format`: the txid with its bytes in the other order. -/
def alternateTxidFormat (txid : String) : Option String :=
  match Text.hexDecode (Text.trim txid) with
  | some bytes => if bytes.length = 32 then some (Text.hexEncode bytes.reverse) else none
  | none => none

/-- `compute_txid`. -/
def computeTxid (txHex : String) : Except String String :=
  (decodeTx env txHex).map env.electrumTxid

/-- `extract_outputs`. -/
def extractOutputs (txHex : String) : Except String (List PendingTxOutput) :=
  (decodeTx env txHex).map fun tx =>
    tx.output.zipIdx.map fun (out, i) =>
      { outputIndex := i, value := out.value, scripthash := env.scripthash out.scriptPubkey }

/-- `extract_affected_scripthashes_opts` with `fast = true`: the output scripthashes. -/
def extractOutputScripthashes (txHex : String) : Except String (List String) :=
  (decodeTx env txHex).map fun tx =>
    (tx.output.map fun out => env.scripthash out.scriptPubkey).dedup

/-- The scripthash an input spends from, given the previous transaction. -/
def spentScripthash (input : TxIn) (prev : Transaction) : Option String :=
  (prev.output[input.vout]?).map fun out => env.scripthash out.scriptPubkey

/-- `output_value_btc_from_hex`. The whole text has to be one transaction, and the sum of
the outputs is a 64-bit sum. -/
def outputValueBtcFromHex (txHex : String) : Option F64 :=
  match Text.hexDecode (Text.trim txHex) with
  | none => none
  | some raw =>
    match env.consensusDecode raw with
    | some (tx, []) => some (env.satsToBtc ((tx.output.map (·.value)).sum % 2 ^ 64))
    | _ => none

/-- `strip_indexer_host`. -/
def stripIndexerHost (url : String) : String :=
  ((Text.stripPrefix? url "tcp://").or (Text.stripPrefix? url "ssl://")).getD url

/-- The entry an ingest stores before any input is looked up. -/
def outputsOnlyEntry (txHex : String) : PendingTxInfo :=
  { txHex
    scripthashes := match extractOutputScripthashes env txHex with
      | .ok l => l
      | .error _ => []
    outputs := match extractOutputs env txHex with
      | .ok l => l
      | .error _ => [] }

end BroadcastPool
