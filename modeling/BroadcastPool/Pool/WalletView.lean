import BroadcastPool.Lib.Json
import BroadcastPool.Pool.World

/-!
# `BroadcastPool.Pool.WalletView`: held transactions in an indexer's answers

What a wallet is shown of the virtual mempool. The first part reads the map: the held
transactions that touch a scripthash, and their outputs to it. The second part puts them into
an indexer's answer: the history, the balance, the coin list and the mempool of a scripthash.

A held transaction enters a list only if the list does not name it yet, but the balance is
raised by the plain sum of its outputs. The order of a list of held transactions is the one of
the map, which the source leaves open.
-/

set_option autoImplicit false

namespace BroadcastPool

open Effects

/-! ### The held transactions of a scripthash -/

/-- An output of a held transaction: the txid, the output index and the value. -/
abbrev HeldOutput : Type := String × Nat × Nat

/-- The txids whose entry names the scripthash. -/
def PendingTxs.txidsFor (pending : PendingTxs) (scripthash : String) : List String :=
  (pending.entries.filter fun e => e.2.scripthashes.contains scripthash).map (·.1)

/-- The outputs of one held transaction to the scripthash. -/
def heldOutputsOf (scripthash txid : String) (info : PendingTxInfo) : List HeldOutput :=
  (info.outputs.filter fun out => out.scripthash = scripthash).map fun out =>
    (txid, out.outputIndex, out.value)

/-- The outputs of all held transactions to the scripthash. -/
def PendingTxs.outputsFor (pending : PendingTxs) (scripthash : String) : List HeldOutput :=
  pending.entries.flatMap fun e => heldOutputsOf scripthash e.1 e.2

/-- The value of some held outputs, as a 64-bit sum. -/
def unconfirmedValue (outputs : List HeldOutput) : Nat :=
  (outputs.map fun out => out.2.2).sum % 2 ^ 64

section
variable (p : Proc)

/-- `get_pending_txids_for_scripthash`. A poisoned map counts as empty. -/
def getPendingTxidsForScripthash (scripthash : String) : M (List String) := do
  let pending ← perform (.pendingTxs p)
  return (pending.map (·.txidsFor scripthash)).getD []

/-- `get_pending_utxos_for_scripthash`. -/
def getPendingUtxosForScripthash (scripthash : String) : M (List HeldOutput) := do
  let pending ← perform (.pendingTxs p)
  return (pending.map (·.outputsFor scripthash)).getD []

/-- `get_pending_unconfirmed_value`. -/
def getPendingUnconfirmedValue (scripthash : String) : M Nat := do
  let pending ← perform (.pendingTxs p)
  return unconfirmedValue ((pending.map (·.outputsFor scripthash)).getD [])

/-- `has_pending_tx`. -/
def hasPendingTx (txid : String) : M Bool := do
  let pending ← perform (.pendingTxs p)
  return (pending.map fun txs => (txs.lookup txid).isSome).getD false

/-- `has_pending_for_scripthash`. -/
def hasPendingForScripthash (scripthash : String) : M Bool := do
  let pending ← getPendingTxidsForScripthash p scripthash
  return !pending.isEmpty

end

/-! ### The status of a history -/

/-- The `tx_hash` field of an entry, if it is a text. -/
def txHash? (entry : Json) : Option String := (entry.get? "tx_hash").bind Json.asStr?

/-- The `tx_hash` field of an entry, empty if it is not a text. -/
def txHashOf (entry : Json) : String := (txHash? entry).getD ""

/-- The `height` field of an entry, 0 if it is not an integer. -/
def heightOf (entry : Json) : Int := ((entry.get? "height").bind Json.asI64?).getD 0

/-- The order of `compute_status_hash`: the height first, and then the txid. -/
def statusLe (a b : Json) : Prop :=
  heightOf a < heightOf b ∨ heightOf a = heightOf b ∧ txHashOf a ≤ txHashOf b

instance (a b : Json) : Decidable (statusLe a b) :=
  inferInstanceAs (Decidable (_ ∨ _))

/-- The text of one entry. -/
def statusEntry (entry : Json) : String := txHashOf entry ++ ":" ++ toString (heightOf entry) ++ ":"

/-- The entries one after the other, which is what a status is a hash of. -/
def statusText (history : List Json) : String := String.join (history.map statusEntry)

/-- `compute_status_hash`, with the hash function of the text. -/
def computeStatusHash (sha256Hex : String → String) (history : List Json) : Option String :=
  if history = [] then none
  else some (sha256Hex (statusText (history.insertionSort statusLe)))

/-! ### The injections -/

/-- The entry of a held transaction in a history. -/
def historyEntry (txid : String) : Json :=
  .obj [("height", .ofInt 0), ("tx_hash", .str txid)]

/-- `inject_in_history`. -/
def injectInHistory (history : List Json) (pendingTxids : List String) : List Json :=
  history ++ (pendingTxids.filter (· ∉ history.filterMap txHash?)).map historyEntry

/-- `compute_modified_status_hash`. -/
def computeModifiedStatusHash (sha256Hex : String → String) (realHistory : List Json)
    (pendingTxids : List String) : Option String :=
  computeStatusHash sha256Hex (injectInHistory realHistory pendingTxids)

/-- A 64-bit sum of signed numbers. -/
def wrapI64 (n : Int) : Int := n.bmod (2 ^ 64)

/-- A field of a balance, 0 if it is not an integer. -/
def satsOf (balance : Json) (field : String) : Int :=
  ((balance.get? field).bind Json.asI64?).getD 0

/-- `inject_balance_unconfirmed`. -/
def injectBalanceUnconfirmed (balance : Json) (extraSat : Nat) : Json :=
  if extraSat = 0 then balance
  else .obj
    [("confirmed", .ofInt (satsOf balance "confirmed")),
      ("unconfirmed", .ofInt (wrapI64 (satsOf balance "unconfirmed" + wrapI64 extraSat)))]

/-- The outpoint of a coin. Its index is cut to 32 bits. -/
def outpoint? (utxo : Json) : Option (String × Nat) :=
  match txHash? utxo, (utxo.get? "tx_pos").bind Json.asU64? with
  | some txid, some pos => some (txid, pos % 2 ^ 32)
  | _, _ => none

/-- The coin of a held output. -/
def heldCoin (out : HeldOutput) : Json :=
  .obj [("height", .ofInt 0), ("tx_hash", .str out.1), ("tx_pos", .ofInt out.2.1),
    ("value", .ofInt out.2.2)]

/-- `inject_listunspent`. -/
def injectListunspent (utxos : List Json) (pending : List HeldOutput) : List Json :=
  utxos ++
    (pending.filter fun out => (out.1, out.2.1) ∉ utxos.filterMap outpoint?).map heldCoin

/-- `[0, []]`. -/
def emptyMempool : List Json := [.ofInt 0, .arr []]

/-- `inject_get_mempool`. A result of another shape than a pair counts as `[0, []]`. -/
def injectGetMempool (result : Json) (pendingTxids : List String) : Json :=
  if pendingTxids = [] then result
  else
    let parts := (result.asArray?).getD emptyMempool
    let parts := if parts.length < 2 then emptyMempool else parts
    let feeTotal := ((parts[0]?).bind Json.asI64?).getD 0
    let txList := ((parts[1]?).bind Json.asArray?).getD []
    let existing := txList.filterMap fun e => (e.item? 0).bind Json.asStr?
    .arr [.ofInt feeTotal,
      .arr (txList ++ (pendingTxids.filter (· ∉ existing)).map fun txid =>
        .arr [.str txid, .ofInt 0, .ofInt 0])]

end BroadcastPool
