import BroadcastPool.Lib.Json
import BroadcastPool.Lib.Text
import BroadcastPool.Pool.World
import Mathlib.Data.List.Sort

/-!
# `BroadcastPool.Rpc.Electrum`: the chain clock of the indexer's client

`ElectrumClient::get_median_time_past` asks for the height of the tip and then for the header of
each of the last eleven blocks. What `Act.indexerMtp` stands for in the pool is one call of it.
-/

set_option autoImplicit false

namespace BroadcastPool

open Effects

/-- The requests of the client. -/
inductive RpcCall
  /-- `blockchain.headers.subscribe`. -/
  | headersSubscribe
  /-- `blockchain.block.header`. -/
  | blockHeader (height : Nat)
deriving DecidableEq, Repr

/-- `ElectrumClient::rpc` answers with a value or with an error. -/
abbrev RpcCall.Res (_ : RpcCall) : Type := Except String Json

/-- A function of the client. -/
abbrev Client (α : Type) : Type := Prog RpcCall RpcCall.Res Failure α

/-- `ElectrumClient::rpc`, with the `?` after it. -/
def rpc (call : RpcCall) : Client Json := do
  match ← Prog.perform call with
  | .ok v => return v
  | .error e => throw (.error e)

/-- `context`, on an option. -/
def context {α : Type} (text : String) : Option α → Client α
  | some a => return a
  | none => throw (.error text)

/-- `u32::from_le_bytes`, on bytes of any number. -/
def fromLeBytes : List UInt8 → Nat
  | [] => 0
  | b :: bs => b.toNat + 256 * fromLeBytes bs

/-- `raw[68..72]`: the time of a block header. -/
def headerTime (raw : List UInt8) : Nat := fromLeBytes ((raw.drop 68).take 4)

/-- The height in an answer to `blockchain.headers.subscribe`. -/
def answeredHeight (v : Json) : Option Nat := (v.get? "height").bind Json.asU64?

/-- `ElectrumClient::get_block_height`. -/
def getBlockHeight : Client Nat := do
  let header ← rpc .headersSubscribe
  context "Failed to parse block height from indexer" (answeredHeight header)

/-- The time that the loop of `get_median_time_past` reads from a header's text. The length that it
asks for is four bytes short of what it reads. -/
def readTime (headerHex : String) : Except Failure (Option Nat) :=
  match Text.hexDecode headerHex with
  | none => .ok none
  | some raw =>
    if 68 ≤ raw.length then
      if 72 ≤ raw.length then .ok (some (headerTime raw))
      else .error (.panic "range end index out of range for slice")
    else .ok none

/-- The loop of `get_median_time_past` over some heights. -/
def collectTimes : List Nat → List Nat → Client (List Nat)
  | [], times => return times
  | height :: heights, times => do
    let answer ← rpc (.blockHeader height)
    let headerHex ← context "Invalid block header response" answer.asStr?
    match ← Prog.ofExcept (readTime headerHex) with
    | some time => collectTimes heights (times ++ [time])
    | none => collectTimes heights times

/-- `start..=tip`, with the height of the tip cut to 32 bits. -/
def medianHeights (height : Nat) : List Nat :=
  let tip := height % 2 ^ 32
  let start := tip - 10
  List.range' start (tip + 1 - start)

/-- The rest of `get_median_time_past`, after its loop. -/
def middleTime (times : List Nat) : Except Failure Nat :=
  let sorted := times.insertionSort (· ≤ ·)
  if sorted.isEmpty then
    .error (.error "No block headers available for median time past")
  else
    match sorted[sorted.length / 2]? with
    | some time => .ok time
    | none => .error (.panic "index out of bounds")

/-- `ElectrumClient::get_median_time_past`. -/
def getMedianTimePastOfIndexer : Client Nat := do
  let height ← getBlockHeight
  let times ← collectTimes (medianHeights height) []
  Prog.ofExcept (middleTime times)

end BroadcastPool
