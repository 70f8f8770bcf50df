import BroadcastPool.Activity
import BroadcastPool.ElectrumServer.Headers

/-!
# `BroadcastPool.Sample`: one concrete outside world

`sampleEnv` answers every question with a simple value: the clock is the action count, the
text of an instant is its number, the MAC of a text is the text itself, and sealing is the
identity. Every byte string with at least one byte is a transaction whose txid is its first
byte. Runs on it can be evaluated, which is what the concrete runs in the proofs use.
-/

set_option autoImplicit false

namespace BroadcastPool

open Effects

/-- The number a decimal text stands for. -/
def decimalValue (s : String) : Nat :=
  s.toList.foldl (fun n c => 10 * n + (c.toNat - '0'.toNat)) 0

/-- A concrete outside world. -/
def sampleEnv : Env where
  key := []
  mac _ data := data
  sealHex _ _ plaintext _ := plaintext
  openHex _ blob _ := .ok blob
  toRfc3339 t := toString t
  parseRfc3339 s := some (decimalValue s : Nat)
  parseNaive _ := none
  f64ToString x := toString x.bits.toNat
  realAffinity s := some ⟨BitVec.ofNat 64 (decimalValue s)⟩
  satsToBtc _ := F64.zero
  txToJson tx := tx.id
  consensusDecode
    | [] => none
    | b :: _ => some ({ version := b.toNat, lockTime := 0, input := [], output := [] }, [])
  electrumTxid tx := toString tx.version
  scripthash _ := ""
  clock n := n
  instant n := n
  uuid n := "id" ++ toString n
  random _ := 0
  floatRangeOk _ _ := true
  randomF64 _ lo _ := lo
  dbFault _ := none
  backfillFaultAfter _ := 0
  migrationRefused _ := false
  configPoisoned _ := false
  pendingPoisoned _ := false
  indexerBroadcast _ txHex := .ok txHex
  rpcBroadcast _ _ := .error "unreachable"
  indexerHeight _ := .ok 100
  indexerMtp _ := .ok 1700000000
  rpcHeight _ := .ok 100
  rpcMtp _ := .ok 1700000000
  rpcChainStatus _ := .error "unreachable"
  rpcTransaction _ _ := .error "unreachable"
  rpcTest _ := false
  indexerTest _ := true
  indexerAnswer _ _ := .error "unreachable"
  clientGone _ := none
  fetchPrevTx _ _ := .error "unreachable"

/-- A configuration with an indexer. -/
def sampleConfig : Config where
  network := "testnet4"
  indexerUrl := some "tcp://127.0.0.1:50001"

/-- A daemon with an indexer, a command line, and an empty pool. -/
def sampleWorld : World where
  daemon := { indexer := true, config := sampleConfig }
  cli := { indexer := true, config := sampleConfig }

/-- A transaction that a user imports. -/
def sampleImport : NewBroadcastTx where
  txHex := "07"
  network := "testnet4"
  broadcastMode := some "imported"

/-- Its row. -/
def sampleRow : Row := newRow sampleEnv sampleImport "id0" "0" "07" none none

/-- A daemon whose indexer is up, with one row in the pool. -/
def servedWorld (row : Row) : World :=
  { sampleWorld with
    pool := [row]
    daemon := { sampleWorld.daemon with
      chainHealth := { indexerUp := true, source := .indexer, polled := true } } }

/-- One tick of the scheduler over a row that is due. -/
def tickSchedule : List (Choice Act Act.Res Failure) :=
  .start (Activity.broadcastLoop.prog sampleEnv) :: List.replicate 30 (.step 0)

/-- The sample row, scheduled for a time that has passed. -/
def dueRow : Row :=
  resealed sampleEnv { sampleRow with status := "scheduled", scheduledTime := some "0" }

/-! ### A wallet session -/

mutual

/-- The JSON text of a value, for texts and keys that need no escapes. -/
def sampleText : Json → String
  | .null => "null"
  | .bool b => if b then "true" else "false"
  | .num (.int n) => toString n
  | .num (.float _) => "0.0"
  | .str s => "\"" ++ s ++ "\""
  | .arr items => "[" ++ String.intercalate "," (sampleItems items) ++ "]"
  | .obj fields => "\x7b" ++ String.intercalate "," (sampleFields fields) ++ "\x7d"
termination_by structural v => v

/-- The texts of the items of an array. -/
def sampleItems : List Json → List String
  | [] => []
  | v :: vs => sampleText v :: sampleItems vs
termination_by structural vs => vs

/-- The texts of the fields of an object. -/
def sampleFields : List (String × Json) → List String
  | [] => []
  | field :: fields => sampleField field :: sampleFields fields
termination_by structural fields => fields

/-- The text of one field. -/
def sampleField : String × Json → String
  | (key, v) => "\"" ++ key ++ "\":" ++ sampleText v
termination_by structural field => field

end

/-- Libraries that can read the answers of a list, by their texts. -/
def sampleLibs (answers : List Json) : ElectrumLibs where
  fromStr s := answers.find? fun v => sampleText v = s
  toText := sampleText
  sha256Hex s := s

/-- An indexer that gives one answer to everything. -/
def answeringEnv (answer : Json) : Env :=
  { sampleEnv with indexerAnswer := fun _ _ => .ok (sampleText answer) }

/-- An indexer that answers each request by its text. -/
def repliesEnv (replies : List (Json × Json)) : Env :=
  { sampleEnv with
    indexerAnswer := fun _ text =>
      match replies.find? fun r => sampleText r.1 = text with
      | some r => .ok (sampleText r.2)
      | none => .error "unreachable" }

/-- A request about the scripthash "ab". -/
def sampleRequest (method : String) : JsonRpcRequest where
  jsonrpc := some "2.0"
  method := method
  params := some (.arr [.str "ab"])
  id := .ofInt 1

/-- A daemon that holds the transaction "07", with one output to "ab". -/
def holdingWorld : World :=
  { sampleWorld with
    daemon := { sampleWorld.daemon with
      pendingTxs := (∅ : PendingTxs).insert "07"
        { txHex := "07", scripthashes := ["ab"]
          outputs := [{ outputIndex := 0, value := 5000, scripthash := "ab" }] } } }

/-- A world in which every transaction has one output, to "ab", and the transaction "08" spends
the output of "07". -/
def chainEnv (answer : Json) : Env :=
  { answeringEnv answer with
    scripthash := fun _ => "ab"
    consensusDecode
      | [] => none
      | b :: _ => some
        ({ version := b.toNat, lockTime := 0
           input := if b = 8 then
              [{ prevTxid := "7", vout := 0, scriptSig := [], witness := [], sequence := 0 }]
            else []
           output := [{ value := 5000, scriptPubkey := [] }] }, []) }

/-- The world after the wallet has sent "07" and then "08". -/
def chainWorld (answer : Json) : World :=
  ((preAckStore (chainEnv answer) .daemon "08").run (World.exec (chainEnv answer))
    ((preAckStore (chainEnv answer) .daemon "07").run (World.exec (chainEnv answer))
      sampleWorld).2).2

/-- A coin of a coin list. -/
def sampleCoin (txid : String) (height value : Int) : Json :=
  .obj [("height", .ofInt height), ("tx_hash", .str txid), ("tx_pos", .ofInt 0),
    ("value", .ofInt value)]

/-- An entry of a history. -/
def sampleEntry (txid : String) (height : Int) : Json :=
  .obj [("height", .ofInt height), ("tx_hash", .str txid)]

/-! ### Block headers -/

/-- The header of the first block. -/
def genesisHeader : Header where
  version := 1
  prevBlockhash := "0000000000000000000000000000000000000000000000000000000000000000"
  merkleRoot := "4a5e1e4baab89f3a32518a88c31bc87f618f76673e2cc77ab2127b7afdeda33b"
  time := 1231006505
  bits := 486604799
  nonce := 2083236893

/-- Its hex text. -/
def genesisHex : String :=
  "0100000000000000000000000000000000000000000000000000000000000000000000003ba3edfd" ++
  "7a7b12b27ac72c3e67768f617fc81bc3888a51323a9fb8aa4b1e5e4a29ab5f49ffff001d1dac2b7c"

/-- Libraries that know the first block. Any other header has its time as its hash. -/
def sampleHeaders : HeaderLibs where
  deserialize bytes := if some bytes = Text.hexDecode genesisHex then some genesisHeader else none
  serializeHex h := if h = genesisHeader then genesisHex else h.prevBlockhash ++ toString h.time
  blockHash h :=
    if h = genesisHeader then "000000000019d6689c085ae165831e934ff763ae46a2a6c172b3f1b60a8ce26f"
    else toString h.time
  allZeros := "0000000000000000000000000000000000000000000000000000000000000000"

/-- A daemon that knows the real tip. -/
def polledWorld (realHeight : Nat) : World :=
  { sampleWorld with
    daemon := { sampleWorld.daemon with
      cachedChainTip := some (realHeight, genesisHex)
      chainHealth := { indexerUp := true, height := some realHeight, source := .indexer,
                       polled := true } } }

/-- The same daemon with an armed virtual block. -/
def armedWorld (targetHeight realHeight : Nat) : World :=
  { polledWorld realHeight with
    daemon := { (polledWorld realHeight).daemon with
      config := { sampleConfig with
        schedule := { lianaVirtualBlock :=
          { enabled := true, targetHeight, armedAtHeight := 98 } } } } }

end BroadcastPool
