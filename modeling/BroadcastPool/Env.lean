import BroadcastPool.Db.Models

/-!
# `BroadcastPool.Env`: what the program gets from outside its own source

`Env` collects the functions of the libraries (encryption, clocks, time formats, consensus
decoding) and the answers of the outside world (random draws, database faults, the indexer
and Bitcoin Core). An answer of the outside world depends on the number of the action that
asks for it, so that two questions can have two answers. A theorem that quantifies over `Env`
holds for every library function and for every outside world.
-/

set_option autoImplicit false

namespace BroadcastPool

/-- A 32-byte key. -/
abbrev Key : Type := List UInt8

/-- An input of a transaction. `prevTxid` is the previous txid in Electrum order. -/
structure TxIn where
  prevTxid : String
  vout : Nat
  scriptSig : List UInt8
  witness : List (List UInt8)
  sequence : Nat
deriving DecidableEq, Repr

/-- An output of a transaction, in satoshis. -/
structure TxOut where
  value : Nat
  scriptPubkey : List UInt8
deriving DecidableEq, Repr

/-- A decoded transaction. -/
structure Transaction where
  version : Int
  lockTime : Nat
  input : List TxIn
  output : List TxOut
deriving DecidableEq, Repr

/-- The libraries and the outside world. The first argument of an oracle is the number of
the action that consults it. -/
structure Env where
  /-- The key of `pool.key`. -/
  key : Key
  /-- `hex::encode(crypto::mac(key, data))`. -/
  mac : Key → String → String
  /-- `hex::encode(crypto::seal(key, plaintext, aad))`, with a fresh nonce for each draw. -/
  sealHex : Key → Nat → String → String → String
  /-- Hex-decode, `crypto::open` and read as UTF-8. -/
  openHex : Key → String → String → Except String String
  /-- `DateTime::to_rfc3339`. -/
  toRfc3339 : DateTime → String
  /-- `DateTime::parse_from_rfc3339`, in UTC. -/
  parseRfc3339 : String → Option DateTime
  /-- `NaiveDateTime::parse_from_str` with `%Y-%m-%dT%H:%M`, taken as UTC. -/
  parseNaive : String → Option DateTime
  /-- `f64::to_string`. -/
  f64ToString : F64 → String
  /-- The number SQLite makes of a text bound to a `REAL` column, if it looks like one. -/
  realAffinity : String → Option F64
  /-- `sats as f64 / 100_000_000.0`. -/
  satsToBtc : Nat → F64
  /-- `serde_json::to_vec` of a row that is archived. -/
  txToJson : BroadcastTx → String
  /-- `Transaction::consensus_decode`: a transaction and the bytes after it. -/
  consensusDecode : List UInt8 → Option (Transaction × List UInt8)
  /-- `electrum_txid(&tx.compute_txid())`. -/
  electrumTxid : Transaction → String
  /-- `compute_scripthash`. -/
  scripthash : List UInt8 → String
  /-- `Utc::now()`. -/
  clock : Nat → DateTime
  /-- `Instant::now()`, in nanoseconds. -/
  instant : Nat → Nat
  /-- `Uuid::new_v4().to_string()`. -/
  uuid : Nat → String
  /-- A random number, for `gen_range`. -/
  random : Nat → Nat
  /-- Whether `gen_range` accepts a range of floats. It panics on any other. -/
  floatRangeOk : F64 → F64 → Bool
  /-- `gen_range` on a range of floats. -/
  randomF64 : Nat → F64 → F64 → F64
  /-- The error of the SQL statement of this action, if the database refuses it. -/
  dbFault : Nat → Option String
  /-- How many rows `backfill_output_values` writes before the statement that fails. -/
  backfillFaultAfter : Nat → Nat
  /-- Whether `MIGRATION_007` is refused, which `run_migrations` only logs. -/
  migrationRefused : Nat → Bool
  /-- Whether the config mutex is poisoned. -/
  configPoisoned : Nat → Bool
  /-- Whether the mutex of the virtual mempool is poisoned. -/
  pendingPoisoned : Nat → Bool
  /-- `ElectrumClient::broadcast_transaction`. -/
  indexerBroadcast : Nat → String → Except String String
  /-- `BitcoinRpc::broadcast_transaction`. -/
  rpcBroadcast : Nat → String → Except String String
  /-- `ElectrumClient::get_block_height`. -/
  indexerHeight : Nat → Except String Nat
  /-- `ElectrumClient::get_median_time_past`. -/
  indexerMtp : Nat → Except String Nat
  /-- `BitcoinRpc::get_block_count`. -/
  rpcHeight : Nat → Except String Nat
  /-- `BitcoinRpc::get_median_time`. -/
  rpcMtp : Nat → Except String Nat
  /-- `BitcoinRpc::get_chain_status`: height, median time, initial block download. -/
  rpcChainStatus : Nat → Except String (Nat × Nat × Bool)
  /-- `BitcoinRpc::get_transaction`: the hash of the block that holds the transaction. -/
  rpcTransaction : Nat → String → Except String (Option String)
  /-- `BitcoinRpc::test_connection().unwrap_or(false)`. -/
  rpcTest : Nat → Bool
  /-- `ElectrumClient::test_connection().unwrap_or(false)`. -/
  indexerTest : Nat → Bool
  /-- `forward_to_indexer_sync`: the indexer's answer to one line of text. -/
  indexerAnswer : Nat → String → Except String String
  /-- The error of a write to the wallet's connection, if it fails. -/
  clientGone : Nat → Option String
  /-- `fetch_prev_tx` for one previous txid. -/
  fetchPrevTx : Nat → String → Except String Transaction

end BroadcastPool
