import BroadcastPool.Pool.Manager

/-!
# `BroadcastPool.ElectrumServer.Ingest`: from a wallet's broadcast to a pool row

A wallet's broadcast is handled in two parts. `preAckStore` runs before the wallet gets its
answer: it puts the transaction into the virtual mempool. `ingestTask` runs in the background
after it: `handleBroadcast` decides when the transaction is to be sent, inserts the row and
stores the entry again, and `enrichPendingInputScripthashes` adds the scripthashes that the
inputs spend from.

The background task only logs an error, a panic or a timeout of `handleBroadcast`. A timeout
does not stop it, because a blocking task cannot be cancelled.
-/

set_option autoImplicit false

namespace BroadcastPool

open Effects

variable (env : Env) (p : Proc)

/-! ### Previous transactions -/

/-- The answer of `q`, or of `r` if `q` finds nothing. -/
def orElse? {α : Type} (q r : M (Option α)) : M (Option α) := do
  match ← q with
  | some a => return some a
  | none => r

/-- `find` on the txid in the other byte order. -/
def onAlternate (txid : String) (find : String → M (Option String)) : M (Option String) :=
  match alternateTxidFormat txid with
  | some alt => find alt
  | none => pure none

/-- `get_pending_tx_hex`. -/
def getPendingTxHex (txid : String) : M (Option String) := do
  let pending ← perform (.pendingTxs p)
  return (pending.bind fun txs => txs.lookup txid).map (·.txHex)

/-- `get_tx_hex_by_txid`, with an error read as an absent row. -/
def findTxHexByTxid (txid : String) : M (Option String) := do
  match ← catchErr (getTxHexByTxid txid) with
  | .ok hex => return hex
  | .error _ => return none

/-- `lookup_tx_hex`: the virtual mempool first, then the table. -/
def lookupTxHex (txid : String) : M (Option String) :=
  let normalized := Text.lowercase (Text.trim txid)
  orElse? (getPendingTxHex p normalized) <|
    orElse? (onAlternate normalized (getPendingTxHex p)) <|
      orElse? (findTxHexByTxid normalized) (onAlternate normalized findTxHexByTxid)

/-- `lookup_prev_tx_hex`. -/
def lookupPrevTxHex (txid : String) : M (Option String) :=
  orElse? (lookupTxHex p txid) (onAlternate txid (lookupTxHex p))

/-- `resolve_prev_tx`: the pool first, then the indexer. -/
def resolvePrevTx (indexerAddr prevTxid : String) : M (Option Transaction) := do
  let hex ← lookupPrevTxHex p prevTxid
  match hex.bind fun h => (decodeTx env h).toOption with
  | some tx => return some tx
  | none =>
    if indexerAddr = "" then return none
    else
      let prev ← perform (.fetchPrevTx prevTxid)
      return prev.toOption

/-- The loop of `enrich_input_scripthashes`, with the scripthashes found so far. -/
def inputScripthashesLoop (indexerAddr : String) (deadline : Nat) (outputs : List String) :
    List TxIn → List String → M (List String)
  | [], found => pure found
  | input :: inputs, found => do
    let now ← perform .instant
    if deadline ≤ now then return found
    else
      let prev ← resolvePrevTx env p indexerAddr input.prevTxid
      match prev.bind (spentScripthash env input) with
      | some sh =>
        let isNew := !outputs.contains sh && !found.contains sh
        inputScripthashesLoop indexerAddr deadline outputs inputs
          (if isNew then found ++ [sh] else found)
      | none => inputScripthashesLoop indexerAddr deadline outputs inputs found

/-- `enrich_input_scripthashes` with a budget in nanoseconds. -/
def enrichInputScripthashes (txHex indexerAddr : String) (budget : Nat) :
    M (List String) := do
  match decodeTx env txHex with
  | .error e => bail e
  | .ok tx =>
    let start ← perform .instant
    inputScripthashesLoop env p indexerAddr (start + budget)
      (tx.output.map fun out => env.scripthash out.scriptPubkey) tx.input []

/-- `get_indexer_url().unwrap_or_default()`. -/
def indexerUrlOrEmpty : M String := do
  match ← perform (.lockConfig p) with
  | .ok config => return config.indexerUrl.getD ""
  | .error _ => return ""

/-- `enrich_pending_input_scripthashes`. -/
def enrichPendingInputScripthashes (txid txHex : String) : M Unit := do
  let url ← indexerUrlOrEmpty p
  match ← catchErr (enrichInputScripthashes env p txHex (stripIndexerHost url) 8000000000) with
  | .ok extra => perform (.mergePending p txid extra)
  | .error _ => pure ()

/-! ### The broadcast plan -/

/-- `resolve_broadcast_plan`. -/
def resolveBroadcastPlan (config : Config) : M (BroadcastMode × Option DateTime) :=
  match config.schedule.broadcastMode with
  | .immediate => do
    let now ← perform .now
    return (.immediate, some now)
  | .scheduled =>
    match config.schedule.scheduledDatetime.bind fun s =>
      (env.parseRfc3339 s).or (env.parseNaive s) with
    | some dt => pure (.scheduled, some dt)
    | none => do
      let lo := config.schedule.minDelayHours
      let delay ← genRange lo (max config.schedule.maxDelayHours lo)
      let now ← perform .now
      let duration ← durationHours (asI64 delay)
      return (.scheduled, checkedAddSigned now duration)
  | .byBlock => pure (.byBlock, none)
  | .manual => pure (.manual, none)

/-- `resolve_ingest_plan`. -/
def resolveIngestPlan (sourceLabel : String) (nlocktime : Nat) (config : Config)
    (chainHeight : Option Nat) : M (BroadcastMode × Option DateTime) :=
  if sourceLabel = "liana" then
    if config.schedule.lianaVirtualBlock.enabled then pure (.byBlock, none)
    else pure (.manual, none)
  else if sourceLabel = "sparrow" ∧ nlocktime = 0 then pure (.manual, none)
  else if 500000000 < nlocktime then pure (.scheduled, some (nlocktime * 1000000000))
  else if 0 < nlocktime ∧ nlocktime < 500000000 then
    -- A height at or below the tip is an anti-fee-sniping stamp, not a time lock.
    if chainHeight.any (nlocktime ≤ ·) then do
      let now ← perform .now
      return (.immediate, some now)
    else pure (.byBlock, none)
  else resolveBroadcastPlan env config

/-- The target of an armed virtual block, which the next transaction no longer gets. -/
def captureVirtualBlock (mode : BroadcastMode) (sourceLabel : String) : M (Option Nat) :=
  if mode = .byBlock ∧ sourceLabel = "liana" then
    orRaise (perform (.advanceVirtualBlock p))
  else pure none

/-! ### The two parts of a broadcast -/

/-- `store_pending_outputs`, and the same store before the answer. -/
def storePendingOutputs (txid txHex : String) : M Unit :=
  perform (.storePending p txid (outputsOnlyEntry env txHex))

/-- The row that `handle_broadcast` asks for. -/
def ingestRequest (txHex network sourceLabel : String) (tx : Transaction)
    (plan : BroadcastMode × Option DateTime) (virtualBlockTarget : Option Nat) :
    NewBroadcastTx where
  txHex := txHex
  network := network
  nlocktime :=
    virtualBlockTarget.or (if 0 < tx.lockTime then some tx.lockTime else none)
  broadcastMode := some plan.1.toText
  scheduledTime := plan.2
  sourceLabel := some sourceLabel
  utxoCount := some (.ofNat tx.input.length)

/-- `handle_broadcast`. It returns the txid. -/
def handleBroadcast (txHex sourceLabel : String) : M String := do
  let txHexClean := Text.trim txHex
  match decodeTx env txHexClean with
  | .error e => bail e
  | .ok tx =>
    let txid := env.electrumTxid tx
    let network ← configNetwork p
    let health ← perform (.chainHealth p)
    let config ← orRaise (perform (.lockConfig p))
    let plan ← resolveIngestPlan env sourceLabel tx.lockTime config health.height
    let target ← captureVirtualBlock p plan.1 sourceLabel
    let imported ← importTransaction env
      (ingestRequest txHexClean network sourceLabel tx plan target)
    storePendingOutputs env p txid txHexClean
    logErrorIf (plan.1 = .immediate) (markDue env imported.id)
    return txid

/-- The background task of a broadcast. After ten seconds it stops waiting for
`handle_broadcast`, which still runs to its end, and enriches nothing. -/
def ingestTask (txHex sourceLabel : String) : M Unit := do
  let start ← perform .instant
  let outcome ← (handleBroadcast env p txHex sourceLabel).attempt
  let finished ← perform .instant
  match outcome with
  | .ok txid =>
    if finished - start < 10000000000 then
      enrichPendingInputScripthashes env p txid (Text.trim txHex)
    else pure ()
  | .error _ => pure ()

/-- The store before the answer, when the hex is a transaction. -/
def preAckStore (txHex : String) : M Unit :=
  match computeTxid env (Text.trim txHex) with
  | .ok txid => storePendingOutputs env p txid txHex
  | .error _ => pure ()

end BroadcastPool
