import BroadcastPool.ElectrumServer.Ingest

/-!
# `BroadcastPool.Pool.Extraction`: the scripthashes of a transaction, for any resolver

Three functions find the scripthashes that a transaction touches. The fast one only takes the
outputs (`extractOutputScripthashes`). Two others also resolve the previous transactions, and
stop at a deadline: `enrich_input_scripthashes` returns what the outputs do not have, and
`extract_affected_scripthashes_timed_with_lookup` returns everything. Here both take
`resolve_prev_tx` with its lookup and its indexer as an argument.

`enrichPendingForScripthash` is the second caller of the function for the inputs, besides the
background task of a broadcast. Its resolver is the one with the lookup of the pool.
-/

set_option autoImplicit false

namespace BroadcastPool

open Effects

variable (env : Env) (resolve : String → M (Option Transaction))

/-- The loop of `enrich_input_scripthashes` with the scripthashes found so far. -/
def enrichLoop (deadline : Nat) (outputs : List String) :
    List TxIn → List String → M (List String)
  | [], found => pure found
  | input :: inputs, found => do
    let now ← perform .instant
    if deadline ≤ now then return found
    else
      let prev ← resolve input.prevTxid
      match prev.bind (spentScripthash env input) with
      | some sh =>
        let isNew := !outputs.contains sh && !found.contains sh
        enrichLoop deadline outputs inputs (if isNew then found ++ [sh] else found)
      | none => enrichLoop deadline outputs inputs found

/-- `enrich_input_scripthashes`, with a budget in nanoseconds. -/
def enrichInputs (txHex : String) (budget : Nat) : M (List String) := do
  match decodeTx env txHex with
  | .error e => bail e
  | .ok tx =>
    let start ← perform .instant
    enrichLoop env resolve (start + budget)
      (tx.output.map fun out => env.scripthash out.scriptPubkey) tx.input []

/-- The loop of `extract_affected_scripthashes_timed_with_lookup`: each scripthash goes into the
set. -/
def timedLoop (deadline : Nat) : List TxIn → List String → M (List String)
  | [], found => pure found
  | input :: inputs, found => do
    let now ← perform .instant
    if deadline ≤ now then return found
    else
      let prev ← resolve input.prevTxid
      match prev.bind (spentScripthash env input) with
      | some sh => timedLoop deadline inputs (if found.contains sh then found else found ++ [sh])
      | none => timedLoop deadline inputs found

/-- `extract_affected_scripthashes_timed_with_lookup`. -/
def extractAffectedScripthashesTimed (txHex : String) (budget : Nat) : M (List String) := do
  match decodeTx env txHex with
  | .error e => bail e
  | .ok tx =>
    let start ← perform .instant
    timedLoop env resolve (start + budget) tx.input
      (tx.output.map fun out => env.scripthash out.scriptPubkey).dedup

variable (p : Proc)

/-- The loop body of `enrich_pending_for_scripthash`. -/
def enrichEntry (scripthash indexerAddr : String) (entry : (_ : String) × PendingTxInfo) :
    M Unit :=
  if entry.2.scripthashes.contains scripthash then pure ()
  else do
    match ← catchErr (enrichInputScripthashes env p entry.2.txHex indexerAddr 5000000000) with
    | .ok extra => if extra = [] then pure () else perform (.mergePending p entry.1 extra)
    | .error _ => pure ()

/-- `enrich_pending_for_scripthash`: the entries that do not name the scripthash are enriched, as
they were when the function read them. -/
def enrichPendingForScripthash (scripthash indexerUrl : String) : M Unit :=
  if scripthash = "" then pure ()
  else do
    let held ← perform (.pendingTxs p)
    if held.all (·.entries.isEmpty) then pure ()
    else do
      let pending ← perform (.pendingTxs p)
      Prog.forEach (pending.elim [] AList.entries)
        (enrichEntry env p scripthash (stripIndexerHost indexerUrl))

/-- The loop of the background enrichment is the one with the lookup of the pool. -/
theorem inputScripthashesLoop_eq (indexerAddr : String) (deadline : Nat)
    (outputs : List String) (inputs : List TxIn) (found : List String) :
    inputScripthashesLoop env p indexerAddr deadline outputs inputs found =
      enrichLoop env (resolvePrevTx env p indexerAddr) deadline outputs inputs found := by
  induction inputs generalizing found with
  | nil => rfl
  | cons input inputs ih =>
    have hrest : inputScripthashesLoop env p indexerAddr deadline outputs inputs =
        enrichLoop env (resolvePrevTx env p indexerAddr) deadline outputs inputs := funext ih
    unfold inputScripthashesLoop enrichLoop
    generalize inputScripthashesLoop env p indexerAddr deadline outputs inputs = rest at hrest
    subst hrest
    rfl

/-- The background enrichment resolves with the lookup of the pool. -/
theorem enrichInputScripthashes_eq (txHex indexerAddr : String) (budget : Nat) :
    enrichInputScripthashes env p txHex indexerAddr budget =
      enrichInputs env (resolvePrevTx env p indexerAddr) txHex budget := by
  have hloop : inputScripthashesLoop env p indexerAddr =
      enrichLoop env (resolvePrevTx env p indexerAddr) := by
    funext deadline outputs inputs found
    exact inputScripthashesLoop_eq env p indexerAddr deadline outputs inputs found
  unfold enrichInputScripthashes enrichInputs
  generalize inputScripthashesLoop env p indexerAddr = loop at hloop
  subst hloop
  rfl

end BroadcastPool
