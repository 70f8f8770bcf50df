import BroadcastPool.Api.Settings
import BroadcastPool.Db.Statements
import BroadcastPool.Lib.Interleave
import BroadcastPool.Pool.ChainHealth
import BroadcastPool.Pool.VirtualMempool
import Mathlib.Data.List.AList

/-!
# `BroadcastPool.Pool.World`: the shared state and the actions on it

A `World` is the database and the memory of the two processes that can open it: the daemon
and the command line, which each have a `PoolManager` of their own. An `Act` is one
indivisible step of the program: one SQL statement under the connection mutex, one access to
a field of a `PoolManager`, one question to a backend, one line written to a wallet.
`World.exec` is the handler, so every function of the source is a `Prog` over these actions
(`M`).

A hand-over to a backend sends only the hex text. `Act.indexerBroadcast` and
`Act.rpcBroadcast` carry the transaction it was taken from, so that a statement can name the
row.
-/

set_option autoImplicit false

namespace BroadcastPool

open Effects

/-- The processes that open the database. -/
inductive Proc
  | daemon | cli
deriving DecidableEq, Repr

/-- The virtual mempool, a map from txids to entries. -/
abbrev PendingTxs : Type := AList fun _ : String => PendingTxInfo

/-- The fields of `PoolManager`. -/
structure PoolManager where
  rpc : Bool := false
  indexer : Bool := false
  config : Config
  pendingTxs : PendingTxs := ∅
  /-- The instant of the fetch and the median time past. -/
  mtpCache : Option (Nat × Nat) := none
  cachedChainTip : Option (Nat × String) := none
  chainHealth : ChainHealth := {}
  safeMode : Bool := false
  tamperedIds : List String := []
  watchedScripthashes : List String := []
  /-- Everything sent on the `scripthash_notifications` channel. -/
  scripthashNotifications : List String := []

/-- A row of `archive_pool`. -/
structure ArchiveRow where
  id : String
  network : String
  archivedAt : String
  blob : String
deriving DecidableEq, Repr

/-- The database and the memory of the processes. `tick` counts the actions performed. -/
structure World where
  pool : List Row := []
  archive : List ArchiveRow := []
  /-- The ids that `migration_utxos.broadcast_pool_id` refers to. -/
  linked : List String := []
  daemon : PoolManager
  cli : PoolManager
  tick : Nat := 0

namespace World

/-- The `PoolManager` of a process. -/
def pm (w : World) : Proc → PoolManager
  | .daemon => w.daemon
  | .cli => w.cli

/-- The world with another `PoolManager` for one process. -/
def setPm (w : World) (p : Proc) (m : PoolManager) : World :=
  match p with
  | .daemon => { w with daemon := m }
  | .cli => { w with cli := m }

@[simp] theorem setPm_pool (w : World) (p : Proc) (m : PoolManager) :
    (w.setPm p m).pool = w.pool := by cases p <;> rfl

@[simp] theorem setPm_tick (w : World) (p : Proc) (m : PoolManager) :
    (w.setPm p m).tick = w.tick := by cases p <;> rfl

@[simp] theorem setPm_pm_self (w : World) (p : Proc) (m : PoolManager) :
    (w.setPm p m).pm p = m := by cases p <;> rfl

theorem setPm_pm_ne (w : World) {p q : Proc} (m : PoolManager) (h : q ≠ p) :
    (w.setPm p m).pm q = w.pm q := by
  cases p <;> cases q <;> first | rfl | exact absurd rfl h

end World

/-- A write to the chain-health snapshot. -/
inductive HealthWrite
  | indexerFailure
  | indexerSuccess (height : Nat)
  | refresh (core : Option (Nat × Nat × Bool)) (indexerHeight : Option Nat)
deriving DecidableEq, Repr

/-- The snapshot after a write. -/
def HealthWrite.apply : HealthWrite → ChainHealth → ChainHealth
  | indexerFailure => ChainHealth.noteIndexerFailure
  | indexerSuccess height => ChainHealth.noteIndexerSuccess height
  | refresh core indexerHeight => ChainHealth.refreshed core indexerHeight

/-- One indivisible step of the program. -/
inductive Act
  -- clocks and random draws
  | now | instant | uuid | nonce | random
  | randomF64 (lo hi : F64)
  -- one acquisition of the connection mutex each
  | select (q : Query)
  | selectLegacy
  | txHexByTxid (txid : String)
  | insert (row : Row)
  | update (u : Update)
  | delete (id : String)
  | reseal (id : String)
  | migrate
  | backfill
  | archiveRow (id : String) (entry : ArchiveRow)
  -- the memory of a process
  | startProcess (p : Proc) (rpc indexer : Bool) (config : Config)
  | isSafeMode (p : Proc)
  | enterSafeMode (p : Proc) (id : String)
  | clearSafeMode (p : Proc)
  | lockConfig (p : Proc)
  | advanceVirtualBlock (p : Proc)
  | disarmVirtualBlock (p : Proc) (realHeight : Nat)
  | saveConfig (p : Proc) (request : SaveConfigRequest) (realHeight : Option Nat)
  | chainHealth (p : Proc)
  | writeChainHealth (p : Proc) (write : HealthWrite)
  | hasIndexer (p : Proc)
  | hasRpc (p : Proc)
  | readMtpCache (p : Proc)
  | writeMtpCache (p : Proc) (fetchedAt mtp : Nat)
  | cachedChainTip (p : Proc)
  | cacheChainTip (p : Proc) (height : Nat) (hex : String)
  | watchScripthash (p : Proc) (scripthash : String)
  | pendingTxs (p : Proc)
  | storePending (p : Proc) (txid : String) (info : PendingTxInfo)
  | mergePending (p : Proc) (txid : String) (extra : List String)
  | removePending (p : Proc) (txid : String)
  -- the backends
  | indexerBroadcast (tx : BroadcastTx)
  | rpcBroadcast (tx : BroadcastTx)
  | indexerHeight | indexerMtp | indexerTest
  | rpcHeight | rpcMtp | rpcTest | rpcChainStatus
  | rpcTransaction (txid : String)
  | fetchPrevTx (txid : String)
  -- the wallet session
  | forwardToIndexer (text : String)
  | writeClient (text : String)
  | spawnIngest (txHex source : String)

/-- A row as `encrypt_legacy_rows` selects it: id, hex, destination, source. -/
abbrev LegacyRow : Type := String × String × Option String × Option String

/-- The type of an action's answer. -/
@[reducible] def Act.Res : Act → Type
  | now => DateTime
  | instant | nonce | random => Nat
  | uuid => String
  | randomF64 .. => F64
  | select _ => Except String (List BroadcastTx)
  | selectLegacy => Except String (List LegacyRow)
  | txHexByTxid _ => Except String (Option String)
  | update _ | delete _ | backfill => Except String Nat
  | insert _ | reseal _ | migrate | archiveRow .. | saveConfig .. => Except String Unit
  | startProcess .. | enterSafeMode .. | clearSafeMode _ | disarmVirtualBlock ..
  | writeChainHealth ..
  | writeMtpCache .. | cacheChainTip .. | watchScripthash .. | storePending ..
  | mergePending .. | spawnIngest .. => Unit
  | isSafeMode _ | hasIndexer _ | hasRpc _ | indexerTest | rpcTest => Bool
  | lockConfig _ => Except String Config
  | advanceVirtualBlock _ => Except String (Option Nat)
  | chainHealth _ => ChainHealth
  | readMtpCache _ => Option (Nat × Nat)
  | cachedChainTip _ => Option (Nat × String)
  | pendingTxs _ => Option PendingTxs
  | removePending .. => List String
  | indexerBroadcast _ | rpcBroadcast _ | forwardToIndexer _ => Except String String
  | indexerHeight | indexerMtp | rpcHeight | rpcMtp => Except String Nat
  | rpcChainStatus => Except String (Nat × Nat × Bool)
  | rpcTransaction _ => Except String (Option String)
  | fetchPrevTx _ => Except String Transaction
  | writeClient _ => Except String Unit

namespace World

/-- One statement on the pool table. A refused statement, or one that fails, changes
nothing. -/
def statement {α : Type} (env : Env) (w : World)
    (f : List Row → Except String (α × List Row)) : Except String α × World :=
  match env.dbFault w.tick with
  | some e => (.error e, w)
  | none =>
    match f w.pool with
    | .error e => (.error e, w)
    | .ok (a, pool) => (.ok a, { w with pool })

/-- `merge_pending_scripthashes` on one entry: the entry and the scripthashes that are new
to it. -/
def mergeScripthashes (info : PendingTxInfo) (extra : List String) :
    PendingTxInfo × List String :=
  extra.foldl
    (fun (info, added) sh =>
      if info.scripthashes.contains sh then (info, added)
      else ({ info with scripthashes := info.scripthashes ++ [sh] }, added ++ [sh]))
    (info, [])

/-- The answer and the effect of an action, without the count. -/
def effect (env : Env) (w : World) : (a : Act) → a.Res × World
  | .now => (env.clock w.tick, w)
  | .instant => (env.instant w.tick, w)
  | .uuid => (env.uuid w.tick, w)
  | .nonce => (w.tick, w)
  | .random => (env.random w.tick, w)
  | .randomF64 lo hi => (env.randomF64 w.tick lo hi, w)
  | .select q =>
      w.statement env fun rows => do
        let txs ← (selectRows q rows).mapM (mapBroadcastRow env (env.clock w.tick))
        return (txs, rows)
  | .selectLegacy =>
      w.statement env fun rows => .ok
        ((rows.filter isLegacy).map fun r =>
          (r.id, r.txHex, r.destinationAddress, r.sourceLabel), rows)
  | .txHexByTxid txid =>
      w.statement env fun rows =>
        match rows.find? fun r =>
          r.txid = some txid && (r.status = "pending" || r.status = "scheduled") with
        | none => .ok (none, rows)
        | some r =>
          match decodeField env r.txHex r.id with
          | .ok hex => .ok (some hex, rows)
          | .error _ => .error "Failed to decrypt tx_hex"
  | .insert row => w.statement env fun rows => (insertRow row rows).map ((), ·)
  | .update u =>
      w.statement env fun rows => .ok (updateCount u rows, applyUpdate env u rows)
  | .delete id =>
      w.statement env fun rows =>
        (deleteRow w.linked id rows).map (rows.countP (·.id = id), ·)
  | .reseal id => w.statement env fun rows => (resealRow env id rows).map ((), ·)
  | .migrate =>
      w.statement env fun rows => .ok ((),
        if env.migrationRefused w.tick then rows else rows.map migration007)
  | .backfill =>
      match env.dbFault w.tick with
      | some e =>
          let k := env.backfillFaultAfter w.tick
          (.error e,
            { w with pool := (w.pool.take k).map (backfillRow env) ++ w.pool.drop k })
      | none =>
          (.ok (w.pool.countP fun r => backfillRow env r ≠ r),
            { w with pool := w.pool.map (backfillRow env) })
  | .archiveRow id entry =>
      match env.dbFault w.tick with
      | some e => (.error e, w)
      | none =>
        if w.archive.any (·.id = entry.id) then (.error "Failed to insert archive row", w)
        else match deleteRow w.linked id w.pool with
          | .error _ => (.error "Failed to delete broadcast tx", w)
          | .ok pool => (.ok (), { w with pool, archive := w.archive ++ [entry] })
  | .startProcess p rpc indexer config => ((), w.setPm p { rpc, indexer, config })
  | .isSafeMode p => ((w.pm p).safeMode, w)
  | .enterSafeMode p id =>
      let m := w.pm p
      ((), w.setPm p { m with
        safeMode := true
        tamperedIds := if m.tamperedIds.contains id then m.tamperedIds
          else m.tamperedIds ++ [id] })
  | .clearSafeMode p =>
      ((), w.setPm p { w.pm p with safeMode := false, tamperedIds := [] })
  | .lockConfig p =>
      if env.configPoisoned w.tick then (.error "Config lock failed", w)
      else (.ok (w.pm p).config, w)
  | .advanceVirtualBlock p =>
      if env.configPoisoned w.tick then (.error "Config lock failed", w)
      else
        let m := w.pm p
        let vb := m.config.schedule.lianaVirtualBlock
        if vb.enabled then
          let vb' := { vb with targetHeight := min (vb.targetHeight + 2) (2 ^ 64 - 1) }
          (.ok (some vb.targetHeight),
            w.setPm p { m with config := { m.config with
              schedule := { m.config.schedule with lianaVirtualBlock := vb' } } })
        else (.ok none, w)
  | .disarmVirtualBlock p realHeight =>
      let m := w.pm p
      let vb := m.config.schedule.lianaVirtualBlock
      if env.configPoisoned w.tick = false ∧ vb.enabled ∧ vb.armedAtHeight + 10 ≤ realHeight
      then ((), w.setPm p { m with config := { m.config with
        schedule := { m.config.schedule with lianaVirtualBlock :=
          { vb with enabled := false } } } })
      else ((), w)
  | .saveConfig p request realHeight =>
      if env.configPoisoned w.tick then (.error "Config lock failed", w)
      else
        let m := w.pm p
        let (outcome, schedule) := request.apply realHeight m.config.schedule
        (outcome, w.setPm p { m with config := { m.config with schedule } })
  | .chainHealth p => ((w.pm p).chainHealth, w)
  | .writeChainHealth p write =>
      ((), w.setPm p { w.pm p with chainHealth := write.apply (w.pm p).chainHealth })
  | .hasIndexer p => ((w.pm p).indexer, w)
  | .hasRpc p => ((w.pm p).rpc, w)
  | .readMtpCache p => ((w.pm p).mtpCache, w)
  | .writeMtpCache p fetchedAt mtp =>
      ((), w.setPm p { w.pm p with mtpCache := some (fetchedAt, mtp) })
  | .cachedChainTip p => ((w.pm p).cachedChainTip, w)
  | .cacheChainTip p height hex =>
      if height = 0 ∨ hex = "" then ((), w)
      else ((), w.setPm p { w.pm p with cachedChainTip := some (height, hex) })
  | .watchScripthash p scripthash =>
      let m := w.pm p
      if scripthash = "" ∨ m.watchedScripthashes.contains scripthash then ((), w)
      else ((), w.setPm p { m with
        watchedScripthashes := m.watchedScripthashes ++ [scripthash] })
  | .pendingTxs p =>
      if env.pendingPoisoned w.tick then (none, w) else (some (w.pm p).pendingTxs, w)
  | .storePending p txid info =>
      let m := w.pm p
      if env.pendingPoisoned w.tick then ((), w)
      else ((), w.setPm p { m with
        pendingTxs := m.pendingTxs.insert txid info
        scripthashNotifications := m.scripthashNotifications ++ info.scripthashes })
  | .mergePending p txid extra =>
      let m := w.pm p
      if extra = [] ∨ env.pendingPoisoned w.tick then ((), w)
      else match m.pendingTxs.lookup txid with
        | none => ((), w)
        | some info =>
          let (info', added) := mergeScripthashes info extra
          ((), w.setPm p { m with
            pendingTxs := m.pendingTxs.insert txid info'
            scripthashNotifications := m.scripthashNotifications ++ added })
  | .removePending p txid =>
      let m := w.pm p
      if env.pendingPoisoned w.tick then ([], w)
      else match m.pendingTxs.lookup txid with
        | none => ([], w)
        | some info =>
          (info.scripthashes, w.setPm p { m with
            pendingTxs := m.pendingTxs.erase txid
            scripthashNotifications := m.scripthashNotifications ++ info.scripthashes })
  | .indexerBroadcast tx => (env.indexerBroadcast w.tick tx.txHex, w)
  | .rpcBroadcast tx => (env.rpcBroadcast w.tick tx.txHex, w)
  | .indexerHeight => (env.indexerHeight w.tick, w)
  | .indexerMtp => (env.indexerMtp w.tick, w)
  | .indexerTest => (env.indexerTest w.tick, w)
  | .rpcHeight => (env.rpcHeight w.tick, w)
  | .rpcMtp => (env.rpcMtp w.tick, w)
  | .rpcTest => (env.rpcTest w.tick, w)
  | .rpcChainStatus => (env.rpcChainStatus w.tick, w)
  | .rpcTransaction txid => (env.rpcTransaction w.tick txid, w)
  | .fetchPrevTx txid => (env.fetchPrevTx w.tick txid, w)
  | .forwardToIndexer text => (env.indexerAnswer w.tick text, w)
  | .writeClient _ =>
      (match env.clientGone w.tick with | some e => .error e | none => .ok (), w)
  | .spawnIngest .. => ((), w)

/-- The world one tick later. -/
def ticked (w : World) : World := { w with tick := w.tick + 1 }

@[simp] theorem ticked_pool (w : World) : w.ticked.pool = w.pool := rfl

@[simp] theorem ticked_pm (w : World) (p : Proc) : w.ticked.pm p = w.pm p := by
  cases p <;> rfl

/-- The handler of the actions. Every action counts as one tick. -/
def exec (env : Env) : Handler Act Act.Res World := fun a w =>
  ((w.effect env a).1, (w.effect env a).2.ticked)

end World

/-- The configuration is read as it is, or the lock is poisoned. -/
theorem exec_lockConfig (env : Env) (w : World) (p : Proc) :
    World.exec env (.lockConfig p) w = (.error "Config lock failed", w.ticked) ∨
      World.exec env (.lockConfig p) w = (.ok (w.pm p).config, w.ticked) := by
  simp only [World.exec, World.effect]
  split
  · exact Or.inl rfl
  · exact Or.inr rfl

/-- How a function ends without a value: an `Err` with its text, or a panic. -/
inductive Failure
  | error (text : String)
  | panic (text : String)
deriving DecidableEq, Repr

/-- A function of the source. -/
abbrev M (α : Type) : Type := Prog Act Act.Res Failure α

/-- One action, as a function. -/
def perform (a : Act) : M a.Res := Prog.perform a

/-- `anyhow::bail!`. -/
def bail {α : Type} (text : String) : M α := .fail (.error text)

/-- Go on if `c` holds, and `bail!` otherwise. -/
def ensure (c : Prop) [Decidable c] (text : String) : M Unit := Prog.ensure c (.error text)

/-- `?` with a context: an error of the action ends the function with `context`. -/
def orFail {α : Type} (context : String) (p : M (Except String α)) : M α :=
  p.bind fun
    | .ok a => .ret a
    | .error _ => .fail (.error context)

/-- `?` without a context: the error's own text is kept. -/
def orRaise {α : Type} (p : M (Except String α)) : M α :=
  p.bind fun
    | .ok a => .ret a
    | .error e => .fail (.error e)

/-- The `Result` of a call. A panic is not caught. -/
def catchErr {α : Type} (p : M α) : M (Except String α) :=
  p.attempt.bind fun
    | .ok a => .ret (.ok a)
    | .error (.error e) => .ret (.error e)
    | .error (.panic e) => .fail (.panic e)

end BroadcastPool
