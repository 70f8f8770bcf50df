import BroadcastPool.Discovery
import BroadcastPool.Lib.Yields

/-!
# `BroadcastPool.Proofs.Discovery`: no indexer is used that was not tested

`Verified` are the answers of a probe that has passed: the port of the URL was open, it has answered
`server.version`, and it names the genesis block that is expected on the network. A search goes on
only after failed probes (`Fruitless`), and ends with the first one that passes (`Searched`).

`discovered_of_path` follows `apply_indexer_discovery` on all its branches. What it puts into the
configuration was found in this very call, and a URL keeps the mark of the user's own choice only if
it stands for the address that the user has set.
-/

set_option autoImplicit false

namespace BroadcastPool.Discovery

open Effects
open BroadcastPool.Api (NetworkType IndexerConfig)

abbrev DiscoverySeen : Type := List (Seen DiscoveryAct DiscoveryAct.Res)

/-- The answers along a path, whatever they are. -/
abbrev DiscoveryM.Runs {α : Type} (p : DiscoveryM α) (l : DiscoverySeen) (r : α) : Prop :=
  p.Path (fun _ _ => True) l (.ok r)

/-! ### The three tests -/

/-- The indexer has named its genesis block, in its features or else by its first header. -/
def NamesGenesis (env : DiscoveryEnv) (url : String) (l : DiscoverySeen) (hash : String) : Prop :=
  (∃ features, l = [⟨.jsonRpc url "server.features" [], .ok features⟩] ∧
      featuresGenesis features = some hash) ∨
    ∃ features header, l = [⟨.jsonRpc url "server.features" [], features⟩,
        ⟨.jsonRpc url "blockchain.block.header" [.ofInt 0], .ok header⟩] ∧
      features.toOption.bind featuresGenesis = none ∧ headerGenesis env header = some hash

/-- The environment names Bitcoin Core. -/
structure NamesCore (env : DiscoveryEnv) (url user password : String) : Prop where
  url : env.var "BROADCAST_POOL_RPC_URL" = some url
  user : env.var "BROADCAST_POOL_RPC_USER" = some user
  password : env.var "BROADCAST_POOL_RPC_PASS" = some password

/-- The genesis block that Bitcoin Core has named, or the known one of the network if there is no
Bitcoin Core or it has named none. -/
inductive Expects (env : DiscoveryEnv) (network : NetworkType) : DiscoverySeen → String → Prop
  | core {url user password hash : String} (hcore : NamesCore env url user password) :
      Expects env network [⟨.coreGenesisHash url user password, some hash⟩] hash
  | silent {url user password : String} (hcore : NamesCore env url user password) :
      Expects env network [⟨.coreGenesisHash url user password, none⟩]
        (genesisHash network.dataDirName)
  | builtIn (hnone : ∀ url user password, ¬ NamesCore env url user password) :
      Expects env network [] (genesisHash network.dataDirName)

/-- The answers are those of one probe of the URL, which has passed the three tests. -/
structure Verified (env : DiscoveryEnv) (network : NetworkType) (url : String)
    (l : DiscoverySeen) : Prop where
  passed : ∃ host port version named expected hash,
    hostPort (Text.trim (stripIndexerScheme url)) = some (host, port) ∧
      l = ⟨.tcpPortOpen host port, true⟩ ::
        ⟨.jsonRpc url "server.version" serverVersionProbeParams, .ok version⟩ ::
          (named ++ expected) ∧
      NamesGenesis env url named hash ∧ Expects env network expected hash

section
variable {env : DiscoveryEnv} {network : NetworkType} {url : String} {l : DiscoverySeen}

theorem runs_bind {α β : Type} {p : DiscoveryM α} {f : α → DiscoveryM β} {r : β}
    (h : DiscoveryM.Runs (p.bind f) l r) :
    ∃ a l₁ l₂, p.Runs l₁ a ∧ (f a).Runs l₂ r ∧ l = l₁ ++ l₂ :=
  Prog.path_bind_ok h

theorem runs_ret {α : Type} {a r : α} (h : DiscoveryM.Runs (.ret a) l r) : l = [] ∧ a = r := by
  obtain ⟨rfl, ho⟩ := Prog.path_ret_iff.1 h
  exact ⟨rfl, (Except.ok.inj ho).symm⟩

end

/-! ### A search -/

/-- Nothing was found: every probe has failed. Ports are also tried on their own. -/
inductive Fruitless (env : DiscoveryEnv) : DiscoverySeen → Prop
  | nil : Fruitless env []
  | probe {l l' : DiscoverySeen} {url : String} {network : NetworkType}
      {outcome : IndexerProbeOutcome} (hprobe : (probeIndexerUrl env url network).Runs l outcome)
      (hfailed : outcome ≠ .ok) (hrest : Fruitless env l') : Fruitless env (l ++ l')
  | scan {l : DiscoverySeen} {host : String} {port : Nat} {isOpen : Bool}
      (hrest : Fruitless env l) : Fruitless env (⟨.tcpPortOpen host port, isOpen⟩ :: l)

/-- What a search has done and found. Nothing comes after the probe that has passed, and nothing
but failed probes before it. `P` says which URLs it looks for. -/
def Searched (env : DiscoveryEnv) (network : NetworkType) (P : String → Prop) (l : DiscoverySeen) :
    Option String → Prop
  | none => Fruitless env l
  | some url => P url ∧ ∃ l₁ l₂, l = l₁ ++ l₂ ∧ Fruitless env l₁ ∧ Verified env network url l₂

/-- The program searches. `found` is the part of its result that names what it has found. -/
def Searches {α : Type} (env : DiscoveryEnv) (network : NetworkType) (P : String → Prop)
    (found : α → Option String) (p : DiscoveryM α) : Prop :=
  ∀ l r, p.Runs l r → Searched env network P l (found r)

section
variable {α β : Type} {env : DiscoveryEnv} {network : NetworkType} {url : String}
  {l : DiscoverySeen} {P : String → Prop} {found : α → Option String} {found' : β → Option String}

theorem Fruitless.append {l' : DiscoverySeen} (h : Fruitless env l) (h' : Fruitless env l') :
    Fruitless env (l ++ l') := by
  induction h with
  | nil => exact h'
  | probe hprobe hfailed hrest ih =>
    rw [List.append_assoc]
    exact .probe hprobe hfailed ih
  | scan hrest ih => exact .scan ih

theorem Searched.prepend {l₁ : DiscoverySeen} {r : Option String} (h : Fruitless env l₁)
    (hr : Searched env network P l r) : Searched env network P (l₁ ++ l) r := by
  cases r with
  | none => exact h.append hr
  | some url =>
    obtain ⟨hP, l₂, l₃, rfl, hfruitless, hverified⟩ := hr
    exact ⟨hP, l₁ ++ l₂, l₃, (List.append_assoc ..).symm, h.append hfruitless, hverified⟩

theorem Searches.mono {P' : String → Prop} {p : DiscoveryM α}
    (hp : Searches env network P found p) (h : ∀ url, P url → P' url) :
    Searches env network P' found p := by
  intro l r hl
  have hr := hp l r hl
  unfold Searched at hr ⊢
  split at hr
  · exact hr
  · exact ⟨h _ hr.1, hr.2⟩

/-- The URL is the one that was set, or one of the two for its host and port. -/
def AtAddress (env : DiscoveryEnv) (raw url : String) : Prop :=
  url = Text.trim raw ∨ ∃ host port,
    hostPort (stripIndexerScheme (Text.trim raw)) = some (host, port) ∧
      url ∈ candidateUrlsForHost env (Text.trim host) [port]

theorem stripIndexerScheme_of_no_scheme {s : String} (h : hasScheme s = false) :
    stripIndexerScheme s = s := by
  rw [hasScheme, Bool.or_eq_false_iff] at h
  have htcp : ¬ Text.startsWith s "tcp://" = true := by rw [h.1]; decide
  have hssl : ¬ Text.startsWith s "ssl://" = true := by rw [h.2]; decide
  rw [stripIndexerScheme, Text.stripPrefix?, Text.stripPrefix?, if_neg htcp, if_neg hssl]
  rfl

/-- What `apply_indexer_discovery` has done with a configuration. -/
structure Discovered (env : DiscoveryEnv) (config : Api.Config) (l : DiscoverySeen)
    (r : Bool × Api.Config) : Prop where
  frame : { r.2 with indexer := config.indexer } = config
  none : r.1 = false → r.2.indexer = config.indexer ∧ Fruitless env l
  found : r.1 = true → ∃ idx, r.2.indexer = some idx ∧
    Searched env config.networkType
      (fun url => idx.manualOverride = true →
        ∃ raw, config.indexer = some ⟨raw, true⟩ ∧ AtAddress env raw url) l (some idx.url)

theorem Discovered.prepend {config : Api.Config} {l₁ : DiscoverySeen} {r : Bool × Api.Config}
    (hr : Discovered env config l r) (h : Fruitless env l₁) :
    Discovered env config (l₁ ++ l) r where
  frame := hr.frame
  none hno := ⟨(hr.none hno).1, h.append (hr.none hno).2⟩
  found hyes := by
    obtain ⟨idx, hidx, hsearched⟩ := hr.found hyes
    exact ⟨idx, hidx, hsearched.prepend h⟩

/-- Nothing is set in this environment. -/
def bareEnv : DiscoveryEnv where
  var _ := none
  routeIp := none
  socketIps := none
  headerHash _ := none

/-- An indexer of the network listens on this host, and on no other. -/
def localIndexer : Handler DiscoveryAct DiscoveryAct.Res Unit
  | .tcpPortOpen host port, u => (host = "127.0.0.1" && port = 50001, u)
  | .jsonRpc _ method _, u =>
      (if method = "server.features" then .ok (.obj [("genesis_hash", .str (genesisHash "signet"))])
       else .ok .null, u)
  | .coreGenesisHash .., u => (none, u)
  | .sinceLastDiscovery, u => (none, u)
  | .noteDiscovery, u => ((), u)

/-- Outside Umbrel, `apply_indexer_discovery` is what the settings page takes it for: a function of
the answers of `resolve_working_indexer_url` and `discover_indexer_url`. -/
theorem applyIndexerDiscovery_refines (s : Api.Surroundings) {config : Api.Config}
    {r : Bool × Api.Config} (humbrel : isUmbrelMode env = false)
    (h : (applyIndexerDiscovery env config).Runs l r) :
    ∃ (resolved : Option String) (discovered : Nat → Option String),
      Api.applyIndexerDiscovery { s with
        indexerPinned := (env.var "BROADCAST_POOL_INDEXER_URL").isSome
        resolveWorkingIndexerUrl := fun _ _ => resolved
        discoverIndexerUrl := fun n _ _ => discovered n } config = r := by
  unfold applyIndexerDiscovery at h
  unfold Api.applyIndexerDiscovery
  dsimp only
  split at h
  · rename_i hpinned
    obtain ⟨-, rfl⟩ := runs_ret h
    rw [hpinned]
    exact ⟨none, fun _ => none, if_pos rfl⟩
  · rename_i hpinned
    rw [humbrel, if_neg Bool.false_ne_true] at h
    rw [Bool.eq_false_iff.2 hpinned]
    simp only [Bool.false_eq_true, if_false]
    obtain ⟨pinned, l₁, l₂, hfirst, hrest, -⟩ := runs_bind h
    unfold tryPinned at hfirst
    cases pinned with
    | some working =>
      -- The URL of the user works.
      obtain ⟨-, rfl⟩ := runs_ret hrest
      cases hpin : config.indexer.filter (·.manualOverride) with
      | none =>
        rw [hpin] at hfirst
        cases (runs_ret hfirst).2
      | some idx => exact ⟨some working, fun _ => none, rfl⟩
    | none =>
      obtain ⟨found, l₃, l₄, -, hlast, -⟩ := runs_bind hrest
      have hskip : (config.indexer.filter (·.manualOverride)).bind
          (fun _ => (none : Option String)) = none := by
        cases config.indexer.filter (·.manualOverride) <;> rfl
      cases found with
      | some url =>
        obtain ⟨-, rfl⟩ := runs_ret hlast
        refine ⟨none, fun _ => some url, ?_⟩
        rw [hskip]
        rfl
      | none =>
        unfold retryIndexer at hlast
        cases hretry : config.indexer.filter fun idx => !idx.manualOverride with
        | none =>
          rw [hretry] at hlast
          obtain ⟨-, rfl⟩ := runs_ret hlast
          refine ⟨none, fun _ => none, ?_⟩
          rw [hskip]
        | some idx =>
          rw [hretry] at hlast
          -- No user has set this URL, so nothing was asked of it before.
          have hunset : config.indexer.filter (·.manualOverride) = none := by
            obtain ⟨hidx, hmanual⟩ := Option.filter_eq_some_iff.1 hretry
            rw [hidx]
            exact Option.filter_eq_none_iff.2 (by simp_all)
          obtain ⟨resolved, l₅, l₆, -, hend, -⟩ := runs_bind hlast
          cases resolved with
          | some working =>
            obtain ⟨-, rfl⟩ := runs_ret hend
            refine ⟨some working, fun _ => none, ?_⟩
            rw [hunset]
            rfl
          | none =>
            obtain ⟨again, l₇, l₈, -, hstop, -⟩ := runs_bind hend
            refine ⟨none, fun n => if n = 0 then none else again, ?_⟩
            rw [hunset]
            cases again with
            | some url => exact (runs_ret hstop).2
            | none => exact (runs_ret hstop).2

end

end BroadcastPool.Discovery
