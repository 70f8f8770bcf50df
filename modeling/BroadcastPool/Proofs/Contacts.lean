import BroadcastPool.Proofs.Discovery

/-!
# `BroadcastPool.Proofs.Contacts`: whom the search asks on Umbrel

`Contacts` says to whom an action goes: to a URL of a given kind, or to Bitcoin Core. Every part of
the discovery keeps to the URLs that it is given. On Umbrel these are the ones of the node, and the
saved one where a search starts from it. So no subnet is ever scanned there.
-/

set_option autoImplicit false

namespace BroadcastPool.Discovery

open Effects
open BroadcastPool.Api (NetworkType)

/-- The URL of the node, by its variables or by its containers. -/
def NodeUrl (env : DiscoveryEnv) (url : String) : Prop :=
  (∃ key ∈ umbrelKeys env, ∃ raw, envNonempty env key = some raw ∧ AtAddress env raw url) ∨
    ∃ host ∈ umbrelIndexerHosts env, url ∈ candidateUrlsForHost env host (umbrelIndexerPorts env)

/-- The URL that the configuration has. -/
def SavedUrl (env : DiscoveryEnv) (config : Api.Config) (url : String) : Prop :=
  ∃ idx, config.indexer = some idx ∧ AtAddress env idx.url url

/-- What goes over the network goes to a URL with `P`, or to Bitcoin Core. -/
def Contacts (env : DiscoveryEnv) (P : String → Prop) : DiscoveryAct → Prop
  | .tcpPortOpen host port =>
      ∃ url, P url ∧ hostPort (Text.trim (stripIndexerScheme url)) = some (host, port)
  | .jsonRpc url _ _ => P url
  | .coreGenesisHash url user password =>
      env.var "BROADCAST_POOL_RPC_URL" = some url ∧ env.var "BROADCAST_POOL_RPC_USER" = some user ∧
        env.var "BROADCAST_POOL_RPC_PASS" = some password
  | .sinceLastDiscovery | .noteDiscovery => True

section
variable {env : DiscoveryEnv} {network : NetworkType} {url : String} {P : String → Prop}

/-! ### One URL -/

theorem contacts_tcpReachable (hP : P url) :
    (tcpReachableFromUrl url).Uses (Contacts env P) := by
  unfold tcpReachableFromUrl
  split
  · rename_i host port haddress
    exact (Prog.uses_perform _).2 ⟨url, hP, haddress⟩
  · exact Prog.uses_ret _

theorem contacts_probeWorking (hP : P url) : (probeWorkingUrl url).Uses (Contacts env P) :=
  Prog.uses_bind ((Prog.uses_perform _).2 hP) fun _ => Prog.uses_ret _

theorem contacts_genesisBlockHash (hP : P url) :
    (genesisBlockHashAtUrl env url).Uses (Contacts env P) := by
  refine Prog.uses_bind ((Prog.uses_perform _).2 hP) fun features => ?_
  split
  · exact Prog.uses_ret _
  · refine Prog.uses_bind ((Prog.uses_perform _).2 hP) fun header => ?_
    split <;> exact Prog.uses_ret _

theorem contacts_expectedGenesis : (expectedGenesisHash env network).Uses (Contacts env P) := by
  refine Prog.uses_bind ?_ fun hash => ?_
  · unfold bitcoinRpcGenesisHash
    split
    · rename_i core user password hcore huser hpassword
      exact (Prog.uses_perform _).2 ⟨hcore, huser, hpassword⟩
    · exact Prog.uses_ret _
  · split <;> exact Prog.uses_ret _

theorem contacts_genesisMatches (hP : P url) :
    (genesisMatchesNetworkAtUrl env url network).Uses (Contacts env P) := by
  refine Prog.uses_bind (contacts_genesisBlockHash hP) fun actual => ?_
  split
  · exact Prog.uses_ret _
  · exact Prog.uses_bind contacts_expectedGenesis fun _ => Prog.uses_ret _

theorem contacts_probe (hP : P url) : (probeIndexerUrl env url network).Uses (Contacts env P) := by
  refine Prog.uses_bind (contacts_tcpReachable hP) fun isOpen => ?_
  split
  · refine Prog.uses_bind (contacts_probeWorking hP) fun answers => ?_
    split
    · refine Prog.uses_bind (contacts_genesisMatches hP) fun same => ?_
      split <;> exact Prog.uses_ret _
    · exact Prog.uses_ret _
  · exact Prog.uses_ret _

theorem contacts_indexerMatches (hP : P url) :
    (indexerMatchesNetwork env url network).Uses (Contacts env P) := by
  refine Prog.uses_bind (contacts_tcpReachable hP) fun isOpen => ?_
  split
  · refine Prog.uses_bind (contacts_probeWorking hP) fun answers => ?_
    split
    · exact contacts_genesisMatches hP
    · exact Prog.uses_ret _
  · exact Prog.uses_ret _

/-! ### Hosts -/

theorem contacts_tryUrls (urls : List String) (sawGenesisMismatch : Bool) (hP : ∀ u ∈ urls, P u) :
    (tryUrls env network urls sawGenesisMismatch).Uses (Contacts env P) := by
  induction urls generalizing sawGenesisMismatch with
  | nil => exact Prog.uses_ret _
  | cons url urls ih =>
    have hrest : ∀ saw, (tryUrls env network urls saw).Uses (Contacts env P) :=
      fun saw => ih saw fun u hu => hP u (List.mem_cons_of_mem _ hu)
    unfold tryUrls
    refine Prog.uses_bind (contacts_probe (hP url (List.mem_cons_self ..))) fun outcome => ?_
    cases outcome with
    | ok => exact Prog.uses_ret _
    | tcpRefused | rpcFailed => exact hrest sawGenesisMismatch
    | genesisMismatch => exact hrest true

theorem contacts_tryHostsPorts (ports : List Nat) (hosts : List String)
    (hP : ∀ host ∈ hosts, ∀ u ∈ candidateUrlsForHost env host ports, P u) :
    (tryHostsPorts env network ports hosts).Uses (Contacts env P) := by
  induction hosts with
  | nil => exact Prog.uses_ret _
  | cons host hosts ih =>
    have hhost : (tryHost env network host ports).Uses (Contacts env P) :=
      contacts_tryUrls _ false (hP host (List.mem_cons_self ..))
    refine Prog.uses_bind hhost fun answer => ?_
    split
    · exact Prog.uses_ret _
    · exact ih fun host' hhost' => hP host' (List.mem_cons_of_mem _ hhost')

theorem contacts_tryAddress {raw : String} (hP : ∀ u, AtAddress env raw u → P u) :
    (tryAddress env network (stripIndexerScheme (Text.trim raw))).Uses (Contacts env P) := by
  unfold tryAddress
  split
  · rename_i host port haddress
    refine Prog.uses_bind (contacts_tryUrls _ false fun u hu => ?_) fun _ => Prog.uses_ret _
    exact hP u (Or.inr ⟨host, port, haddress, hu⟩)
  · exact Prog.uses_ret _

theorem contacts_resolve {raw : String} (hP : ∀ u, AtAddress env raw u → P u) :
    (resolveWorkingIndexerUrl env raw network).Uses (Contacts env P) := by
  have haddress : (tryAddress env network (stripIndexerScheme (Text.trim raw))).Uses
      (Contacts env P) := contacts_tryAddress hP
  unfold resolveWorkingIndexerUrl
  dsimp only
  split
  · exact Prog.uses_ret _
  · split
    · refine Prog.uses_bind (contacts_indexerMatches (hP _ (Or.inl rfl))) fun same => ?_
      split
      · exact Prog.uses_ret _
      · exact haddress
    · rename_i hscheme
      rw [stripIndexerScheme_of_no_scheme (Bool.eq_false_iff.2 hscheme)] at haddress
      exact haddress

/-! ### Umbrel -/

theorem contacts_tryKeys (keys : List String)
    (hP : ∀ key ∈ keys, ∀ raw, envNonempty env key = some raw → ∀ u, AtAddress env raw u → P u) :
    (tryKeys env network keys).Uses (Contacts env P) := by
  induction keys with
  | nil => exact Prog.uses_ret _
  | cons key keys ih =>
    have hrest := ih fun key' hkey' => hP key' (List.mem_cons_of_mem _ hkey')
    unfold tryKeys
    split
    · exact hrest
    · rename_i raw hraw
      refine Prog.uses_bind (contacts_resolve (hP key (List.mem_cons_self ..) raw hraw))
        fun found => ?_
      split
      · exact Prog.uses_ret _
      · exact hrest

theorem contacts_discoverUmbrelNode (hP : ∀ u, NodeUrl env u → P u) :
    (discoverUmbrelNodeIndexer env network).Uses (Contacts env P) := by
  refine Prog.uses_bind (contacts_tryKeys _ fun key hkey raw hraw u hu => ?_) fun found => ?_
  · exact hP u (Or.inl ⟨key, hkey, raw, hraw, hu⟩)
  · split
    · exact Prog.uses_ret _
    · exact contacts_tryHostsPorts _ _ fun host hhost u hu => hP u (Or.inr ⟨host, hhost, hu⟩)

theorem contacts_discoverIndexerUrl (humbrel : isUmbrelMode env = true) (config : Api.Config)
    (hP : ∀ u, NodeUrl env u → P u) :
    (discoverIndexerUrl env network config).Uses (Contacts env P) := by
  unfold discoverIndexerUrl
  rw [if_pos humbrel]
  exact contacts_discoverUmbrelNode hP

theorem contacts_retryIndexer (humbrel : isUmbrelMode env = true) (config : Api.Config) :
    (retryIndexer env config).Uses
      (Contacts env fun u => NodeUrl env u ∨ SavedUrl env config u) := by
  unfold retryIndexer
  split
  · exact Prog.uses_ret _
  · rename_i idx hidx
    obtain ⟨hidx, -⟩ := Option.filter_eq_some_iff.1 hidx
    refine Prog.uses_bind (contacts_resolve fun u hu => Or.inr ⟨idx, hidx, hu⟩) fun working => ?_
    split
    · exact Prog.uses_ret _
    · refine Prog.uses_bind (contacts_discoverIndexerUrl humbrel config fun u => Or.inl)
        fun found => ?_
      split <;> exact Prog.uses_ret _

theorem contacts_searchIndexer (humbrel : isUmbrelMode env = true) (config : Api.Config) :
    (searchIndexer env config).Uses
      (Contacts env fun u => NodeUrl env u ∨ SavedUrl env config u) := by
  refine Prog.uses_bind ?_ fun pinned => ?_
  · unfold tryPinned
    split
    · rename_i idx hidx
      obtain ⟨hidx, -⟩ := Option.filter_eq_some_iff.1 hidx
      exact contacts_resolve fun u hu => Or.inr ⟨idx, hidx, hu⟩
    · exact Prog.uses_ret _
  · split
    · exact Prog.uses_ret _
    · refine Prog.uses_bind (contacts_discoverIndexerUrl humbrel config fun u => Or.inl)
        fun found => ?_
      split
      · exact Prog.uses_ret _
      · exact contacts_retryIndexer humbrel config

theorem contacts_searchOnUmbrel (humbrel : isUmbrelMode env = true) (cleared : Bool)
    (config : Api.Config) :
    (searchOnUmbrel env cleared config).Uses
      (Contacts env fun u => NodeUrl env u ∨ SavedUrl env config u) := by
  refine Prog.uses_bind ?_ fun found => ?_
  · unfold discoverNode
    split
    · exact Prog.uses_ret _
    · exact contacts_discoverUmbrelNode fun u => Or.inl
  · split
    · exact Prog.uses_ret _
    · split
      · exact Prog.uses_ret _
      · exact contacts_searchIndexer humbrel config

theorem contacts_discoverAndNote (changed : Bool) (config : Api.Config) :
    (discoverAndNote env changed config).Uses (Contacts env (NodeUrl env)) := by
  refine Prog.uses_bind (contacts_discoverUmbrelNode fun u hu => hu) fun found => ?_
  refine Prog.uses_bind ((Prog.uses_perform _).2 trivial) fun _ => ?_
  split <;> exact Prog.uses_ret _

theorem contacts_discoverUmbrelIfNeeded (config : Api.Config) (force : Bool) :
    (discoverUmbrelIfNeeded env config force).Uses (Contacts env (NodeUrl env)) := by
  unfold discoverUmbrelIfNeeded
  dsimp only
  split
  · exact Prog.uses_ret _
  · split
    · exact contacts_discoverAndNote _ _
    · refine Prog.uses_bind ((Prog.uses_perform _).2 trivial) fun elapsed => ?_
      split
      · exact Prog.uses_ret _
      · exact contacts_discoverAndNote _ _

/-- On Umbrel a search asks the node only, and the saved URL unless that is the mistaken one of the
local network. The search that is repeated asks the node only. Neither looks for other hosts. -/
theorem contacts_of_umbrel (humbrel : isUmbrelMode env = true) (config : Api.Config) :
    (∀ (l : DiscoverySeen) (o : Except Empty (Bool × Api.Config)),
      (applyIndexerDiscovery env config).Path (fun _ _ => True) l o →
      ∀ s ∈ l, Contacts env (fun u => NodeUrl env u ∨
        SavedUrl env (clearMistakenUmbrelLanOverride env config).2 u) s.1) ∧
    ∀ (force : Bool) (l : DiscoverySeen) (o : Except Empty (Bool × Api.Config)),
      (discoverUmbrelIfNeeded env config force).Path (fun _ _ => True) l o →
      ∀ s ∈ l, Contacts env (NodeUrl env) s.1 := by
  refine ⟨fun l o hpath => ?_, fun force l o hpath => ?_⟩
  · refine Prog.Uses.path ?_ hpath
    unfold applyIndexerDiscovery
    split
    · exact Prog.uses_ret _
    · exact contacts_searchOnUmbrel humbrel _ _
  · exact Prog.Uses.path (contacts_discoverUmbrelIfNeeded config force) hpath

/-- The container of the node has an address. -/
def umbrelEnv : DiscoveryEnv :=
  { bareEnv with
    var := fun key => if key = "APP_ELECTRS_NODE_IP" then some "10.21.21.10" else none }

/-- The user has set an address of the local network. -/
def lanIndexer : Api.Config where
  networkType := .signet
  indexer := some { url := "tcp://192.168.1.5:50001", manualOverride := true }

theorem contacts_of_umbrel_lanIndexer :
    isUmbrelMode umbrelEnv = true ∧
      ((applyIndexerDiscovery umbrelEnv lanIndexer).run localIndexer ()).1 =
        .ok (false, { lanIndexer with indexer := none }) ∧
      ((applyIndexerDiscovery umbrelEnv lanIndexer).answers localIndexer ()).length = 2 ∧
      ((∀ (l : DiscoverySeen) (o : Except Empty (Bool × Api.Config)),
        (applyIndexerDiscovery umbrelEnv lanIndexer).Path (fun _ _ => True) l o →
        ∀ s ∈ l, Contacts umbrelEnv (fun u => NodeUrl umbrelEnv u ∨
          SavedUrl umbrelEnv (clearMistakenUmbrelLanOverride umbrelEnv lanIndexer).2 u) s.1) ∧
      ∀ (force : Bool) (l : DiscoverySeen) (o : Except Empty (Bool × Api.Config)),
        (discoverUmbrelIfNeeded umbrelEnv lanIndexer force).Path (fun _ _ => True) l o →
        ∀ s ∈ l, Contacts umbrelEnv (NodeUrl umbrelEnv) s.1) :=
  ⟨by decide +kernel, by decide +kernel, by decide +kernel,
    contacts_of_umbrel (by decide +kernel) lanIndexer⟩

end

end BroadcastPool.Discovery
