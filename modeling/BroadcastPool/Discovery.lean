import BroadcastPool.Api.SaveConfig
import BroadcastPool.ElectrumServer.Session
import BroadcastPool.Lib.Interleave
import BroadcastPool.Lib.Json

/-!
# `BroadcastPool.Discovery`: the search for an indexer

The program asks known hosts, then the subnets of the local network, whether an indexer answers
there. `probe_indexer_url` makes three tests of a URL: its port is open, `server.version` is
answered, and the genesis block is the one that is expected on the network.

On Umbrel only the container of the node is asked, and a URL of the local network that a user has
set is taken away. `DiscoveryEnv` is the environment of the process. What goes over the network is
an action: a TCP connection, a call of `json_rpc`, and the question to Bitcoin Core for its genesis
block. So is the time of the last search on Umbrel, which other threads read and set too. Log lines
are left out.
-/

set_option autoImplicit false

namespace BroadcastPool.Discovery

open Effects
open BroadcastPool.Api (NetworkType IndexerConfig)

/-! ### The environment -/

structure DiscoveryEnv where
  /-- `std::env::var`. -/
  var : String → Option String
  /-- The address that `ip route get` prints, if the command succeeds. -/
  routeIp : Option String
  /-- The own addresses of a UDP socket that is connected to one target after the other, if there is
  such a socket. -/
  socketIps : Option (List String)
  /-- The hash of a decoded block header. -/
  headerHash : List UInt8 → Option String

inductive DiscoveryAct
  | tcpPortOpen (host : String) (port : Nat)
  | jsonRpc (url method : String) (params : List Json)
  /-- `get_genesis_block_hash` of a new client. -/
  | coreGenesisHash (url user password : String)
  /-- The seconds since the time in `LAST_UMBREL_DISCOVERY`, if there is one. -/
  | sinceLastDiscovery
  | noteDiscovery

@[reducible] def DiscoveryAct.Res : DiscoveryAct → Type
  | tcpPortOpen .. => Bool
  | jsonRpc .. => Except String Json
  | coreGenesisHash .. => Option String
  | sinceLastDiscovery => Option Nat
  | noteDiscovery => Unit

/-- No program of the discovery fails. -/
abbrev DiscoveryM : Type → Type := Prog DiscoveryAct DiscoveryAct.Res Empty

def discovery (a : DiscoveryAct) : DiscoveryM a.Res := Prog.perform a

/-! ### Addresses -/

/-- `strip_indexer_scheme`. -/
def stripIndexerScheme (url : String) : String :=
  ((Text.stripPrefix? url "tcp://").or (Text.stripPrefix? url "ssl://")).getD url

/-- The URL names a scheme. -/
def hasScheme (url : String) : Bool :=
  Text.startsWith url "tcp://" || Text.startsWith url "ssl://"

/-- `str::parse::<u16>`. -/
def parseU16 (s : String) : Option Nat := Text.parseUnsigned 65535 s

/-- `str::parse::<u8>`. -/
def parseU8 (s : String) : Option Nat := Text.parseUnsigned 255 s

/-- What stands before and after the last colon, if a port stands there. -/
def hostPort (bare : String) : Option (String × Nat) := do
  let (host, portStr) ← Text.rsplitOnce bare ':'
  let port ← parseU16 portStr
  return (host, port)

/-- `extract_indexer_host`. -/
def extractIndexerHost (url : String) : Option String :=
  let bare := Text.trim (stripIndexerScheme url)
  if bare = "" then none
  else ((Text.splitOn bare ':').head?.map Text.trim).filter (· ≠ "")

/-- `push_unique`. -/
def pushUnique (hosts : List String) (host : String) : List String :=
  if host = "" || host ∈ hosts then hosts else hosts ++ [host]

/-- `lan_subnet_prefix`. -/
def lanSubnetPrefix (lanIp : String) : Option String :=
  match Text.splitOn lanIp '.' with
  | [a, b, c, d] =>
      if [a, b, c, d].all fun part => (parseU8 part).isSome then some (a ++ "." ++ b ++ "." ++ c)
      else none
  | _ => none

/-- The hosts of a subnet, in order. -/
def subnetHosts (subnet : String) : List String :=
  (List.range' 1 254).map fun n => subnet ++ "." ++ toString n

/-- `INDEXER_PORTS`. -/
def indexerPorts : List Nat := [50001, 50002]

/-- `BROADER_PORT_RANGE`. -/
def broaderPortRange : List Nat := List.range' 50000 11

/-- `is_plausible_lan_ip`. -/
def isPlausibleLanIp (ip : String) : Bool :=
  !Text.startsWith ip "127." && !Text.startsWith ip "0." && Text.containsText ip "."

/-- `is_likely_docker_bridge`. -/
def isLikelyDockerBridge (ip : String) : Bool :=
  Text.startsWith ip "10.21." || Text.startsWith ip "172.17." || Text.startsWith ip "172.18." ||
    Text.startsWith ip "10.0.3."

/-- `is_private_lan_host`. -/
def isPrivateLanHost (host : String) : Bool :=
  Text.startsWith host "192.168." ||
    (((Text.stripPrefix? host "172.").bind fun rest =>
      ((Text.splitOn rest '.').head?).bind parseU8).any fun oct => 16 ≤ oct && oct ≤ 31)

section
variable (env : DiscoveryEnv)

/-- `env_nonempty`. -/
def envNonempty (key : String) : Option String :=
  ((env.var key).map Text.trim).filter fun v => v ≠ "" && !Text.containsText v "$\x7b"

/-- `is_umbrel_mode`. -/
def isUmbrelMode : Bool :=
  (env.var "BROADCAST_POOL_UMBREL").any (fun v => v = "1" || Text.asciiLower v = "true") ||
    (env.var "APP_ELECTRS_NODE_IP").any fun v => Text.trim v ≠ ""

/-- `umbrel_electrs_ssl_configured`. -/
def umbrelElectrsSslConfigured : Bool := (envNonempty env "APP_ELECTRS_NODE_SSL_PORT").isSome

/-- `candidate_urls_for_host`. -/
def candidateUrlsForHost (host : String) (ports : List Nat) : List String :=
  let tcpOnly := isUmbrelMode env && !umbrelElectrsSslConfigured env
  ports.flatMap fun port =>
    let address := host ++ ":" ++ toString port
    if tcpOnly then ["tcp://" ++ address] else ["tcp://" ++ address, "ssl://" ++ address]

/-- The own address that other hosts can reach, by the routes and the sockets. -/
def isReachableIp (ip : String) : Bool := isPlausibleLanIp ip && !isLikelyDockerBridge ip

/-- `detect_lan_ip`. -/
def detectLanIp : Option String :=
  let configured := ((env.var "BROADCAST_POOL_LAN_IP").map Text.trim).filter fun ip =>
    ip ≠ "" && isPlausibleLanIp ip
  (configured.or (env.routeIp.filter isReachableIp)).or
    (env.socketIps.bind fun ips => ips.find? isReachableIp)

/-- `umbrel_indexer_hosts`. -/
def umbrelIndexerHosts : List String :=
  let hosts := match env.var "APP_ELECTRS_NODE_IP" with
    | some h => pushUnique [] (Text.trim h)
    | none => []
  pushUnique hosts "electrs"

/-- The port that a variable names. -/
def portVar (key : String) : List Nat := ((env.var key).bind parseU16).toList

/-- The ports of a list that are not there yet. -/
def addPorts (ports : List Nat) : List Nat → List Nat
  | [] => ports
  | p :: ps => addPorts (if p ∈ ports then ports else ports ++ [p]) ps

/-- `umbrel_indexer_ports`. -/
def umbrelIndexerPorts : List Nat :=
  let named := portVar env "APP_ELECTRS_NODE_PORT" ++ portVar env "APP_ELECTRS_NODE_SSL_PORT"
  let ports := if named = [] then [50001] else named
  if isUmbrelMode env then ports else addPorts ports indexerPorts

/-- `indexer_ports_to_try`. -/
def indexerPortsToTry : List Nat :=
  if isUmbrelMode env then umbrelIndexerPorts env
  else addPorts (portVar env "APP_ELECTRS_NODE_PORT") indexerPorts

/-- `indexer_host_candidates`. -/
def indexerHostCandidates (config : Api.Config) : List String :=
  if isUmbrelMode env then umbrelIndexerHosts env
  else
    let node := ((env.var "APP_ELECTRS_NODE_IP").map Text.trim).toList
    let saved := (config.indexer.bind fun idx => extractIndexerHost idx.url).toList
    (node ++ saved ++ ["127.0.0.1"] ++ (detectLanIp env).toList).foldl pushUnique []

/-- `lan_subnets_to_scan`. -/
def lanSubnetsToScan (config : Api.Config) : List String :=
  let configured := (env.var "BROADCAST_POOL_LAN_IP").bind fun ip => lanSubnetPrefix (Text.trim ip)
  let saved := (config.indexer.bind fun idx => extractIndexerHost idx.url).bind lanSubnetPrefix
  let own := ((detectLanIp env).filter fun ip => !isLikelyDockerBridge ip).bind lanSubnetPrefix
  (configured.toList ++ saved.toList ++ own.toList).foldl pushUnique []

/-- `is_mistaken_umbrel_lan_override`. -/
def isMistakenUmbrelLanOverride (host : String) : Bool :=
  let host := Text.trim host
  let nodeIp := Text.trim ((env.var "APP_ELECTRS_NODE_IP").getD "")
  if !isUmbrelMode env then false
  else if host = "" then false
  else if host = "electrs" || host = "localhost" || host = "127.0.0.1" then false
  else if nodeIp ≠ "" && host = nodeIp then false
  else if Text.startsWith host "10.21." then false
  else if (env.var "BROADCAST_POOL_LAN_IP").any fun lan => host = Text.trim lan then true
  else isPrivateLanHost host

/-- `clear_mistaken_umbrel_lan_override`. -/
def clearMistakenUmbrelLanOverride (config : Api.Config) : Bool × Api.Config :=
  match (config.indexer.bind fun idx => extractIndexerHost idx.url).filter
      (isMistakenUmbrelLanOverride env) with
  | some _ => (true, { config with indexer := none })
  | none => (false, config)

/-! ### One URL -/

/-- `bitcoin_rpc_genesis_hash`. -/
def bitcoinRpcGenesisHash : DiscoveryM (Option String) :=
  match env.var "BROADCAST_POOL_RPC_URL", env.var "BROADCAST_POOL_RPC_USER",
      env.var "BROADCAST_POOL_RPC_PASS" with
  | some url, some user, some password => discovery (.coreGenesisHash url user password)
  | _, _, _ => return none

/-- `expected_genesis_hash`. -/
def expectedGenesisHash (network : NetworkType) : DiscoveryM String := do
  match ← bitcoinRpcGenesisHash env with
  | some hash => return hash
  | none => return genesisHash network.dataDirName

/-- The hash that `server.features` names. -/
def featuresGenesis (features : Json) : Option String :=
  (((features.get? "genesis_hash").bind Json.asStr?).map fun s =>
    Text.lowercase (Text.trim s)).filter (· ≠ "")

/-- The hash of the genesis block in an answer to `blockchain.block.header`. -/
def headerGenesis (header : Json) : Option String := do
  let headerHex ← header.asStr?
  let raw ← Text.hexDecode headerHex
  env.headerHash raw

/-- `genesis_block_hash_at_url`, without why it fails. -/
def genesisBlockHashAtUrl (url : String) : DiscoveryM (Option String) := do
  let features ← discovery (.jsonRpc url "server.features" [])
  match features.toOption.bind featuresGenesis with
  | some hash => return some hash
  | none =>
    match ← discovery (.jsonRpc url "blockchain.block.header" [.ofInt 0]) with
    | .ok header => return headerGenesis env header
    | .error _ => return none

/-- `genesis_matches_network_at_url`. -/
def genesisMatchesNetworkAtUrl (url : String) (network : NetworkType) : DiscoveryM Bool := do
  match ← genesisBlockHashAtUrl env url with
  | none => return false
  | some actual =>
    let expected ← expectedGenesisHash env network
    return actual = expected

/-- `server_version_probe_params`. -/
def serverVersionProbeParams : List Json := [.str "broadcast-pool", .str "1.4"]

/-- `probe_working_url`, for one candidate. -/
def probeWorkingUrl (url : String) : DiscoveryM Bool := do
  let answer ← discovery (.jsonRpc url "server.version" serverVersionProbeParams)
  return answer.toOption.isSome

/-- `tcp_reachable_from_url`. -/
def tcpReachableFromUrl (url : String) : DiscoveryM Bool :=
  match hostPort (Text.trim (stripIndexerScheme url)) with
  | some (host, port) => discovery (.tcpPortOpen host port)
  | none => return false

/-- `IndexerProbeOutcome`. -/
inductive IndexerProbeOutcome
  | tcpRefused | rpcFailed | genesisMismatch | ok
deriving DecidableEq, Repr

/-- `probe_indexer_url`. -/
def probeIndexerUrl (url : String) (network : NetworkType) : DiscoveryM IndexerProbeOutcome := do
  if ← tcpReachableFromUrl url then
    if ← probeWorkingUrl url then
      if ← genesisMatchesNetworkAtUrl env url network then return .ok
      else return .genesisMismatch
    else return .rpcFailed
  else return .tcpRefused

/-- `indexer_matches_network`. -/
def indexerMatchesNetwork (url : String) (network : NetworkType) : DiscoveryM Bool := do
  if ← tcpReachableFromUrl url then
    if ← probeWorkingUrl url then genesisMatchesNetworkAtUrl env url network
    else return false
  else return false

/-! ### Many hosts -/

/-- `HostProbeFailure`. -/
inductive HostProbeFailure
  | tcpRefused | genesisMismatch
deriving DecidableEq, Repr

/-- The loop of `try_host`. Whether a port was open makes no difference to what it returns. -/
def tryUrls (network : NetworkType) :
    List String → Bool → DiscoveryM (Except HostProbeFailure String)
  | [], sawGenesisMismatch =>
      return .error (if sawGenesisMismatch then .genesisMismatch else .tcpRefused)
  | url :: urls, sawGenesisMismatch => do
    match ← probeIndexerUrl env url network with
    | .ok => return .ok url
    | .tcpRefused | .rpcFailed => tryUrls network urls sawGenesisMismatch
    | .genesisMismatch => tryUrls network urls true

/-- `try_host`. -/
def tryHost (network : NetworkType) (host : String) (ports : List Nat) :
    DiscoveryM (Except HostProbeFailure String) :=
  tryUrls env network (candidateUrlsForHost env host ports) false

/-- `try_hosts_ports`. -/
def tryHostsPorts (network : NetworkType) (ports : List Nat) :
    List String → DiscoveryM (Option String)
  | [] => return none
  | host :: hosts => do
    match ← tryHost env network host ports with
    | .ok url => return some url
    | .error _ => tryHostsPorts network ports hosts

/-- One of the ports is open. No port is tried after the first open one. -/
def anyPortOpen (host : String) : List Nat → DiscoveryM Bool
  | [] => return false
  | port :: ports => do
    if ← discovery (.tcpPortOpen host port) then return true
    else anyPortOpen host ports

/-- `hosts_with_open_ports_on`. With the broader ports, `hosts_with_broader_ports_subnet`: no host
of a subnet comes twice. -/
def hostsWithOpenPorts (ports : List Nat) : List String → DiscoveryM (List String)
  | [] => return []
  | host :: hosts => do
    let isOpen ← anyPortOpen host ports
    let found ← hostsWithOpenPorts ports hosts
    return if isOpen then host :: found else found

/-- `scan_subnet_for_indexer`. -/
def scanSubnetForIndexer (network : NetworkType) (subnet : String) (ports : List Nat) :
    DiscoveryM (Option String) := do
  let responsive ← hostsWithOpenPorts ports (subnetHosts subnet)
  tryHostsPorts env network ports responsive

/-- The first subnet with an indexer. -/
def scanSubnets (network : NetworkType) (ports : List Nat) :
    List String → DiscoveryM (Option String)
  | [] => return none
  | subnet :: subnets => do
    match ← scanSubnetForIndexer env network subnet ports with
    | some url => return some url
    | none => scanSubnets network ports subnets

/-- The two URLs for a host and a port. -/
def tryAddress (network : NetworkType) (bare : String) : DiscoveryM (Option String) :=
  match hostPort bare with
  | some (host, port) => do
    let answer ← tryHost env network (Text.trim host) [port]
    return answer.toOption
  | none => return none

/-- `resolve_working_indexer_url`. -/
def resolveWorkingIndexerUrl (raw : String) (network : NetworkType) :
    DiscoveryM (Option String) := do
  let trimmed := Text.trim raw
  if trimmed = "" then return none
  else if hasScheme trimmed then
    if ← indexerMatchesNetwork env trimmed network then return some trimmed
    else tryAddress env network (stripIndexerScheme trimmed)
  else tryAddress env network trimmed

/-! ### The node of Umbrel -/

/-- The variables that name the indexer of the node. -/
def umbrelKeys : List String :=
  if umbrelElectrsSslConfigured env || (envNonempty env "BROADCAST_POOL_UMBREL_ELECTRS_SSL").isSome
  then ["BROADCAST_POOL_UMBREL_ELECTRS_TCP", "BROADCAST_POOL_UMBREL_ELECTRS_SSL",
    "BROADCAST_POOL_INDEXER_URL"]
  else ["BROADCAST_POOL_UMBREL_ELECTRS_TCP", "BROADCAST_POOL_INDEXER_URL"]

/-- The first variable whose URL works. -/
def tryKeys (network : NetworkType) : List String → DiscoveryM (Option String)
  | [] => return none
  | key :: keys =>
    match envNonempty env key with
    | none => tryKeys network keys
    | some raw => do
      match ← resolveWorkingIndexerUrl env raw network with
      | some url => return some url
      | none => tryKeys network keys

/-- `discover_umbrel_node_indexer`. -/
def discoverUmbrelNodeIndexer (network : NetworkType) : DiscoveryM (Option String) := do
  match ← tryKeys env network (umbrelKeys env) with
  | some url => return some url
  | none => tryHostsPorts env network (umbrelIndexerPorts env) (umbrelIndexerHosts env)

/-! ### The search -/

/-- `discover_indexer_url`. -/
def discoverIndexerUrl (network : NetworkType) (config : Api.Config) :
    DiscoveryM (Option String) :=
  if isUmbrelMode env then discoverUmbrelNodeIndexer env network
  else do
    let standardPorts := indexerPortsToTry env
    match ← tryHostsPorts env network standardPorts (indexerHostCandidates env config) with
    | some url => return some url
    | none =>
      let subnets := lanSubnetsToScan env config
      match ← scanSubnets env network standardPorts subnets with
      | some url => return some url
      | none => scanSubnets env network broaderPortRange subnets

/-- A search that found an indexer. -/
def foundIndexer (config : Api.Config) (url : String) (manualOverride : Bool) :
    Bool × Api.Config :=
  (true, { config with indexer := some { url, manualOverride } })

/-- The part of `apply_indexer_discovery` after a search that found nothing. -/
def retryIndexer (config : Api.Config) : DiscoveryM (Bool × Api.Config) :=
  match config.indexer.filter fun idx => !idx.manualOverride with
  | none => return (false, config)
  | some idx => do
    match ← resolveWorkingIndexerUrl env idx.url config.networkType with
    | some working => return foundIndexer config working false
    | none =>
      match ← discoverIndexerUrl env config.networkType config with
      | some found => return foundIndexer config found false
      | none => return (false, config)

/-- The URL that the user has set, if it works. -/
def tryPinned (config : Api.Config) : DiscoveryM (Option String) :=
  match config.indexer.filter (·.manualOverride) with
  | some idx => resolveWorkingIndexerUrl env idx.url config.networkType
  | none => return none

/-- The part of `apply_indexer_discovery` for all platforms. -/
def searchIndexer (config : Api.Config) : DiscoveryM (Bool × Api.Config) := do
  match ← tryPinned env config with
  | some working => return foundIndexer config working true
  | none =>
    match ← discoverIndexerUrl env config.networkType config with
    | some url => return foundIndexer config url false
    | none => retryIndexer env config

/-- The node of Umbrel, unless the user has set a URL. -/
def discoverNode (config : Api.Config) : DiscoveryM (Option String) :=
  if config.indexer.any (·.manualOverride) then return none
  else discoverUmbrelNodeIndexer env config.networkType

/-- The part of `apply_indexer_discovery` for Umbrel, after a mistaken URL was cleared or not. -/
def searchOnUmbrel (cleared : Bool) (config : Api.Config) : DiscoveryM (Bool × Api.Config) := do
  match ← discoverNode env config with
  | some url => return foundIndexer config url false
  | none => if cleared then return (false, config) else searchIndexer env config

/-- `apply_indexer_discovery`. -/
def applyIndexerDiscovery (config : Api.Config) : DiscoveryM (Bool × Api.Config) :=
  if (env.var "BROADCAST_POOL_INDEXER_URL").isSome then return (config.indexer.isSome, config)
  else if isUmbrelMode env then
    let (cleared, config) := clearMistakenUmbrelLanOverride env config
    searchOnUmbrel env cleared config
  else searchIndexer env config

/-! ### The search on Umbrel that can be repeated -/

/-- `sanitize_umbrel_indexer_config`. -/
def sanitizeUmbrelIndexerConfig (config : Api.Config) : Bool × Api.Config :=
  if isUmbrelMode env then
    let (changed, config) := clearMistakenUmbrelLanOverride env config
    if config.indexer.any (·.manualOverride) then (true, { config with indexer := none })
    else (changed, config)
  else (false, config)

/-- `UMBREL_DISCOVERY_COOLDOWN`, in seconds. -/
def umbrelDiscoveryCooldown : Nat := 45

/-- The part of `discover_umbrel_if_needed` that asks the node. -/
def discoverAndNote (changed : Bool) (config : Api.Config) : DiscoveryM (Bool × Api.Config) := do
  let found ← discoverUmbrelNodeIndexer env config.networkType
  discovery .noteDiscovery
  match found with
  | some url => return foundIndexer config url false
  | none => return (changed, config)

/-- `discover_umbrel_if_needed`. -/
def discoverUmbrelIfNeeded (config : Api.Config) (force : Bool) :
    DiscoveryM (Bool × Api.Config) :=
  let (changed, config) := sanitizeUmbrelIndexerConfig env config
  if !isUmbrelMode env || config.indexer.isSome then return (changed, config)
  else if force then discoverAndNote env changed config
  else do
    let elapsed ← discovery .sinceLastDiscovery
    if elapsed.any (· < umbrelDiscoveryCooldown) then return (changed, config)
    else discoverAndNote env changed config

end
end BroadcastPool.Discovery
