import BroadcastPool.Api.Settings

/-!
# `BroadcastPool.Api.SaveConfig`: the whole of `save_config`

The handler takes the lock of the configuration and then writes one field after the other. It can
leave early at five places: an unknown chain height, an invalid virtual height, an identity that
cannot be generated, an invalid recipient, and a file that cannot be written. `saveConfig` returns
what it answers and the configuration that it leaves in memory.

`Config` has the sections that `save_config` reads or writes. The others stay as they are. Of the
answer only the two flags are here, not the `ConfigResponse` that displays the configuration.
-/

set_option autoImplicit false

namespace BroadcastPool.Api

/-- `NetworkType`. -/
inductive NetworkType
  | mainnet | testnet4 | signet
deriving DecidableEq, Repr

/-- `NetworkType::data_dir_name`. -/
def NetworkType.dataDirName : NetworkType → String
  | mainnet => "mainnet"
  | testnet4 => "testnet4"
  | signet => "signet"

/-- `IndexerConfig`. -/
structure IndexerConfig where
  url : String
  manualOverride : Bool := false
deriving DecidableEq, Repr

/-- `ScheduleConfig`, with the field that only the settings page reads. -/
structure ScheduleConfig extends BroadcastPool.ScheduleConfig where
  defaultDelayHours : Nat := 24
deriving DecidableEq, Repr

/-- `NostrNotificationConfig`. -/
structure NostrNotificationConfig where
  enabled : Bool := false
  recipientNpub : String := ""
  relays : List String := []
  appNsec : String := ""
  torSocks : String := ""
deriving DecidableEq, Repr

/-- `NotificationsConfig`. -/
structure NotificationsConfig where
  enabled : Bool := false
  language : String := "en"
  nostr : NostrNotificationConfig := {}
deriving DecidableEq, Repr

/-- `Config`. -/
structure Config where
  /-- `network.network_type` -/
  networkType : NetworkType
  indexer : Option IndexerConfig := none
  schedule : ScheduleConfig := {}
  notifications : NotificationsConfig := {}
deriving DecidableEq, Repr

/-- `SaveConfigRequest`. -/
structure SaveConfigRequest extends BroadcastPool.SaveConfigRequest where
  network : Option String := none
  defaultDelayHours : Option Nat := none
  notificationsEnabled : Option Bool := none
  notificationsLanguage : Option String := none
  nostrEnabled : Option Bool := none
  nostrRecipientNpub : Option String := none
  nostrRelays : Option (List String) := none
  nostrTorSocks : Option String := none
deriving DecidableEq, Repr

/-- What one call of `save_config` finds outside the configuration. -/
structure Surroundings where
  /-- The error of the poisoned `config` mutex. -/
  lockError : Option String
  /-- `is_umbrel_mode` -/
  umbrelMode : Bool
  /-- `chain_health().height`, read before the lock is taken. -/
  realHeight : Option Nat
  /-- Whether `BROADCAST_POOL_INDEXER_URL` is set. -/
  indexerPinned : Bool
  /-- `resolve_working_indexer_url` -/
  resolveWorkingIndexerUrl : String → NetworkType → Option String
  /-- `discover_indexer_url`. The number tells the first call from the second. -/
  discoverIndexerUrl : Nat → NetworkType → Config → Option String
  /-- `generate_nsec` -/
  generateNsec : Except String String
  /-- `str::to_lowercase`, by the tables of Unicode. -/
  toLowercase : String → String
  /-- `validate_npub` -/
  validateNpub : String → Except String Unit
  /-- `save_config_to_disk` -/
  saveConfigToDisk : Except String Unit

/-- The status codes of the answers. -/
inductive StatusCode
  | badRequest | internalServerError
deriving DecidableEq, Repr

/-- What a successful call goes on with. -/
structure Saved where
  networkChanged : Bool
  /-- The indexer is connected again. -/
  indexerUpdated : Bool
deriving DecidableEq, Repr

/-- The network with this name. Any other name stands for the network that is there. -/
def networkNamed (name : String) (current : NetworkType) : NetworkType :=
  if name = "mainnet" then .mainnet
  else if name = "testnet4" then .testnet4
  else if name = "signet" then .signet
  else current

/-- `apply_indexer_discovery` outside Umbrel mode, in which `save_config` does not call it. -/
def applyIndexerDiscovery (s : Surroundings) (config : Config) : Bool × Config :=
  let network := config.networkType
  let found (url : String) (manualOverride : Bool) : Bool × Config :=
    (true, { config with indexer := some { url, manualOverride } })
  if s.indexerPinned then (config.indexer.isSome, config)
  else
    let pinnedByUser := config.indexer.filter (·.manualOverride)
    match pinnedByUser.bind fun i => s.resolveWorkingIndexerUrl i.url network with
    | some working => found working true
    | none =>
      match s.discoverIndexerUrl 0 network config with
      | some url => found url false
      | none =>
        match config.indexer.filter fun i => !i.manualOverride with
        | none => (false, config)
        | some i =>
          match s.resolveWorkingIndexerUrl i.url network with
          | some working => found working false
          | none =>
            match s.discoverIndexerUrl 1 network config with
            | some url => found url false
            | none => (false, config)

namespace SaveConfigRequest
variable (request : SaveConfigRequest) (s : Surroundings) (config : Config)

/-- The network, if it may be edited, and whether it counts as changed. A name that no network has
counts as a change. -/
def applyNetwork : Bool × Config :=
  if s.umbrelMode then (false, config)
  else
    match request.network with
    | none => (false, config)
    | some net =>
      let newNetwork := Text.lowercase net
      (newNetwork ≠ config.networkType.dataDirName,
        { config with networkType := networkNamed newNetwork config.networkType })

/-- The indexer on a network that counts as changed. -/
def applyIndexer (networkChanged : Bool) : Bool × Config :=
  if networkChanged then
    let (found, config) := applyIndexerDiscovery s config
    (found && config.indexer.isSome, config)
  else (false, config)

/-- The fields of the schedule before the virtual block. -/
def applySchedule : Config :=
  { config with schedule := {
      request.toSaveConfigRequest.applyPlan config.schedule.toScheduleConfig with
      defaultDelayHours := request.defaultDelayHours.getD config.schedule.defaultDelayHours } }

/-- The virtual block in its place. -/
def setVirtualBlock (vb : LianaVirtualBlockConfig) : Config :=
  { config with schedule := { config.schedule with lianaVirtualBlock := vb } }

/-- An empty language is English. -/
def languageOf (v : String) : String :=
  if Text.trim v = "" then "en" else s.toLowercase (Text.trim v)

/-- The relays without white space, and without the empty ones. -/
def relaysOf (v : List String) : List String := (v.map Text.trim).filter (· ≠ "")

/-- The fields of the notifications. -/
def applyNotifications : Config :=
  let nostr := config.notifications.nostr
  { config with notifications := {
      enabled := request.notificationsEnabled.getD config.notifications.enabled
      language :=
        (request.notificationsLanguage.map (languageOf s)).getD config.notifications.language
      nostr := { nostr with
        enabled := request.nostrEnabled.getD nostr.enabled
        recipientNpub := (request.nostrRecipientNpub.map Text.trim).getD nostr.recipientNpub
        relays := (request.nostrRelays.map relaysOf).getD nostr.relays
        torSocks := (request.nostrTorSocks.map Text.trim).getD nostr.torSocks } } }

end SaveConfigRequest

/-- The configuration with an identity. -/
def Config.withNsec (config : Config) (nsec : String) : Config :=
  { config with notifications := { config.notifications with
    nostr := { config.notifications.nostr with appNsec := nsec } } }

/-- The identity, generated when notifications go on without one. -/
def ensureIdentity (s : Surroundings) (config : Config) : Except String Config :=
  let nostr := config.notifications.nostr
  if nostr.enabled && nostr.appNsec = "" then
    match s.generateNsec with
    | .ok nsec => .ok (config.withNsec nsec)
    | .error e => .error ("Could not generate a Nostr identity: " ++ e)
  else .ok config

/-- The recipient, checked when notifications are on. -/
def checkRecipient (s : Surroundings) (config : Config) : Except String Unit :=
  let nostr := config.notifications.nostr
  if nostr.enabled && nostr.recipientNpub ≠ "" then s.validateNpub nostr.recipientNpub
  else .ok ()

/-- `save_config`: the answer, and the configuration in memory afterwards. -/
def saveConfig (s : Surroundings) (request : SaveConfigRequest) (config : Config) :
    Except (StatusCode × String) Saved × Config :=
  match s.lockError with
  | some e => (.error (.internalServerError, e), config)
  | none =>
    let network := request.applyNetwork s config
    let indexer := SaveConfigRequest.applyIndexer s network.2 network.1
    let config := request.applySchedule indexer.2
    let block := request.applyVirtualBlock s.realHeight config.schedule.lianaVirtualBlock
    let config := SaveConfigRequest.setVirtualBlock config block.2
    match block.1 with
    | .error e => (.error (.badRequest, e), config)
    | .ok () =>
      let config := request.applyNotifications s config
      match ensureIdentity s config with
      | .error e => (.error (.internalServerError, e), config)
      | .ok config =>
        match checkRecipient s config with
        | .error e => (.error (.badRequest, e), config)
        | .ok () =>
          match s.saveConfigToDisk with
          | .error e => (.error (.internalServerError, "File write error: " ++ e), config)
          | .ok () => (.ok { networkChanged := network.1, indexerUpdated := indexer.1 }, config)

end BroadcastPool.Api
