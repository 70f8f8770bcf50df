import BroadcastPool.Api.SaveConfig
import BroadcastPool.Lib.Interleave
import BroadcastPool.Notify.Message
import BroadcastPool.Pool.World

/-!
# `BroadcastPool.Notify.Nostr`: how a notification is sent

`send` builds a client for the configured identity, adds the relays, connects and sends the text as
an encrypted direct message. A `.onion` relay needs a SOCKS proxy: the client sends the traffic to
such relays through it, and all other traffic directly. The client is that of a library, so
`NostrClient` says only what it was built with, and each of its calls is an action with an answer.

`withRetries` tries a channel three times, with a pause after the first two failures. `deliver` does
so for the one channel there is. Neither catches the panic of a notification that has no text. Log
lines are left out.
-/

set_option autoImplicit false

namespace BroadcastPool

open Effects
open BroadcastPool.Api (NotificationsConfig NostrNotificationConfig)

/-! ### What the configuration says -/

/-- `UMBREL_TOR_SOCKS`. -/
def umbrelTorSocks : String := "10.21.21.11:9050"

/-- `resolve_tor_socks_with`. -/
def resolveTorSocksWith (self : NostrNotificationConfig) (umbrel : Bool)
    (envSocks : Option String) : Option String :=
  let configured := Text.trim self.torSocks
  if Text.asciiLower configured = "off" then none
  else if configured ≠ "" then some configured
  else
    match (envSocks.map Text.trim).filter (· ≠ "") with
    | some socks => if Text.asciiLower socks = "off" then none else some socks
    | none => if umbrel then some umbrelTorSocks else none

/-- The URL, without white space and slashes at its end, ends in `.onion`. -/
def isOnion (relay : String) : Bool :=
  let host := (Text.trim relay).toList.reverse.dropWhile (· = '/')
  "noino.".toList.isPrefixOf (host.map Char.toLower)

/-- `has_onion_relay`. -/
def hasOnionRelay (self : NostrNotificationConfig) : Bool := self.relays.any isOnion

/-- `nostr_active`. -/
def nostrActive (self : NotificationsConfig) : Bool :=
  self.enabled && self.nostr.enabled && Text.trim self.nostr.recipientNpub ≠ "" &&
    self.nostr.relays.any fun relay => Text.trim relay ≠ ""

/-- `any_active`. -/
def anyActive (self : NotificationsConfig) : Bool := nostrActive self

/-! ### The client -/

/-- The libraries of a notification. -/
structure NotifyLibs extends MessageLibs where
  /-- `Keys::parse`, with the error of `parse_keys`. The keys are named by their text. -/
  parseKeys : String → Except String String
  /-- `PublicKey::parse`, with the error of `parse_recipient`. -/
  parseRecipient : String → Except String String
  /-- `is_umbrel_mode`. -/
  umbrelMode : Bool
  /-- The variable `BROADCAST_POOL_TOR_SOCKS`. -/
  envSocks : Option String

/-- What a `Client` was built with. A proxy is for the `.onion` relays. -/
structure NostrClient where
  keys : String
  proxy : Option String
deriving DecidableEq, Repr

/-- `Transport`, with its two timeouts in seconds. -/
structure Transport where
  client : NostrClient
  connectTimeout : Nat
  sendTimeout : Nat
deriving DecidableEq, Repr

/-- What became of a direct message: the relays that have taken it, and why the others did not. -/
inductive SendOutcome
  | timedOut
  | failed (error : String)
  | published (success : List String) (failed : List (String × String))
deriving DecidableEq, Repr

inductive NotifyAct
  /-- Take the lock of the configuration and copy the section. -/
  | lockConfig
  /-- The first address that the name of the proxy resolves to. -/
  | resolveSocksAddr (socks : String)
  | addRelay (client : NostrClient) (relay : String)
  /-- Connect, and list the relays that failed. -/
  | tryConnect (client : NostrClient) (timeout : Nat)
  | sendPrivateMsg (client : NostrClient) (timeout : Nat) (recipient text : String)
  | disconnect (client : NostrClient)
  | sleep (seconds : Nat)

@[reducible] def NotifyAct.Res : NotifyAct → Type
  | lockConfig => Except String NotificationsConfig
  | resolveSocksAddr _ => Except String String
  | addRelay .. => Except String Unit
  | tryConnect .. => List (String × String)
  | sendPrivateMsg .. => SendOutcome
  | disconnect _ | sleep _ => Unit

abbrev NotifyM : Type → Type := Prog NotifyAct NotifyAct.Res Failure

def notify (a : NotifyAct) : NotifyM a.Res := Prog.perform a

/-- `?`. -/
def raiseErr {α : Type} : Except String α → NotifyM α
  | .ok a => .ret a
  | .error e => .fail (.error e)

variable (libs : NotifyLibs)

/-- `build_client`. -/
def buildClient (keys : String) (cfg : NostrNotificationConfig) : NotifyM Transport :=
  match resolveTorSocksWith cfg libs.umbrelMode libs.envSocks with
  | none =>
    if hasOnionRelay cfg then
      .fail (.error ("A .onion relay is configured but no Tor SOCKS proxy is available. " ++
        "Set the Tor proxy address in Settings (e.g. 127.0.0.1:9050)."))
    else
      return { client := { keys, proxy := none }, connectTimeout := 10, sendTimeout := 20 }
  | some socks => do
    let addr ← raiseErr (← notify (.resolveSocksAddr socks))
    let client : NostrClient := { keys, proxy := some addr }
    if hasOnionRelay cfg then return { client, connectTimeout := 60, sendTimeout := 90 }
    else return { client, connectTimeout := 10, sendTimeout := 20 }

/-- `describe_failures`. -/
def describeFailures (connectFailed publishFailed : List (String × String)) : String :=
  let parts := (connectFailed ++ publishFailed).map fun (url, err) => url ++ ": " ++ err
  "; ".intercalate (parts.mergeSort (· ≤ ·)).dedup

/-- The relays that `send` adds. -/
def relaysToTry (cfg : NostrNotificationConfig) : List String :=
  (cfg.relays.map Text.trim).filter (· ≠ "")

/-- The relays, one after the other. The first one with an invalid URL ends the attempt. -/
def addRelays (client : NostrClient) (relays : List String) : NotifyM Unit :=
  Prog.forEach relays fun relay => do
    match ← notify (.addRelay client relay) with
    | .ok () => pure ()
    | .error _ => .fail (.error ("Invalid relay URL: " ++ relay))

/-- The part of `send` after the message was sent. After a timeout, nothing is disconnected. -/
def afterMessage (client : NostrClient) (connectFailed : List (String × String)) :
    SendOutcome → NotifyM Unit
  | .timedOut => .fail (.error "Timed out sending Nostr DM")
  | .failed _ => do
    notify (.disconnect client)
    .fail (.error "Failed to send Nostr DM")
  | .published success failed => do
    notify (.disconnect client)
    if success = [] then
      let reasons := describeFailures connectFailed failed
      if reasons = "" then .fail (.error "No relay accepted the Nostr DM")
      else .fail (.error ("No relay accepted the Nostr DM: " ++ reasons))
    else pure ()

/-- The text of the message. Where there is none, the task panics. -/
def messageText (notification : BroadcastNotification) (lang : Language) : NotifyM String :=
  match notification.message libs.toMessageLibs lang with
  | some text => .ret text
  | none => .fail (.panic "byte index is not a char boundary")

/-- The part of `send` that has a client. The text is made when the relays are connected. -/
def useClient (cfg : NostrNotificationConfig) (transport : Transport) (recipient : String)
    (notification : BroadcastNotification) (lang : Language) : NotifyM Unit := do
  addRelays transport.client (relaysToTry cfg)
  let connectFailed ← notify (.tryConnect transport.client transport.connectTimeout)
  let text ← messageText libs notification lang
  let outcome ← notify (.sendPrivateMsg transport.client transport.sendTimeout recipient text)
  afterMessage transport.client connectFailed outcome

/-- `send`. -/
def send (cfg : NostrNotificationConfig) (notification : BroadcastNotification)
    (lang : Language) : NotifyM Unit := do
  let keys ← raiseErr (libs.parseKeys (Text.trim cfg.appNsec))
  let recipient ← raiseErr (libs.parseRecipient (Text.trim cfg.recipientNpub))
  if relaysToTry cfg = [] then .fail (.error "No Nostr relays configured")
  else
    let transport ← buildClient libs keys cfg
    useClient libs cfg transport recipient notification lang

/-! ### Attempts -/

/-- `MAX_ATTEMPTS`. -/
def maxAttempts : Nat := 3

/-- `RETRY_BACKOFF`, in seconds. -/
def retryBackoff : List Nat := [2, 5]

/-- The loop of `with_retries` from the attempt with this number. -/
def retriesFrom (attempt : NotifyM Unit) (n : Nat) : Nat → NotifyM Bool
  | 0 => pure false
  | left + 1 => do
    match ← attempt.attempt with
    | .ok () => return true
    | .error (.panic e) => .fail (.panic e)
    | .error (.error _) =>
      match retryBackoff[n]? with
      | some seconds =>
        notify (.sleep seconds)
        retriesFrom attempt (n + 1) left
      | none => retriesFrom attempt (n + 1) left

/-- `with_retries`. -/
def withRetries (attempt : NotifyM Unit) : NotifyM Bool := retriesFrom attempt 0 maxAttempts

/-- `deliver`. Whether it has succeeded is only logged. -/
def deliver (cfg : NotificationsConfig) (notification : BroadcastNotification) : NotifyM Unit :=
  if anyActive cfg then
    let lang := Language.fromCode cfg.language
    if nostrActive cfg then do
      let _ ← withRetries (send libs cfg.nostr notification lang)
      pure ()
    else pure ()
  else pure ()

/-- What `run_notification_dispatcher` does with a notification that it has received. -/
def dispatch (notification : BroadcastNotification) : NotifyM Unit := do
  match ← notify .lockConfig with
  | .error _ => pure ()
  | .ok cfg => if anyActive cfg then deliver libs cfg notification else pure ()

end BroadcastPool
