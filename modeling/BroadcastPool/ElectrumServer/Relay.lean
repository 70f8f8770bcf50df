import BroadcastPool.ElectrumServer.Session

/-!
# `BroadcastPool.ElectrumServer.Relay`: the subscription relay

`run_indexer_subscription_relay` keeps one connection to the indexer and subscribes on it to every
scripthash that a wallet cares about. What the indexer then announces goes to the notification
channel of the sessions. The two loops of the source are one step function here: `RelayState` says
in which of them the task waits and with which variables, a `RelayEvent` is what ends the wait, and
`RelayState.next` is what the task does about it.

Both sleeps and the log lines are left out, apart from the length of the next sleep after a failed
connection.
-/

set_option autoImplicit false

namespace BroadcastPool

/-- The variables of the inner loop, which live with a connection. -/
structure RelayConnection where
  subscribed : List String := []
  nextId : Nat := 1000000
deriving DecidableEq, Repr

/-- Where the task waits. -/
inductive RelayState
  /-- For a connection. After a failure it sleeps for so many seconds. -/
  | connecting (backoff : Nat)
  /-- For a tick or a line. -/
  | connected (c : RelayConnection)
deriving DecidableEq, Repr

/-- The request that the relay sends for a scripthash. -/
structure SubscribeRequest where
  scripthash : String
  id : Nat
deriving DecidableEq, Repr

/-- The request as it is sent. -/
def SubscribeRequest.toJson (r : SubscribeRequest) : Json :=
  .obj [("id", .ofInt r.id), ("jsonrpc", .str "2.0"),
    ("method", .str "blockchain.scripthash.subscribe"), ("params", .arr [.str r.scripthash])]

/-- What ends a wait of the relay. -/
inductive RelayEvent
  | noIndexer
  | connectFailed
  | connectionMade
  /-- A tick, with the scripthashes that are watched, the write that fails, if one does, and
  whether the flush fails. -/
  | tick (wanted : List String) (failedWrite : Option Nat) (flushFails : Bool)
  | line (text : String)
  /-- The end of the stream, or a read error. -/
  | closed

/-- What the relay does. -/
inductive RelayOutput
  | sent (request : SubscribeRequest)
  | announced (scripthash : String)
deriving DecidableEq, Repr

/-- `scripthash_from_notification`. -/
def scripthashFromNotification (fromStr : String → Option Json) (line : String) :
    Option String := do
  let msg ← fromStr (Text.trim line)
  let method ← (msg.get? "method").bind Json.asStr?
  if method ≠ "blockchain.scripthash.subscribe" then none
  else
    let scripthash ←
      (((msg.get? "params").bind Json.asArray?).bind List.head?).bind Json.asStr?
    if scripthash = "" then none else some scripthash

/-- The longest sleep between two connections, in seconds. -/
def maxBackoff : Nat := 60

/-- The first one. -/
def firstBackoff : Nat := 2

namespace RelayConnection

/-- The loop of a tick over the watched scripthashes, where `k` writes were made before: the
requests, and the connection unless a write failed. -/
def subscribeMissing (failedWrite : Option Nat) :
    Nat → List String → RelayConnection → List SubscribeRequest × Option RelayConnection
  | _, [], c => ([], some c)
  | k, scripthash :: wanted, c =>
    if c.subscribed.contains scripthash then subscribeMissing failedWrite k wanted c
    else if failedWrite = some k then ([], none)
    else
      let (requests, after) := subscribeMissing failedWrite (k + 1) wanted
        { subscribed := c.subscribed ++ [scripthash], nextId := c.nextId + 1 }
      ({ scripthash, id := c.nextId } :: requests, after)

end RelayConnection

namespace RelayState

/-- The state at the start of the task. -/
def initial : RelayState := .connecting firstBackoff

/-- What the relay does about an event, if it waits for it. -/
def next (fromStr : String → Option Json) :
    RelayState → RelayEvent → Option (RelayState × List RelayOutput)
  | .connecting backoff, .noIndexer => some (.connecting backoff, [])
  | .connecting backoff, .connectFailed => some (.connecting (min (backoff * 2) maxBackoff), [])
  | .connecting _, .connectionMade => some (.connected {}, [])
  | .connected c, .tick wanted failedWrite flushFails =>
    let (requests, after) := c.subscribeMissing failedWrite 0 wanted
    match after with
    | some c =>
      if flushFails then some (.connecting firstBackoff, requests.map .sent)
      else some (.connected c, requests.map .sent)
    | none => some (.connecting firstBackoff, requests.map .sent)
  | .connected c, .line text =>
    some (.connected c, ((scripthashFromNotification fromStr text).map .announced).toList)
  | .connected _, .closed => some (.connecting firstBackoff, [])
  | _, _ => none

end RelayState

end BroadcastPool
