import BroadcastPool.ElectrumServer.Session
import BroadcastPool.Lib.Channel

/-!
# `BroadcastPool.ElectrumServer.Connection`: the loop of a wallet's connection

Every turn of `handle_connection` waits for the first of three things: bytes from the wallet, a new
chain tip, a scripthash that has changed. The last two come from channels that every connection
reads at its own pace. An arm of `select!` for a channel takes a message and nothing else: when a
receive says that messages were missed, the arm is closed for the rest of the turn, and the turn
goes on with the others.

`pollChainTip` and `pollScripthash` are one poll of such an arm. `readArm`, `tipArm` and
`notificationArm` are what a turn does with what it got.
-/

set_option autoImplicit false

namespace BroadcastPool

open Effects
open Effects.Channel

/-- How many messages the channel of the scripthashes keeps (`PoolManager::new`). -/
def scripthashCapacity : Nat := 256

/-- How many messages the channel of the chain tips keeps. -/
def chainTipCapacity : Nat := 64

/-- The variables of `handle_connection`, and which of the channels its turn waits for. -/
structure Connection where
  session : ClientSession := {}
  clientBuf : List UInt8 := []
  /-- The position of `scripthash_rx`. -/
  scripthashRx : Nat := 0
  /-- The position of `chain_tip_rx`. -/
  chainTipRx : Nat := 0
  scripthashArm : Bool := true
  chainTipArm : Bool := true

namespace Connection

/-- A connection starts behind everything that was sent before it. -/
def opened (scripthashes : List String) (tips : List (Nat × String)) : Connection where
  scripthashRx := scripthashes.length
  chainTipRx := tips.length

/-- The next turn waits for everything again. -/
def nextTurn (c : Connection) : Connection :=
  { c with scripthashArm := true, chainTipArm := true }

/-- The arm stays open unless messages were missed. -/
def staysOpen {α : Type} : Receipt α → Bool
  | .lagged _ => false
  | .empty | .value _ => true

/-- A poll of `scripthash_rx.recv()`. -/
def pollScripthash (rx : Receiver scripthashCapacity String) (sent : List String)
    (c : Connection) : Receipt String × Connection :=
  if c.scripthashArm then
    let (received, next) := rx.receive sent c.scripthashRx
    (received, { c with scripthashRx := next, scripthashArm := staysOpen received })
  else (.empty, c)

/-- A poll of `chain_tip_rx.recv()`. -/
def pollChainTip (rx : Receiver chainTipCapacity (Nat × String)) (sent : List (Nat × String))
    (c : Connection) : Receipt (Nat × String) × Connection :=
  if c.chainTipArm then
    let (received, next) := rx.receive sent c.chainTipRx
    (received, { c with chainTipRx := next, chainTipArm := staysOpen received })
  else (.empty, c)

variable (settings : SessionSettings) (env : Env) (libs : ElectrumLibs) (headers : HeaderLibs)
variable (p : Proc) (sourceLabel : String)

/-- The arm for bytes of the wallet. -/
def readArm (bytes : List UInt8) (c : Connection) : M Connection := do
  let buf := c.clientBuf ++ bytes
  let (buf, session) ← serveLines settings env libs headers p sourceLabel buf.length buf c.session
  return { c with clientBuf := buf, session }.nextTurn

/-- The arm for a new chain tip. -/
def tipArm (tip : Nat × String) (c : Connection) : M Connection := do
  handleChainTip libs headers p sourceLabel c.session.wallet tip
  return c.nextTurn

/-- The arm for a scripthash that has changed. -/
def notificationArm (scripthash : String) (c : Connection) : M Connection := do
  let scripthashes ← handleScripthashNotification libs p c.session.scripthashes scripthash
  return { c with session := { c.session with scripthashes } }.nextTurn

end Connection

end BroadcastPool
