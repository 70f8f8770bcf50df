import BroadcastPool.ElectrumServer.Requests
import BroadcastPool.ElectrumServer.VirtualHeaders

/-!
# `BroadcastPool.ElectrumServer.Headers`: a wallet's requests about block headers

A Liana session with an armed virtual block is served a fabricated tip above the real one: as
the answer to `headers.subscribe`, and as a push when the real tip moves. A header of the
fabricated range is answered here, and every other one by the indexer. The background refresh
of the cached tip is left out, since a tip can be cached at any time.
-/

set_option autoImplicit false

namespace BroadcastPool

open Effects

/-- `SessionState`, as far as it matters to block headers. -/
structure HeaderSession where
  sawServerVersion : Bool := false
  walletLabel : Option String := none
  subscribedHeaders : Bool := false
  clientBusy : Bool := false
deriving DecidableEq, Repr

/-- `effective_source`: on the shared port, a wallet that never sent `server.version`, or whose
name is Liana's, counts as Liana. -/
def HeaderSession.effectiveSource (s : HeaderSession) (listenerLabel : String) : String :=
  let looksLiana := s.walletLabel.any fun l => Text.containsText (Text.asciiLower l) "liana"
  if listenerLabel = "sparrow" ∧ (looksLiana ∨ s.sawServerVersion = false) then "liana"
  else listenerLabel

/-- A request to subscribe to the headers is noted in the session. -/
def HeaderSession.noteRequest (s : HeaderSession) (request : JsonRpcRequest) : HeaderSession :=
  if request.method = "blockchain.headers.subscribe" then { s with subscribedHeaders := true }
  else s

theorem HeaderSession.effectiveSource_noteRequest (s : HeaderSession) (request : JsonRpcRequest)
    (listenerLabel : String) :
    (s.noteRequest request).effectiveSource listenerLabel = s.effectiveSource listenerLabel := by
  unfold noteRequest
  split <;> rfl

/-- `virtual_tip_height`. -/
def virtualTipHeight (cfg : Config) (isLiana : Bool) : Option Nat :=
  let vb := cfg.schedule.lianaVirtualBlock
  if isLiana ∧ vb.enabled ∧ 0 < vb.targetHeight then some vb.targetHeight else none

/-- `should_use_instant_headers_cache`. -/
def shouldUseInstantHeadersCache (isLiana : Bool) (cfg : Config) : Bool :=
  (virtualTipHeight cfg isLiana).isNone

/-- `virtual_header_in_range`. -/
def virtualHeaderInRange (height : Nat) (virtualTip : Option Nat) : Bool :=
  match virtualTip with
  | some vtip => height ≤ vtip
  | none => false

/-- The first parameter, if it is a height. -/
def heightFromParams (params : Option Json) : Option Nat :=
  ((params.bind Json.asArray?).bind List.head?).bind Json.asU64?

/-- The height that an armed session is given as its tip. The sum is one of 64-bit numbers. -/
def advertisedHeight (vtip realHeight : Nat) : Nat := max vtip ((realHeight + 1) % 2 ^ 64)

/-- A tip, as the result of `headers.subscribe`. -/
def tipJson (height : Nat) (hex : String) : Json :=
  .obj [("height", .ofInt height), ("hex", .str hex)]

/-- `parse_headers_subscribe_result`. -/
def parseHeadersSubscribeResult (msg : Json) : Option (Nat × String) :=
  match (msg.get? "result").bind fun result => result.get? "height" >>= Json.asU64?,
    (msg.get? "result").bind fun result => result.get? "hex" >>= Json.asStr? with
  | some height, some hex => if height = 0 ∨ hex = "" then none else some (height, hex)
  | _, _ => none

variable (libs : ElectrumLibs) (headers : HeaderLibs) (p : Proc)

/-- `serve_virtual_block_header`. -/
def serveVirtualBlockHeader (request : JsonRpcRequest) (virtualTip : Option Nat) :
    M (Option Json) :=
  if request.method = "blockchain.block.header" then
    match heightFromParams request.params with
    | none => pure none
    | some height =>
      if virtualHeaderInRange height virtualTip then do
        match ← perform (.cachedChainTip p) with
        | none => return none
        | some (realHeight, realHex) =>
          match headerHexAt headers realHeight realHex height with
          | .ok (some hex) => return some (resultResponse request.id (.str hex))
          | _ => return none
      else pure none
  else pure none

/-- The fabricated tip of `handle_headers_subscribe`, if there is a real one to build on. -/
def virtualTipResponse (request : JsonRpcRequest) (virtualTip : Option Nat) : M (Option Json) :=
  match virtualTip with
  | none => pure none
  | some vtip => do
    match ← perform (.cachedChainTip p) with
    | none => return none
    | some (realHeight, realHex) =>
      let upTo := advertisedHeight vtip realHeight
      match headerHexAt headers realHeight realHex upTo with
      | .ok (some hex) => return some (resultResponse request.id (tipJson upTo hex))
      | _ => return none

/-- The cached tip as an answer. -/
def cachedTipResponse (request : JsonRpcRequest) : M (Option Json) := do
  match ← perform (.cachedChainTip p) with
  | some (height, hex) => return some (resultResponse request.id (tipJson height hex))
  | none => return none

/-- The tip that the indexer gives, which is put into the cache. -/
def askTip (request : JsonRpcRequest) (indexerUrl : String) : M (Option Json) :=
  if indexerUrl = "" then pure none
  else do
    match ← perform (.forwardToIndexer (libs.toText request.toJson)) with
    | .error _ => return none
    | .ok answer =>
      match libs.fromStr (Text.trim answer) with
      | none => return none
      | some msg =>
        match parseHeadersSubscribeResult msg with
        | none => return none
        | some (height, hex) =>
          perform (.cacheChainTip p height hex)
          return some msg

/-- The answer when there is no tip. -/
def noTipResponse (id : Json) : Json :=
  .obj [("error", .obj [("code", .ofInt (-32000)),
      ("message", .str "Indexer temporarily unavailable — retry in a few seconds")]),
    ("id", id), ("jsonrpc", .str "2.0")]

/-- `handle_headers_subscribe`. -/
def handleHeadersSubscribe (request : JsonRpcRequest) (indexerUrl : String)
    (virtualTip : Option Nat) : M Json := do
  match ← virtualTipResponse headers p request virtualTip with
  | some response => return response
  | none =>
    match ← cachedTipResponse p request with
    | some response => return response
    | none =>
      match ← askTip libs p request indexerUrl with
      | some response => return response
      | none =>
        match ← cachedTipResponse p request with
        | some response => return response
        | none => return noTipResponse request.id

/-- The branches of `handle_one_subrequest` for the header methods. A subscription is noted
before the configuration is read. -/
def handleHeaderSubrequest (request : JsonRpcRequest) (indexerUrl sourceLabel : String)
    (wallet : HeaderSession) (session : SessionState) : M (Reply × HeaderSession) := do
  let wallet := wallet.noteRequest request
  match ← perform (.lockConfig p) with
  | .error e => return ((.error e, session), wallet)
  | .ok cfg =>
    let vtip := virtualTipHeight cfg (wallet.effectiveSource sourceLabel = "liana")
    if request.method = "blockchain.headers.subscribe" then
      let response ← handleHeadersSubscribe libs headers p request indexerUrl vtip
      return ((.ok response, session), wallet)
    else
      match ← serveVirtualBlockHeader headers p request vtip with
      | some response => return ((.ok response, session), wallet)
      | none =>
        let reply ← forwardOrUnavailable libs p request indexerUrl session
        return (reply, wallet)

/-- The tip that is pushed to a session for a new real tip. -/
def pushedTip (virtualTip : Option Nat) (tip : Nat × String) : Option (Nat × String) :=
  match virtualTip with
  | none => some tip
  | some vtip =>
    let upTo := advertisedHeight vtip tip.1
    match headerHexAt headers tip.1 tip.2 upTo with
    | .ok (some hex) => some (upTo, hex)
    | _ => none

/-- The push of a tip. -/
def tipNotification (height : Nat) (hex : String) : Json :=
  .obj [("jsonrpc", .str "2.0"), ("method", .str "blockchain.headers.subscribe"),
    ("params", .arr [tipJson height hex])]

/-- The virtual tip of a session, which a poisoned configuration lock takes away. -/
def servedTip (sourceLabel : String) (wallet : HeaderSession) : Except String Config → Option Nat
  | .ok cfg => virtualTipHeight cfg (wallet.effectiveSource sourceLabel = "liana")
  | .error _ => none

/-- The branch of `handle_connection` for a new chain tip. -/
def handleChainTip (sourceLabel : String) (wallet : HeaderSession) (tip : Nat × String) :
    M Unit :=
  if wallet.subscribedHeaders ∧ wallet.clientBusy = false then do
    let cfg ← perform (.lockConfig p)
    match pushedTip headers (servedTip sourceLabel wallet cfg) tip with
    | some (height, hex) =>
      let _ ← perform (.writeClient (libs.toText (tipNotification height hex) ++ "\n"))
    | none => pure ()
  else pure ()

end BroadcastPool
