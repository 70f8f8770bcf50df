import BroadcastPool.ElectrumServer.Headers
import BroadcastPool.Lib.Utf8

/-!
# `BroadcastPool.ElectrumServer.Session`: from a wallet's bytes to its answers

The read side of `handle_connection`. Bytes are collected until a line is complete
(`popClientLine`), and a line is answered by `processClientLine`: a handshake and a cached tip
at once, a broadcast by `interceptAndHandleBroadcast`, any other request by
`handleOneSubrequest`.

A slice of a text panics where a cut falls inside a character. The slices are those of the log
lines, which are only taken when their level is logged (`logSlice`). The build is a release
build, so that a sum of machine numbers wraps.

The other log lines are left out, and so are the background refresh of the cached tip and the
deferred notifications, which nothing queues.
-/

set_option autoImplicit false

namespace BroadcastPool

open Effects

/-! ### Settings and state of a session -/

/-- The levels of the log lines that cut a text. -/
inductive LogLevel
  | error | info | debug
deriving DecidableEq, Repr

/-- What a session reads besides the configuration. -/
structure SessionSettings where
  /-- `EnvFilter`: the levels that are logged. -/
  logs : LogLevel → Bool
  /-- `network.resolved_genesis`. -/
  resolvedGenesis : Option String := none

/-- `SessionState`. -/
structure ClientSession where
  scripthashes : SessionState := {}
  wallet : HeaderSession := {}
  broadcastIntercepted : Bool := false
  rpcLinesHandled : Nat := 0

/-- One more line, in 32 bits. -/
def ClientSession.countLine (s : ClientSession) : ClientSession :=
  { s with rpcLinesHandled := (s.rpcLinesHandled + 1) % 2 ^ 32 }

/-- `&s[..n]` and `&s[n..]`, which panic where `n` is inside a character. -/
def sliceAt (s : String) (n : Nat) : M Unit :=
  if Text.isCharBoundary s.toList n then pure ()
  else .fail (.panic "byte index is not a char boundary")

/-- The offset of `&s[..s.len().min(n)]`. -/
def prefixEnd (s : String) (n : Nat) : Nat := min (Text.byteLength s.toList) n

variable (settings : SessionSettings)

/-- `&s[..s.len().min(n)]` in a log line. -/
def logSlice (level : LogLevel) (s : String) (n : Nat) : M Unit :=
  if settings.logs level then sliceAt s (prefixEnd s n) else pure ()

/-! ### Requests in a line -/

/-- A field that is a text, or absent. -/
def optionalText : Option Json → Option (Option String)
  | none | some .null => some none
  | some (.str s) => some (some s)
  | some _ => none

/-- A field that may be absent. -/
def optionalValue : Option Json → Option Json
  | some .null => none
  | v => v

namespace JsonRpcRequest

/-- A request from its four fields. -/
def ofFields (jsonrpc method params id : Option Json) : Option JsonRpcRequest :=
  match optionalText jsonrpc, method, id with
  | some jsonrpc, some (.str method), some id =>
    some { jsonrpc, method, params := optionalValue params, id }
  | _, _, _ => none

/-- `serde_json::from_value`: the fields of a struct by their names, or in their order. -/
def fromValue : Json → Option JsonRpcRequest
  | .obj fields => ofFields (fields.lookup "jsonrpc") (fields.lookup "method")
      (fields.lookup "params") (fields.lookup "id")
  | .arr [jsonrpc, method, params, id] =>
    ofFields (some jsonrpc) (some method) (some params) (some id)
  | _ => none

end JsonRpcRequest

/-- `line_mentions_tx_rpc`. -/
def lineMentionsTxRpc (line : String) : Bool :=
  Text.containsText (Text.asciiLower line) "broadcast"
    || Text.containsText (Text.asciiLower line) "transaction"

/-- `line_looks_like_broadcast`. -/
def lineLooksLikeBroadcast (line : String) : Bool :=
  broadcastMethods.any fun method => Text.containsText line method

/-- `line_is_batch`. -/
def lineIsBatch (line : String) : Bool := Text.startsWith (Text.trimStart line) "["

/-- The method of a value, if it has one. -/
def methodOf (v : Json) : Option String := (v.get? "method").bind Json.asStr?

/-- `json_rpc_id`. -/
def jsonRpcId (v : Json) : Json := (v.get? "id").getD .null

/-- `params_first_string`. -/
def paramsFirstString : Json → Option String
  | .arr items => items.head?.bind Json.asStr?
  | .str s => some s
  | .obj fields =>
    ["raw_tx", "tx", "transaction", "hex"].findSome? fun key =>
      (fields.lookup key).bind Json.asStr?
  | _ => none

/-- The first text of the first array, which is where a package has its hex. -/
def packageHex (params : Json) : Option String :=
  (((params.asArray?.bind List.head?).bind Json.asArray?).bind List.head?).bind Json.asStr?

/-- `extract_broadcast_from_value`. -/
def extractBroadcastFromValue (v : Json) : Option (Json × String) :=
  match methodOf v, v.get? "params" with
  | some method, some params =>
    if isBroadcastMethod method then
      (if method = "blockchain.transaction.broadcast_package" then packageHex params
       else paramsFirstString params).map (jsonRpcId v, ·)
    else none
  | _, _ => none

variable (env : Env) (libs : ElectrumLibs) (headers : HeaderLibs) (p : Proc)

/-- The value of a line. -/
def lineValue (line : String) : Option Json := libs.fromStr (Text.trim line)

/-- `extract_broadcast_hex`. -/
def extractBroadcastHex (line : String) : Option (Json × String) :=
  match lineValue libs line with
  | none => none
  | some (.arr items) => items.findSome? extractBroadcastFromValue
  | some v => extractBroadcastFromValue v

/-- `line_json_rpc_id`. -/
def lineJsonRpcId (line : String) : Json :=
  match lineValue libs line with
  | none => .null
  | some (.arr items) =>
    match items.find? fun item => (methodOf item).any isBroadcastMethod with
    | some item => jsonRpcId item
    | none => .null
  | some v => jsonRpcId v

/-- `parse_subrequests`, with its errors read as `none`. -/
def parseSubrequests (line : String) : Option (List JsonRpcRequest) :=
  match lineValue libs line with
  | none => none
  | some (.arr items) => items.mapM JsonRpcRequest.fromValue
  | some v => (JsonRpcRequest.fromValue v).map ([·])

/-- The loop body of `capture_wallet_fingerprint`. -/
def noteServerVersion (wallet : HeaderSession) (item : Json) : HeaderSession :=
  if methodOf item = some "server.version" then
    let wallet := { wallet with sawServerVersion := true }
    match scripthashFromParams (item.get? "params") with
    | some name => if name = "" then wallet else { wallet with walletLabel := some name }
    | none => wallet
  else wallet

/-- `capture_wallet_fingerprint`. -/
def captureWalletFingerprint (line : String) (wallet : HeaderSession) : HeaderSession :=
  match lineValue libs line with
  | none => wallet
  | some (.arr items) => items.foldl noteServerVersion wallet
  | some v => noteServerVersion wallet v

/-! ### The next line of the buffer -/

/-- The loop of `pop_client_line` over the bytes from the index `i` on: the start and the end of
every line, where the first one starts at `start`. -/
def lineRanges : List UInt8 → Nat → Nat → List (Nat × Nat)
  | [], _, _ => []
  | b :: bs, i, start =>
    if b = Text.newline then (start, i) :: lineRanges bs (i + 1) (i + 1)
    else lineRanges bs (i + 1) start

/-- `buf[s..e]`. -/
def byteRange (buf : List UInt8) (s e : Nat) : Except Failure (List UInt8) :=
  if s ≤ e ∧ e ≤ buf.length then .ok ((buf.drop s).take (e - s))
  else .error (.panic "range out of bounds of the slice")

/-- `buf.drain(s..=e)`: what is left. -/
def drainRange (buf : List UInt8) (s e : Nat) : Except Failure (List UInt8) :=
  if s ≤ e + 1 ∧ e + 1 ≤ buf.length then .ok (buf.take s ++ buf.drop (e + 1))
  else .error (.panic "range out of bounds of the vector")

/-- The line is served before the other ones. -/
def isBroadcastLine (line : String) : Bool :=
  (extractBroadcastHex libs line).isSome || lineLooksLikeBroadcast line

/-- The index of the first range with a broadcast. -/
def positionOfBroadcast (buf : List UInt8) : List (Nat × Nat) → Except Failure (Option Nat)
  | [] => .ok none
  | (s, e) :: ranges => do
    let bytes ← byteRange buf s e
    if isBroadcastLine libs (Text.decodeLossy bytes) then return some 0
    else
      let found ← positionOfBroadcast buf ranges
      return found.map (· + 1)

/-- The text of the bytes of a line. -/
def lineText (bytes : List UInt8) : String :=
  Text.trimEndMatches (Text.decodeLossy bytes) '\r'

/-- The end of `pop_client_line`, for the range that was picked: its line and the buffer without
it. -/
def takeRange (buf : List UInt8) :
    Option (Nat × Nat) → Except Failure (Option (List UInt8 × String) × List UInt8)
  | none => .error (.panic "index out of bounds")
  | some (s, e) => do
    let bytes ← byteRange buf s e
    let rest ← drainRange buf s e
    return (some (bytes, lineText bytes), rest)

/-- `pop_client_line`: the next line and the buffer without it. -/
def popClientLine (buf : List UInt8) :
    Except Failure (Option (List UInt8 × String) × List UInt8) :=
  if lineRanges buf 0 0 = [] then .ok (none, buf)
  else do
    let found ← positionOfBroadcast libs buf (lineRanges buf 0 0)
    takeRange buf (lineRanges buf 0 0)[found.getD 0]?

/-! ### Answers without the indexer -/

/-- A JSON-RPC error. -/
def errorResponse (id : Json) (code : Int) (message : String) : Json :=
  .obj [("error", .obj [("code", .ofInt code), ("message", .str message)]),
    ("id", id), ("jsonrpc", .str "2.0")]

/-- `CARGO_PKG_VERSION`. -/
def packageVersion : String := "0.3.25"

/-- `genesis_hash`, by the name of the network. -/
def genesisHash (network : String) : String :=
  if network = "mainnet" then
    "000000000019d6689c085ae165831e934ff763ae46a2a6c172b3f1b60a8ce26f"
  else if network = "testnet4" then
    "00000000da84f2bafbbc53dee25a72ae507ff4914b867c565be350b0da8bf043"
  else "00000008819873e925422c1ff0f99f7cc9bbb232af63a077a480a3633bee1ef6"

/-- The genesis hash of `server.features`. -/
def servedGenesis : Except String Config → String
  | .ok config => settings.resolvedGenesis.getD (genesisHash config.network)
  | .error _ => String.ofList (List.replicate 64 '0')

/-- The result of `server.features`. -/
def serverFeatures (genesis : String) : Json :=
  .obj [("broadcast_pool", .bool true), ("genesis_hash", .str genesis),
    ("hash_function", .str "sha256"), ("protocol_max", .str "1.4"),
    ("protocol_min", .str "1.0"), ("protocol_version", .str "1.4"),
    ("server_version", .str ("broadcast-pool " ++ packageVersion)),
    ("sparrow_tor_warning",
      .str "Disable Sparrow Settings→Network proxy/Tor or broadcasts bypass this pool")]

/-- `local_electrum_response`. -/
def localElectrumResponse (request : JsonRpcRequest) : M (Option Json) :=
  if request.method = "server.version" then
    pure (some (resultResponse request.id
      (.arr [.str "broadcast-pool Electrum", .str "1.4"])))
  else if request.method = "server.banner" then
    pure (some (resultResponse request.id (.str ("broadcast-pool " ++ packageVersion ++
      " - disable Sparrow Tor proxy so broadcasts reach this pool"))))
  else if request.method = "server.ping" then
    pure (some (resultResponse request.id (.bool true)))
  else if request.method = "server.features" then do
    let config ← perform (.lockConfig p)
    return some (resultResponse request.id (serverFeatures (servedGenesis settings config)))
  else pure none

/-- `LOCAL_ELECTRUM_METHODS`. -/
def localElectrumMethods : List String :=
  ["server.version", "server.banner", "server.ping", "server.features"]

/-- `is_local_handshake_method`. -/
def isLocalHandshakeMethod (method : String) : Bool := localElectrumMethods.contains method

/-- The number 0.00001. -/
def lowFee : Json := .num (.float 0x3EE4F8B588E368F1)

/-- `local_fast_response`. -/
def localFastResponse (request : JsonRpcRequest) : Option Json :=
  if request.method = "blockchain.estimatefee" ∨ request.method = "blockchain.relayfee" then
    some (resultResponse request.id lowFee)
  else if request.method = "mempool.get_fee_histogram" then
    some (resultResponse request.id (.arr []))
  else if request.method = "blockchain.block.stats" then
    some (resultResponse request.id (.obj
      [("height", .ofInt ((heightFromParams request.params).getD 0)), ("median_fee", lowFee),
        ("time", .ofInt 0)]))
  else none

/-! ### One request -/

/-- A branch that only works on the scripthashes of a session. -/
def onScripthashes (session : ClientSession) (branch : SessionState → M Reply) :
    M (Except String Json × ClientSession) := do
  let (reply, scripthashes) ← branch session.scripthashes
  return (reply, { session with scripthashes })

/-- The branches of `handle_one_subrequest` for the scripthash methods that are answered from
the virtual mempool. They are those of `handleScripthashSubrequest` with their log line. -/
def handleFastSubrequest (request : JsonRpcRequest) (indexerUrl : String)
    (session : SessionState) : M Reply :=
  match scripthashFromParams request.params with
  | some scripthash => do
    let session ← trackScripthashInterest p session scripthash
    let pending ← getPendingTxidsForScripthash p scripthash
    match fastResponse libs request pending with
    | some response =>
      logSlice settings .info scripthash 16
      return (.ok response, session)
    | none => forwardOrUnavailable libs p request indexerUrl session
  | none => forwardOrUnavailable libs p request indexerUrl session

/-- The txid of a `transaction.get` that does not ask for more than the hex. -/
def plainTxid (params : Option Json) : Option String :=
  match params.bind Json.asArray? with
  | some (first :: rest) =>
    if (rest.head?.bind Json.asBool?).getD false then none else first.asStr?
  | _ => none

/-- The branch for `blockchain.transaction.get`. -/
def handleTransactionGet (request : JsonRpcRequest) (indexerUrl : String)
    (session : SessionState) : M Reply :=
  match plainTxid request.params with
  | some txid => do
    match ← lookupTxHex p txid with
    | some hex => return (.ok (resultResponse request.id (.str hex)), session)
    | none => forwardOrUnavailable libs p request indexerUrl session
  | none => forwardOrUnavailable libs p request indexerUrl session

/-- The header methods. -/
def headerMethods : List String :=
  ["blockchain.block.header", "blockchain.block.headers", "blockchain.headers.subscribe"]

/-- `handle_one_subrequest`. -/
def handleOneSubrequest (request : JsonRpcRequest) (indexerUrl sourceLabel : String)
    (session : ClientSession) : M (Except String Json × ClientSession) :=
  if isLocalHandshakeMethod request.method then do
    match ← localElectrumResponse settings p request with
    | some response => return (.ok response, session)
    | none => return (.error ("no local response for " ++ request.method), session)
  else
    match localFastResponse request with
    | some response => pure (.ok response, session)
    | none =>
      if isBroadcastMethod request.method then
        pure (.ok (errorResponse request.id (-32603)
          (request.method ++ " must use intercept path")), session)
      else if fastMethods.contains request.method then
        onScripthashes session (handleFastSubrequest settings libs p request indexerUrl)
      else if request.method = "blockchain.transaction.get" then
        onScripthashes session (handleTransactionGet libs p request indexerUrl)
      else if headerMethods.contains request.method then do
        let ((reply, scripthashes), wallet) ← handleHeaderSubrequest libs headers p request
          indexerUrl sourceLabel session.wallet session.scripthashes
        return (reply, { session with scripthashes, wallet })
      else onScripthashes session (forwardOrUnavailable libs p request indexerUrl)

/-! ### A broadcast -/

/-- `quick_broadcast_preview`. -/
def quickBroadcastPreview (txHex : String) : Except String String :=
  match Text.hexDecode (Text.trim txHex) with
  | none => .error "Invalid transaction hex"
  | some _ => computeTxid env (Text.trim txHex)

/-- The preview, which is given up after three seconds. -/
def previewWithin (txHex : String) (elapsed : Nat) : Except String String :=
  if elapsed < 3000000000 then quickBroadcastPreview env txHex
  else .error "Invalid transaction hex"

/-- A line to the wallet. -/
def writeLine (response : Json) : M (Except String Unit) :=
  perform (.writeClient (libs.toText response ++ "\n"))

/-- `intercept_and_handle_broadcast`. A write that fails ends it, which is only logged. -/
def interceptAndHandleBroadcast (id : Json) (txHex sourceLabel : String)
    (session : ClientSession) : M ClientSession := do
  let session := { session with broadcastIntercepted := true }
  let start ← perform .instant
  let finished ← perform .instant
  match previewWithin env txHex (finished - start) with
  | .error e =>
    let _ ← writeLine libs (errorResponse id (-25) e)
    return session
  | .ok txid =>
    storePendingOutputs env p txid txHex
    let session := { session with
      scripthashes := { session.scripthashes with recentBroadcastTxid := some txid } }
    match ← writeLine libs (resultResponse id (.str txid)) with
    | .error _ => return session
    | .ok () =>
      perform (.spawnIngest txHex (session.wallet.effectiveSource sourceLabel))
      return session

/-- `handle_broadcast` from its start: the log lines about both ends of the hex come first. -/
def handleBroadcastLogged (txHex sourceLabel : String) : M String := do
  let txHexClean := Text.trim txHex
  logSlice settings .debug txHexClean 10
  if settings.logs .debug then
    sliceAt txHexClean (Text.byteLength txHexClean.toList - 10)
    handleBroadcast env p txHex sourceLabel
  else handleBroadcast env p txHex sourceLabel

/-! ### One line -/

/-- `write_client_responses`. -/
def writeClientResponses (responses : List Json) (batch : Bool) : M Unit :=
  if batch then orRaise (writeLine libs (.arr responses))
  else
    match responses with
    | [] => .fail (.panic "index out of bounds: the len is 0 but the index is 0")
    | response :: _ => orRaise (writeLine libs response)

/-- The loop of the handshake: the answers, if all requests have one. -/
def localResponses : List JsonRpcRequest → M (Option (List Json))
  | [] => pure (some [])
  | request :: requests => do
    match ← localElectrumResponse settings p request with
    | none => return none
    | some response =>
      let rest ← localResponses requests
      return rest.map (response :: ·)

/-- The requests of a line that asks for nothing but the handshake. -/
def handshakeRequests (line : String) : Option (List JsonRpcRequest) :=
  match parseSubrequests libs line with
  | some requests =>
    if requests ≠ [] ∧ requests.all (isLocalHandshakeMethod ·.method) then some requests
    else none
  | none => none

/-- The write of the answers to a handshake, and whether there were any. -/
def finishHandshake (line : String) : Option (List Json) → M Bool
  | none => pure false
  | some responses => do
    writeClientResponses libs responses (lineIsBatch line)
    return true

/-- The answer to a handshake, and whether there was one. -/
def answerHandshake (line : String) : M Bool :=
  match handshakeRequests libs line with
  | none => pure false
  | some requests => do
    let responses ← localResponses settings p requests
    finishHandshake libs line responses

/-- The request of a line that only subscribes to the headers. -/
def headersRequest (line : String) : Option JsonRpcRequest :=
  match parseSubrequests libs line with
  | some [request] =>
    if request.method = "blockchain.headers.subscribe" then some request else none
  | _ => none

/-- The answer from the cached tip, and whether there was one. -/
def answerFromCache (line sourceLabel : String) (session : ClientSession) :
    M (Bool × ClientSession) :=
  match headersRequest libs line with
  | none => pure (false, session)
  | some request => do
    let session := { session with wallet := { session.wallet with subscribedHeaders := true } }
    let config ← orRaise (perform (.lockConfig p))
    if shouldUseInstantHeadersCache
        (session.wallet.effectiveSource sourceLabel = "liana") config then
      match ← cachedTipResponse p request with
      | some response =>
        orRaise (writeLine libs response)
        return (true, session)
      | none => return (false, session)
    else return (false, session)

/-- `log_incoming_client_line`. -/
def logIncomingClientLine (line : String) : M Unit :=
  if lineMentionsTxRpc line then logSlice settings .info line 200 else pure ()

/-- The answer to a line that names a broadcast method and has no hex. -/
def refuseBroadcast (line : String) : M Unit := do
  logSlice settings .error line 240
  orRaise (writeLine libs (errorResponse (lineJsonRpcId libs line) (-32602)
    "Invalid broadcast params"))

/-- The log line about a line that does not parse. -/
def logUnparsed (line : String) : M Unit :=
  if lineMentionsTxRpc line then logSlice settings .error line 200 else pure ()

/-- The answer to a line that is not JSON, or not a request. -/
def refuseUnparsed (line : String) : M Unit := do
  logUnparsed settings line
  orRaise (writeLine libs (errorResponse (lineJsonRpcId libs line) (-32700) "Parse error"))

/-- The loop of `process_client_line` over the requests of a line. -/
def answerAll (indexerUrl sourceLabel : String) :
    List JsonRpcRequest → ClientSession → M (List Json × ClientSession)
  | [], session => pure ([], session)
  | request :: requests, session => do
    let (reply, session) ← handleOneSubrequest settings libs headers p request indexerUrl
      sourceLabel session
    let response := match reply with
      | .ok response => response
      | .error e => errorResponse request.id (-32603) e
    let (responses, session) ← answerAll indexerUrl sourceLabel requests session
    return (response :: responses, session)

/-- What is left of `process_client_line` for a line that parses. -/
def answerRequests (line indexerUrl sourceLabel : String) (requests : List JsonRpcRequest)
    (session : ClientSession) : M ClientSession :=
  match requests.find? (isBroadcastMethod ·.method) with
  | some request =>
    match request.params.bind paramsFirstString with
    | some txHex => interceptAndHandleBroadcast env libs p request.id txHex sourceLabel session
    | none => do
      orRaise (writeLine libs (errorResponse request.id (-32602) "Invalid broadcast params"))
      return session
  | none => do
    let session := { session with wallet := { session.wallet with clientBusy := true } }
    let (responses, session) ← answerAll settings libs headers p indexerUrl sourceLabel requests
      session
    writeClientResponses libs responses (lineIsBatch line)
    return { session with wallet := { session.wallet with clientBusy := false } }

/-- The branches of `process_client_line` for a line that got no early answer. -/
def routeLine (line indexerUrl sourceLabel : String) (session : ClientSession) :
    M ClientSession :=
  match extractBroadcastHex libs line with
  | some (id, txHex) => interceptAndHandleBroadcast env libs p id txHex sourceLabel session
  | none =>
    if lineLooksLikeBroadcast line then do
      refuseBroadcast settings libs line
      return session
    else
      match parseSubrequests libs line with
      | none => do
        refuseUnparsed settings libs line
        return session
      | some requests =>
        answerRequests settings env libs headers p line indexerUrl sourceLabel requests session

/-- `process_client_line` after its early answers. -/
def answerLine (line indexerUrl sourceLabel : String) (session : ClientSession) :
    M ClientSession := do
  logIncomingClientLine settings line
  routeLine settings env libs headers p line indexerUrl sourceLabel session

/-- `process_client_line`. -/
def processClientLine (line indexerUrl sourceLabel : String) (session : ClientSession) :
    M ClientSession :=
  if Text.trim line = "" then pure session
  else do
    let session := session.countLine
    let session := { session with wallet := captureWalletFingerprint libs line session.wallet }
    if ← answerHandshake settings libs p line then return session
    else
      let (answered, session) ← answerFromCache libs p line sourceLabel session
      if answered then return session
      else answerLine settings env libs headers p line indexerUrl sourceLabel session

/-! ### The bytes of a connection -/

/-- The loop of `handle_connection` over the complete lines of the buffer. Every round takes a
line out of it, so that there are fewer rounds than bytes. -/
def serveLines (sourceLabel : String) :
    Nat → List UInt8 → ClientSession → M (List UInt8 × ClientSession)
  | 0, buf, session => pure (buf, session)
  | rounds + 1, buf, session =>
    match popClientLine libs buf with
    | .error e => .fail e
    | .ok (none, buf) => pure (buf, session)
    | .ok (some (_, line), buf) => do
      let indexerUrl ← resolveLiveIndexerUrl p
      let session ← processClientLine settings env libs headers p line indexerUrl sourceLabel
        session
      serveLines sourceLabel rounds buf session

/-- The read arm of `handle_connection`, over the reads of a connection. An empty read is its
end. -/
def serveReads (sourceLabel : String) :
    List (List UInt8) → List UInt8 → ClientSession → M (List UInt8 × ClientSession)
  | [], buf, session => pure (buf, session)
  | read :: reads, buf, session =>
    if read = [] then pure (buf, session)
    else do
      let (buf, session) ← serveLines settings env libs headers p sourceLabel
        (buf ++ read).length (buf ++ read) session
      serveReads sourceLabel reads buf session

end BroadcastPool
