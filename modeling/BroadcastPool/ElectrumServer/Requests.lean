import BroadcastPool.ElectrumServer.Ingest
import BroadcastPool.Pool.WalletView

/-!
# `BroadcastPool.ElectrumServer.Requests`: a wallet's requests about a scripthash

A request of a wallet is answered here or sent on to the indexer. While something is held for
the scripthash, `get_history`, `get_mempool` and `subscribe` are answered from the virtual
mempool alone and the indexer is not asked (`handleScripthashSubrequest`). Any other request
goes to the indexer, and its answer is changed on the way back (`modifyUpstreamResponse`). When
the held set of a scripthash changes, the new status is pushed to the wallet
(`handleScripthashNotification`).

An error of a request is a value here, because the session keeps what was noted in it before
the error.
-/

set_option autoImplicit false

namespace BroadcastPool

open Effects

/-- The libraries of the Electrum server. -/
structure ElectrumLibs where
  /-- `serde_json::from_str`. -/
  fromStr : String → Option Json
  /-- `serde_json::to_string`. The fields of an object are written in their order. -/
  toText : Json → String
  /-- The hex text of the SHA-256 hash of a text. -/
  sha256Hex : String → String

/-- `JsonRpcRequest`. -/
structure JsonRpcRequest where
  jsonrpc : Option String
  method : String
  params : Option Json
  id : Json

/-- The text of an optional field. -/
def Json.ofOption (f : Option Json) : Json := f.getD .null

/-- The request as it is sent on, with its fields in the order of the struct. -/
def JsonRpcRequest.toJson (r : JsonRpcRequest) : Json :=
  .obj [("jsonrpc", Json.ofOption (r.jsonrpc.map .str)), ("method", .str r.method),
    ("params", Json.ofOption r.params), ("id", r.id)]

/-- `SessionState`, as far as it matters to a scripthash. -/
structure SessionState where
  subscribedScripthashes : List String := []
  /-- The method and the scripthash of every request the indexer has not answered yet. -/
  pendingMethods : AList (fun _ : Json => String × String) := ∅
  recentBroadcastTxid : Option String := none

/-- `BROADCAST_METHODS`. -/
def broadcastMethods : List String :=
  ["blockchain.transaction.broadcast", "blockchain.transaction.broadcast_package"]

/-- `is_broadcast_method`. -/
def isBroadcastMethod (method : String) : Bool := broadcastMethods.contains method

/-- The methods whose answers are changed. -/
def trackedMethods : List String :=
  ["blockchain.scripthash.subscribe", "blockchain.scripthash.get_history",
    "blockchain.scripthash.get_balance", "blockchain.scripthash.listunspent",
    "blockchain.scripthash.get_mempool"]

/-- `scripthash_from_params`: the first parameter, if it is a text. -/
def scripthashFromParams (params : Option Json) : Option String :=
  ((params.bind Json.asArray?).bind List.head?).bind Json.asStr?

namespace SessionState

/-- A set with one more element. -/
def insertScripthash (s : SessionState) (scripthash : String) : SessionState :=
  if s.subscribedScripthashes.contains scripthash then s
  else { s with subscribedScripthashes := s.subscribedScripthashes ++ [scripthash] }

/-- `track_request`. -/
def trackRequest (s : SessionState) (request : JsonRpcRequest) : SessionState :=
  let scripthash := (scripthashFromParams request.params).getD ""
  let s := if request.method = "blockchain.scripthash.subscribe" then
      s.insertScripthash scripthash else s
  if trackedMethods.contains request.method then
    { s with pendingMethods :=
        s.pendingMethods.insert request.id (request.method, scripthash) }
  else s

end SessionState

/-! ### Responses -/

/-- A JSON-RPC result. -/
def resultResponse (id result : Json) : Json :=
  .obj [("id", id), ("jsonrpc", .str "2.0"), ("result", result)]

/-- The answer when the indexer gives none. -/
def unavailableResponse (id : Json) : Json :=
  .obj [("error", .obj [("code", .ofInt (-32000)),
      ("message", .str "Indexer temporarily unavailable")]),
    ("id", id), ("jsonrpc", .str "2.0")]

variable (libs : ElectrumLibs) (p : Proc)

/-- `msg["result"] = value`. It panics on a message that is no object. -/
def setResult (msg value : Json) : M Json :=
  match msg with
  | .obj _ => pure (msg.setField "result" value)
  | .null => pure (.obj [("result", value)])
  | _ => .fail (.panic "cannot access key \"result\" in JSON value")

/-- `modify_upstream_response`. -/
def modifyUpstreamResponse (msg : Json) (method scripthash : String) : M Json :=
  if method = "blockchain.scripthash.get_history" then
    match (msg.get? "result").bind Json.asArray? with
    | some history => do
      let pending ← getPendingTxidsForScripthash p scripthash
      return msg.setField "result" (.arr (injectInHistory history pending))
    | none => pure msg
  else if method = "blockchain.scripthash.subscribe" then do
    let pending ← getPendingTxidsForScripthash p scripthash
    match computeModifiedStatusHash libs.sha256Hex [] pending with
    | some hash => setResult msg (.str hash)
    | none => return msg
  else if method = "blockchain.scripthash.get_balance" then
    match msg.get? "result" with
    | some balance => do
      let extra ← getPendingUnconfirmedValue p scripthash
      return msg.setField "result" (injectBalanceUnconfirmed balance extra)
    | none => pure msg
  else if method = "blockchain.scripthash.listunspent" then
    match (msg.get? "result").bind Json.asArray? with
    | some utxos => do
      let pending ← getPendingUtxosForScripthash p scripthash
      return msg.setField "result" (.arr (injectListunspent utxos pending))
    | none => pure msg
  else if method = "blockchain.scripthash.get_mempool" then
    match msg.get? "result" with
    | some result => do
      let pending ← getPendingTxidsForScripthash p scripthash
      return msg.setField "result" (injectGetMempool result pending)
    | none => pure msg
  else pure msg

/-- `modify_upstream_notification`, for the indexer's own notification of a status. -/
def modifyUpstreamNotification (msg : Json) : M Json :=
  if ((msg.get? "method").bind Json.asStr?).getD "" ≠ "blockchain.scripthash.subscribe" then
    pure msg
  else
    match (msg.get? "params").bind Json.asArray? with
    | some (first :: rest) => do
      let scripthash := first.asStr?.getD ""
      if ← hasPendingForScripthash p scripthash then
        let pending ← getPendingTxidsForScripthash p scripthash
        match computeModifiedStatusHash libs.sha256Hex [] pending, rest with
        | some hash, _ :: rest =>
          return msg.setField "params" (.arr (first :: .str hash :: rest))
        | _, _ => return msg
      else return msg
    | _ => pure msg

/-! ### The answer to a request -/

/-- The answer to a request, or its error, and the session after it. -/
abbrev Reply : Type := Except String Json × SessionState

/-- The indexer's answer to a request, changed for the held transactions. -/
def receiveAnswer (answer : String) (id : Json) (session : SessionState) : M Reply :=
  match libs.fromStr (Text.trim answer) with
  | none => pure (.error "invalid JSON", session)
  | some msg =>
    match session.pendingMethods.lookup id with
    | none => pure (.ok msg, session)
    | some (method, scripthash) => do
      let msg ← modifyUpstreamResponse libs p msg method scripthash
      return (.ok msg, { session with pendingMethods := session.pendingMethods.erase id })

/-- `forward_subrequest_sync`. An indexer that does not answer in time, or at all, gives the
same response. -/
def forwardSubrequestSync (request : JsonRpcRequest) (session : SessionState) : M Reply :=
  if isBroadcastMethod request.method then
    pure (.error "broadcast must not be forwarded to upstream electrs", session)
  else do
    let session := session.trackRequest request
    match ← perform (.forwardToIndexer (libs.toText request.toJson)) with
    | .error _ => return (.ok (unavailableResponse request.id), session)
    | .ok answer => receiveAnswer libs p answer request.id session

/-- `build_scripthash_mempool_result`. -/
def buildScripthashMempoolResult (method : String) (pending : List String) : Json :=
  if method = "blockchain.scripthash.get_mempool" then
    injectGetMempool (.arr emptyMempool) pending
  else .arr (pending.map historyEntry)

/-- `track_scripthash_interest`. -/
def trackScripthashInterest (session : SessionState) (scripthash : String) : M SessionState :=
  if scripthash = "" then pure session
  else do
    perform (.watchScripthash p scripthash)
    return session.insertScripthash scripthash

/-- The answer from the virtual mempool alone, while something is held. -/
def fastResponse (request : JsonRpcRequest) (pending : List String) : Option Json :=
  if pending = [] then none
  else if request.method = "blockchain.scripthash.subscribe" then
    (computeModifiedStatusHash libs.sha256Hex [] pending).map fun hash =>
      resultResponse request.id (.str hash)
  else some (resultResponse request.id (buildScripthashMempoolResult request.method pending))

/-- The methods that have an answer from the virtual mempool alone. -/
def fastMethods : List String :=
  ["blockchain.scripthash.get_history", "blockchain.scripthash.get_mempool",
    "blockchain.scripthash.subscribe"]

/-- What is left of `handle_one_subrequest` when nothing answers the request here. -/
def forwardOrUnavailable (request : JsonRpcRequest) (indexerUrl : String)
    (session : SessionState) : M Reply :=
  if indexerUrl = "" then pure (.ok (unavailableResponse request.id), session)
  else forwardSubrequestSync libs p request session

/-- `handle_one_subrequest`, for a request whose method starts with
`blockchain.scripthash.`. The other branches of the source each ask for one other method. -/
def handleScripthashSubrequest (request : JsonRpcRequest) (indexerUrl : String)
    (session : SessionState) : M Reply :=
  if fastMethods.contains request.method then
    match scripthashFromParams request.params with
    | some scripthash => do
      let session ← trackScripthashInterest p session scripthash
      let pending ← getPendingTxidsForScripthash p scripthash
      match fastResponse libs request pending with
      | some response => return (.ok response, session)
      | none => forwardOrUnavailable libs p request indexerUrl session
    | none => forwardOrUnavailable libs p request indexerUrl session
  else forwardOrUnavailable libs p request indexerUrl session

/-! ### The push to a wallet -/

/-- `resolve_live_indexer_url`: both readings go to the one configuration. -/
def resolveLiveIndexerUrl : M String := do
  let url ← indexerUrlOrEmpty p
  if url = "" then indexerUrlOrEmpty p else return url

/-- The request of `fetch_scripthash_history`. -/
def historyRequest (scripthash : String) : Json :=
  .obj [("id", .ofInt 0), ("jsonrpc", .str "2.0"),
    ("method", .str "blockchain.scripthash.get_history"), ("params", .arr [.str scripthash])]

/-- The history in an answer of the indexer, empty if there is none. -/
def historyOfAnswer (answer : String) : List Json :=
  (((libs.fromStr (Text.trim answer)).bind fun msg => msg.get? "result").bind
    Json.asArray?).getD []

/-- `fetch_scripthash_history`. An indexer that does not answer counts as an empty history. -/
def fetchScripthashHistory (indexerUrl scripthash : String) : M (List Json) :=
  if indexerUrl = "" then pure []
  else do
    match ← perform (.forwardToIndexer (libs.toText (historyRequest scripthash))) with
    | .ok answer => return historyOfAnswer libs answer
    | .error _ => return []

/-- The push of a status. -/
def statusNotification (scripthash : String) (status : Option String) : Json :=
  .obj [("jsonrpc", .str "2.0"), ("method", .str "blockchain.scripthash.subscribe"),
    ("params", .arr [.str scripthash, Json.ofOption (status.map .str)])]

/-- The txid of the last broadcast is forgotten once it is held no more. -/
def clearRecentBroadcast (session : SessionState) : M SessionState :=
  match session.recentBroadcastTxid with
  | none => pure session
  | some txid => do
    let held ← hasPendingTx p txid
    return if held then session else { session with recentBroadcastTxid := none }

/-- Push the status of a scripthash. A write that fails is ignored. -/
def pushStatus (scripthash : String) : M Unit := do
  let indexerUrl ← resolveLiveIndexerUrl p
  let pending ← getPendingTxidsForScripthash p scripthash
  let realHistory ← fetchScripthashHistory libs indexerUrl scripthash
  let status := computeModifiedStatusHash libs.sha256Hex realHistory pending
  let _ ← perform (.writeClient (libs.toText (statusNotification scripthash status) ++ "\n"))

/-- The branch of `handle_connection` for a scripthash whose held set has changed. -/
def handleScripthashNotification (session : SessionState) (scripthash : String) :
    M SessionState := do
  let session ← clearRecentBroadcast p session
  if session.subscribedScripthashes.contains scripthash then
    pushStatus libs p scripthash
    return session
  else return session

end BroadcastPool
