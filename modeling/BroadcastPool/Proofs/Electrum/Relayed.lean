import BroadcastPool.ElectrumServer.Session
import BroadcastPool.Proofs.Rules
import BroadcastPool.Sample

/-!
# `BroadcastPool.Proofs.Electrum.Relayed`: what reaches the indexer

A line of a wallet is read several times: as raw text, as a loose JSON value, and as a list of
requests. Whatever these readings say, the line itself is never sent on. The indexer only gets
the text of a parsed request, written anew, and only if the request's method is no broadcast
method. `Relays` lists what the answer to a line consists of, and `relays_processClientLine` says
that there is nothing else. So no server that reads the text of an object as that object sees a
broadcast (`broadcast_never_relayed`).
-/

set_option autoImplicit false

namespace BroadcastPool

open Effects

/-- What the answer to a line consists of. -/
inductive Relays (libs : ElectrumLibs) : Act → Prop
  | memory {a : Act} (h : a.isMemory = true) : Relays libs a
  | write (text : String) : Relays libs (.writeClient text)
  | ingest (txHex source : String) : Relays libs (.spawnIngest txHex source)
  | forward (request : JsonRpcRequest) (h : isBroadcastMethod request.method = false) :
      Relays libs (.forwardToIndexer (libs.toText request.toJson))

section
variable {settings : SessionSettings} {env : Env} {libs : ElectrumLibs} {headers : HeaderLibs}
variable {p : Proc} {α : Type}

/-- A program whose actions are those of an answer. -/
abbrev IsRelay (libs : ElectrumLibs) (prog : M α) : Prop := prog.Uses (Relays libs)

theorem IsMemory.relay {prog : M α} (h : IsMemory prog) : IsRelay libs prog :=
  Prog.Uses.mono (fun _ => Relays.memory) h

theorem relay_act {a : Act} (h : a.isMemory = true) : IsRelay libs (perform a) :=
  uses_act (.memory h)

theorem relay_writeLine (response : Json) : IsRelay libs (writeLine libs response) :=
  uses_act (.write _)

theorem relay_sliceAt (s : String) (n : Nat) : IsRelay libs (sliceAt s n) := by
  unfold sliceAt
  split
  · exact Prog.uses_ret _
  · exact Prog.uses_fail _

theorem relay_logSlice (level : LogLevel) (s : String) (n : Nat) :
    IsRelay libs (logSlice settings level s n) := by
  unfold logSlice
  split
  · exact relay_sliceAt s _
  · exact Prog.uses_ret _

/-! ### One request -/

theorem relay_getPendingTxids (scripthash : String) :
    IsRelay libs (getPendingTxidsForScripthash p scripthash) :=
  Prog.uses_bind (relay_act rfl) fun _ => Prog.uses_ret _

theorem relay_modifyUpstreamResponse (msg : Json) (method scripthash : String) :
    IsRelay libs (modifyUpstreamResponse libs p msg method scripthash) := by
  have hset : ∀ value, IsRelay libs (setResult msg value) := by
    intro value
    cases msg with
    | obj | null => exact Prog.uses_ret _
    | _ => exact Prog.uses_fail _
  unfold modifyUpstreamResponse
  split
  · split
    · exact Prog.uses_bind (relay_getPendingTxids _) fun _ => Prog.uses_ret _
    · exact Prog.uses_ret _
  split
  · refine Prog.uses_bind (relay_getPendingTxids _) fun pending => ?_
    split
    · exact hset _
    · exact Prog.uses_ret _
  split
  · split
    · exact Prog.uses_bind (Prog.uses_bind (relay_act rfl) fun _ => Prog.uses_ret _)
        fun _ => Prog.uses_ret _
    · exact Prog.uses_ret _
  split
  · split
    · exact Prog.uses_bind (Prog.uses_bind (relay_act rfl) fun _ => Prog.uses_ret _)
        fun _ => Prog.uses_ret _
    · exact Prog.uses_ret _
  split
  · split
    · exact Prog.uses_bind (relay_getPendingTxids _) fun _ => Prog.uses_ret _
    · exact Prog.uses_ret _
  · exact Prog.uses_ret _

theorem relay_receiveAnswer (answer : String) (id : Json) (session : SessionState) :
    IsRelay libs (receiveAnswer libs p answer id session) := by
  unfold receiveAnswer
  split
  · exact Prog.uses_ret _
  · split
    · exact Prog.uses_ret _
    · exact Prog.uses_bind (relay_modifyUpstreamResponse _ _ _) fun _ => Prog.uses_ret _

/-- A request is sent on only if it is no broadcast. -/
theorem relay_forwardSubrequestSync (request : JsonRpcRequest) (session : SessionState) :
    IsRelay libs (forwardSubrequestSync libs p request session) := by
  unfold forwardSubrequestSync
  split
  · exact Prog.uses_ret _
  · rename_i hmethod
    have hforward : Relays libs (.forwardToIndexer (libs.toText request.toJson)) :=
      .forward request (by simpa using hmethod)
    refine Prog.uses_bind (uses_act hforward) fun answer => ?_
    cases answer with
    | error e => exact Prog.uses_ret _
    | ok text => exact relay_receiveAnswer _ _ _

theorem relay_forwardOrUnavailable (request : JsonRpcRequest) (indexerUrl : String)
    (session : SessionState) :
    IsRelay libs (forwardOrUnavailable libs p request indexerUrl session) := by
  unfold forwardOrUnavailable
  split
  · exact Prog.uses_ret _
  · exact relay_forwardSubrequestSync request session

theorem relay_trackScripthashInterest (session : SessionState) (scripthash : String) :
    IsRelay libs (trackScripthashInterest p session scripthash) := by
  unfold trackScripthashInterest
  split
  · exact Prog.uses_ret _
  · exact Prog.uses_bind (relay_act rfl) fun _ => Prog.uses_ret _

theorem relay_handleFastSubrequest (request : JsonRpcRequest) (indexerUrl : String)
    (session : SessionState) :
    IsRelay libs (handleFastSubrequest settings libs p request indexerUrl session) := by
  unfold handleFastSubrequest
  split
  · refine Prog.uses_bind (relay_trackScripthashInterest session _) fun session => ?_
    refine Prog.uses_bind (relay_getPendingTxids _) fun pending => ?_
    split
    · exact Prog.uses_bind (relay_logSlice _ _ _) fun _ => Prog.uses_ret _
    · exact relay_forwardOrUnavailable request indexerUrl session
  · exact relay_forwardOrUnavailable request indexerUrl session

theorem relay_handleTransactionGet (request : JsonRpcRequest) (indexerUrl : String)
    (session : SessionState) :
    IsRelay libs (handleTransactionGet libs p request indexerUrl session) := by
  unfold handleTransactionGet
  split
  · refine Prog.uses_bind (lookup_lookupTxHex p _).memory.relay fun hex => ?_
    cases hex with
    | some hex => exact Prog.uses_ret _
    | none => exact relay_forwardOrUnavailable request indexerUrl session
  · exact relay_forwardOrUnavailable request indexerUrl session

theorem relay_cachedTipResponse (request : JsonRpcRequest) :
    IsRelay libs (cachedTipResponse p request) :=
  Prog.uses_bind (relay_act rfl) fun tip => by
    rcases tip with _ | ⟨height, hex⟩ <;> exact Prog.uses_ret _

theorem relay_virtualTipResponse (request : JsonRpcRequest) (virtualTip : Option Nat) :
    IsRelay libs (virtualTipResponse headers p request virtualTip) := by
  unfold virtualTipResponse
  split
  · exact Prog.uses_ret _
  · refine Prog.uses_bind (relay_act rfl) fun tip => ?_
    rcases tip with _ | ⟨height, hex⟩
    · exact Prog.uses_ret _
    · dsimp only
      split <;> exact Prog.uses_ret _

/-- The tip is asked for by a request of its own method. -/
theorem relay_askTip {request : JsonRpcRequest} (h : isBroadcastMethod request.method = false)
    (indexerUrl : String) : IsRelay libs (askTip libs p request indexerUrl) := by
  unfold askTip
  split
  · exact Prog.uses_ret _
  · refine Prog.uses_bind (uses_act (.forward request h)) fun answer => ?_
    cases answer with
    | error e => exact Prog.uses_ret _
    | ok text =>
      dsimp only
      split
      · exact Prog.uses_ret _
      · split
        · exact Prog.uses_ret _
        · exact Prog.uses_bind (relay_act rfl) fun _ => Prog.uses_ret _

theorem relay_handleHeadersSubscribe {request : JsonRpcRequest}
    (h : isBroadcastMethod request.method = false) (indexerUrl : String)
    (virtualTip : Option Nat) :
    IsRelay libs (handleHeadersSubscribe libs headers p request indexerUrl virtualTip) := by
  refine Prog.uses_bind (relay_virtualTipResponse request virtualTip) fun virtual => ?_
  cases virtual with
  | some response => exact Prog.uses_ret _
  | none =>
    refine Prog.uses_bind (relay_cachedTipResponse request) fun cached => ?_
    cases cached with
    | some response => exact Prog.uses_ret _
    | none =>
      refine Prog.uses_bind (relay_askTip h indexerUrl) fun asked => ?_
      cases asked with
      | some response => exact Prog.uses_ret _
      | none =>
        refine Prog.uses_bind (relay_cachedTipResponse request) fun again => ?_
        cases again <;> exact Prog.uses_ret _

theorem relay_serveVirtualBlockHeader (request : JsonRpcRequest) (virtualTip : Option Nat) :
    IsRelay libs (serveVirtualBlockHeader headers p request virtualTip) := by
  unfold serveVirtualBlockHeader
  split
  · split
    · exact Prog.uses_ret _
    · split
      · refine Prog.uses_bind (relay_act rfl) fun tip => ?_
        rcases tip with _ | ⟨height, hex⟩
        · exact Prog.uses_ret _
        · dsimp only
          split <;> exact Prog.uses_ret _
      · exact Prog.uses_ret _
  · exact Prog.uses_ret _

theorem relay_handleHeaderSubrequest {request : JsonRpcRequest}
    (h : isBroadcastMethod request.method = false) (indexerUrl sourceLabel : String)
    (wallet : HeaderSession) (session : SessionState) :
    IsRelay libs (handleHeaderSubrequest libs headers p request indexerUrl sourceLabel wallet
      session) := by
  refine Prog.uses_bind (relay_act rfl) fun cfg => ?_
  cases cfg with
  | error e => exact Prog.uses_ret _
  | ok cfg =>
    dsimp only
    split
    · exact Prog.uses_bind (relay_handleHeadersSubscribe h _ _) fun _ => Prog.uses_ret _
    · refine Prog.uses_bind (relay_serveVirtualBlockHeader _ _) fun served => ?_
      cases served with
      | some response => exact Prog.uses_ret _
      | none =>
        exact Prog.uses_bind (relay_forwardOrUnavailable _ _ _) fun _ => Prog.uses_ret _

theorem relay_localElectrumResponse (request : JsonRpcRequest) :
    IsRelay libs (localElectrumResponse settings p request) := by
  unfold localElectrumResponse
  split
  · exact Prog.uses_ret _
  split
  · exact Prog.uses_ret _
  split
  · exact Prog.uses_ret _
  split
  · exact Prog.uses_bind (relay_act rfl) fun _ => Prog.uses_ret _
  · exact Prog.uses_ret _

theorem relay_onScripthashes (session : ClientSession) {branch : SessionState → M Reply}
    (h : IsRelay libs (branch session.scripthashes)) :
    IsRelay libs (onScripthashes session branch) :=
  Prog.uses_bind h fun _ => Prog.uses_ret _

theorem relay_handleOneSubrequest (request : JsonRpcRequest) (indexerUrl sourceLabel : String)
    (session : ClientSession) :
    IsRelay libs (handleOneSubrequest settings libs headers p request indexerUrl sourceLabel
      session) := by
  unfold handleOneSubrequest
  split
  · refine Prog.uses_bind (relay_localElectrumResponse request) fun response => ?_
    cases response <;> exact Prog.uses_ret _
  split
  · exact Prog.uses_ret _
  split
  · exact Prog.uses_ret _
  rename_i hmethod
  split
  · exact relay_onScripthashes session (relay_handleFastSubrequest _ _ _)
  split
  · exact relay_onScripthashes session (relay_handleTransactionGet _ _ _)
  split
  · exact Prog.uses_bind (relay_handleHeaderSubrequest (by simpa using hmethod) _ _ _ _)
      fun _ => Prog.uses_ret _
  · exact relay_onScripthashes session (relay_forwardOrUnavailable _ _ _)

/-! ### One line -/

theorem relay_writeClientResponses (responses : List Json) (batch : Bool) :
    IsRelay libs (writeClientResponses libs responses batch) := by
  unfold writeClientResponses
  split
  · exact uses_orRaise (relay_writeLine _)
  · split
    · exact Prog.uses_fail _
    · exact uses_orRaise (relay_writeLine _)

theorem relay_localResponses (requests : List JsonRpcRequest) :
    IsRelay libs (localResponses settings p requests) := by
  induction requests with
  | nil => exact Prog.uses_ret _
  | cons request requests ih =>
    refine Prog.uses_bind (relay_localElectrumResponse request) fun response => ?_
    cases response with
    | none => exact Prog.uses_ret _
    | some response => exact Prog.uses_bind ih fun _ => Prog.uses_ret _

theorem relay_answerHandshake (line : String) :
    IsRelay libs (answerHandshake settings libs p line) := by
  unfold answerHandshake
  split
  · exact Prog.uses_ret _
  · refine Prog.uses_bind (relay_localResponses _) fun responses => ?_
    cases responses with
    | none => exact Prog.uses_ret _
    | some responses =>
      exact Prog.uses_bind (relay_writeClientResponses _ _) fun _ => Prog.uses_ret _

theorem relay_answerFromCache (line sourceLabel : String) (session : ClientSession) :
    IsRelay libs (answerFromCache libs p line sourceLabel session) := by
  unfold answerFromCache
  split
  · exact Prog.uses_ret _
  · refine Prog.uses_bind (uses_orRaise (relay_act rfl)) fun config => ?_
    dsimp only
    split
    · refine Prog.uses_bind (relay_cachedTipResponse _) fun cached => ?_
      cases cached with
      | some response =>
        exact Prog.uses_bind (uses_orRaise (relay_writeLine _)) fun _ => Prog.uses_ret _
      | none => exact Prog.uses_ret _
    · exact Prog.uses_ret _

theorem relay_storePendingOutputs (txid txHex : String) :
    IsRelay libs (storePendingOutputs env p txid txHex) := relay_act rfl

/-- A broadcast is stored, answered and handed to the background. -/
theorem relay_interceptAndHandleBroadcast (id : Json) (txHex sourceLabel : String)
    (session : ClientSession) :
    IsRelay libs (interceptAndHandleBroadcast env libs p id txHex sourceLabel session) := by
  refine Prog.uses_bind (relay_act rfl) fun start => ?_
  refine Prog.uses_bind (relay_act rfl) fun finished => ?_
  split
  · exact Prog.uses_bind (relay_writeLine _) fun _ => Prog.uses_ret _
  · refine Prog.uses_bind (relay_storePendingOutputs _ _) fun _ => ?_
    refine Prog.uses_bind (relay_writeLine _) fun written => ?_
    cases written with
    | error e => exact Prog.uses_ret _
    | ok u => exact Prog.uses_bind (uses_act (.ingest _ _)) fun _ => Prog.uses_ret _

theorem relay_answerAll (indexerUrl sourceLabel : String) (requests : List JsonRpcRequest)
    (session : ClientSession) :
    IsRelay libs (answerAll settings libs headers p indexerUrl sourceLabel requests session) := by
  induction requests generalizing session with
  | nil => exact Prog.uses_ret _
  | cons request requests ih =>
    refine Prog.uses_bind (relay_handleOneSubrequest _ _ _ _) fun reply => ?_
    exact Prog.uses_bind (ih _) fun _ => Prog.uses_ret _

theorem relay_answerRequests (line indexerUrl sourceLabel : String)
    (requests : List JsonRpcRequest) (session : ClientSession) :
    IsRelay libs (answerRequests settings env libs headers p line indexerUrl sourceLabel requests
      session) := by
  unfold answerRequests
  split
  · split
    · exact relay_interceptAndHandleBroadcast _ _ _ _
    · exact Prog.uses_bind (uses_orRaise (relay_writeLine _)) fun _ => Prog.uses_ret _
  · refine Prog.uses_bind (relay_answerAll _ _ _ _) fun answered => ?_
    exact Prog.uses_bind (relay_writeClientResponses _ _) fun _ => Prog.uses_ret _

theorem relay_refuseUnparsed (line : String) :
    IsRelay libs (refuseUnparsed settings libs line) := by
  refine Prog.uses_bind ?_ fun _ => uses_orRaise (relay_writeLine _)
  unfold logUnparsed
  split
  · exact relay_logSlice _ _ _
  · exact Prog.uses_ret _

theorem relay_routeLine (line indexerUrl sourceLabel : String) (session : ClientSession) :
    IsRelay libs (routeLine settings env libs headers p line indexerUrl sourceLabel session) := by
  unfold routeLine
  split
  · exact relay_interceptAndHandleBroadcast _ _ _ _
  split
  · refine Prog.uses_bind ?_ fun _ => Prog.uses_ret _
    exact Prog.uses_bind (relay_logSlice _ _ _) fun _ => uses_orRaise (relay_writeLine _)
  split
  · exact Prog.uses_bind (relay_refuseUnparsed line) fun _ => Prog.uses_ret _
  · exact relay_answerRequests line indexerUrl sourceLabel _ session

/-- The answer to a line consists of the actions of an answer. -/
theorem relays_processClientLine (line indexerUrl sourceLabel : String)
    (session : ClientSession) :
    IsRelay libs (processClientLine settings env libs headers p line indexerUrl sourceLabel
      session) := by
  unfold processClientLine
  split
  · exact Prog.uses_ret _
  refine Prog.uses_bind (relay_answerHandshake line) fun answered => ?_
  split
  · exact Prog.uses_ret _
  refine Prog.uses_bind (relay_answerFromCache line sourceLabel _) fun cached => ?_
  dsimp only
  split
  · exact Prog.uses_ret _
  refine Prog.uses_bind ?_ fun _ => relay_routeLine line indexerUrl sourceLabel cached.2
  unfold logIncomingClientLine
  split
  · exact relay_logSlice _ _ _
  · exact Prog.uses_ret _

/-! ### What a server reads -/

/-- The value asks for the method, by itself or in a batch. -/
def AsksMethod (method : String) (v : Json) : Prop :=
  methodOf v = some method ∨ ∃ items, v = .arr items ∧ ∃ item ∈ items, methodOf item = some method

/-- A server reads the text of an object as an object, with the texts among its fields. -/
def ReadsObjects (toText : Json → String) (server : String → Option Json) : Prop :=
  ∀ fields v, (fields.map Prod.fst).Nodup → server (toText (.obj fields)) = some v →
    ∃ fields', v = .obj fields' ∧
      ∀ key s, fields.lookup key = some (.str s) → fields'.lookup key = some (.str s)

/-- None of the actions sends the indexer a text that a server reads as a broadcast. -/
def Withholds (server : String → Option Json) (actions : List (World × Act)) : Prop :=
  ∀ e ∈ actions, ∀ text, e.2 = .forwardToIndexer text → ∀ v, server text = some v →
    ∀ method ∈ broadcastMethods, ¬ AsksMethod method v

/-- A request is sent as an object with the method among its fields. -/
theorem toJson_fields (request : JsonRpcRequest) :
    ∃ fields, request.toJson = .obj fields ∧ (fields.map Prod.fst).Nodup ∧
      fields.lookup "method" = some (.str request.method) :=
  ⟨_, rfl, (by decide : (["jsonrpc", "method", "params", "id"] : List String).Nodup), rfl⟩

/-- In the text of a request a server finds the request's method and no other. -/
theorem asksMethod_request {server : String → Option Json}
    (hserver : ReadsObjects libs.toText server) {request : JsonRpcRequest} {v : Json}
    {method : String} (hread : server (libs.toText request.toJson) = some v)
    (hasks : AsksMethod method v) : method = request.method := by
  obtain ⟨sent, hsent, hdistinct, hlookup⟩ := toJson_fields request
  rw [hsent] at hread
  obtain ⟨fields, rfl, htexts⟩ := hserver sent v hdistinct hread
  have hmethod : methodOf (.obj fields) = some request.method := by
    unfold methodOf
    rw [Json.get?_obj, htexts "method" request.method hlookup]
    rfl
  rcases hasks with hasks | ⟨items, hitems, -⟩
  · exact Option.some.inj (hasks.symm.trans hmethod)
  · cases hitems

/-- No line makes the indexer see a broadcast, in whatever session and state. -/
theorem broadcast_never_relayed {server : String → Option Json}
    (hserver : ReadsObjects libs.toText server) (line indexerUrl sourceLabel : String)
    (session : ClientSession) (w : World) :
    Withholds server ((processClientLine settings env libs headers p line indexerUrl sourceLabel
      session).trace (World.exec env) w) := by
  intro e he text htext v hread method hbroadcast hasks
  have hrelays := Prog.trace_of_uses (World.exec env)
    (relays_processClientLine line indexerUrl sourceLabel session) w e he
  rw [htext] at hrelays
  cases hrelays with
  | memory h => cases h
  | forward request h =>
    have hmethod := asksMethod_request hserver hread hasks
    rw [hmethod, ← List.contains_iff_mem] at hbroadcast
    exact absurd hbroadcast (by simpa [isBroadcastMethod] using h)

end

/-! ### A request for a balance -/

/-- A request for a balance, and the indexer's answer to it. -/
def balanceExchange : List Json :=
  [(sampleRequest "blockchain.scripthash.get_balance").toJson,
    resultResponse (.ofInt 1) (.obj [("confirmed", .ofInt 0), ("unconfirmed", .ofInt 0)])]

/-- Libraries that read and write these two values. -/
def balanceLibs : ElectrumLibs where
  fromStr s := balanceExchange.find? fun v => sampleText v = s
  toText v := if v ∈ balanceExchange then sampleText v else ""
  sha256Hex s := s

/-- A server with the same libraries reads back what it is sent. -/
theorem readsObjects_balanceLibs : ReadsObjects balanceLibs.toText balanceLibs.fromStr := by
  intro fields v _ hread
  have hmem := List.mem_of_find?_eq_some hread
  have htext : sampleText v = balanceLibs.toText (.obj fields) := by
    simpa using List.find?_some hread
  unfold balanceLibs at htext
  dsimp only at htext
  split at htext
  · rename_i hknown
    have hinjective : ∀ a ∈ balanceExchange, ∀ b ∈ balanceExchange,
        sampleText a = sampleText b → a = b := by decide
    exact ⟨fields, hinjective v hmem _ hknown htext, fun _ _ h => h⟩
  · have hnonempty : ∀ a ∈ balanceExchange, sampleText a ≠ "" := by decide
    exact absurd htext (hnonempty v hmem)

theorem broadcast_never_relayed_balance :
    Withholds balanceLibs.fromStr ((processClientLine ⟨fun _ => true, none⟩
      (answeringEnv balanceExchange[1]) balanceLibs sampleHeaders .daemon
      (sampleText (sampleRequest "blockchain.scripthash.get_balance").toJson)
      "tcp://127.0.0.1:50001" "sparrow" {}).trace
        (World.exec (answeringEnv balanceExchange[1])) sampleWorld) :=
  broadcast_never_relayed readsObjects_balanceLibs _ _ _ _ _

end BroadcastPool
