import BroadcastPool.ElectrumServer.Session
import BroadcastPool.Lib.Outcome
import BroadcastPool.Proofs.Rules

/-!
# `BroadcastPool.Proofs.Electrum.Answered`: no request fails

What a wallet's request can do to its session. The answers of the outside world are those of
`fitting`: the virtual mempool holds transactions under the scripthashes of scripts, and an
answer of the indexer that is JSON at all is an object. Then `handle_one_subrequest` always
returns (`neverFails_handleOneSubrequest`): the only slice on its way is of a scripthash that
something is held for, which is ASCII, and the only field it sets is one of an object. The answers
of `expected` are these too, for a process whose configuration stays as it is.

On the scripthash methods it does what `handleScripthashSubrequest` says, as long as its log line is
whole (`handleOneSubrequest_scripthash`).
-/

set_option autoImplicit false

namespace BroadcastPool

open Effects

/-! ### What can be answered -/

/-- Every scripthash of the virtual mempool is the one of a script. -/
def HeldByScript (env : Env) (txs : PendingTxs) : Prop :=
  ∀ e ∈ txs.entries, ∀ sh ∈ e.2.scripthashes, ∃ script, sh = env.scripthash script

/-- A value that an answer can be: an object, or nothing. -/
def IsResponse : Json → Prop
  | .obj _ | .null => True
  | _ => False

/-- The answers of the outside world, for a process with this configuration. -/
def expected (env : Env) (libs : ElectrumLibs) (config : Config) : (a : Act) → a.Res → Prop
  | .pendingTxs _, r => ∀ txs, r = some txs → HeldByScript env txs
  | .forwardToIndexer _, r =>
    ∀ text v, r = .ok text → libs.fromStr (Text.trim text) = some v → IsResponse v
  | .lockConfig _, r => ∀ c, r = .ok c → c = config
  | _, _ => True

/-- What a request relies on in the answers of the outside world. -/
def fitting (env : Env) (libs : ElectrumLibs) : (a : Act) → a.Res → Prop
  | .pendingTxs _, r => ∀ txs, r = some txs → HeldByScript env txs
  | .forwardToIndexer _, r =>
    ∀ text v, r = .ok text → libs.fromStr (Text.trim text) = some v → IsResponse v
  | _, _ => True

theorem fitting_of_expected {env : Env} {libs : ElectrumLibs} {config : Config} (a : Act)
    (r : a.Res) (h : expected env libs config a r) : fitting env libs a r := by
  cases a with
  | pendingTxs p => exact h
  | forwardToIndexer text => exact h
  | _ => trivial

/-- The functions of the libraries that the text of a line depends on. -/
structure LibsFit (env : Env) (libs : ElectrumLibs) : Prop where
  /-- A scripthash is written in hex digits. -/
  scripthash : ∀ script, Text.IsAscii (env.scripthash script)
  /-- The text of an array starts with a bracket. -/
  bracket : ∀ s items, libs.fromStr (Text.trim s) = some (.arr items) →
    Text.startsWith (Text.trim s) "[" = true

/-- An error that is no panic. -/
def Failure.IsError : Failure → Prop
  | .error _ => True
  | .panic _ => False

section
variable {env : Env} {libs : ElectrumLibs} {config : Config} {p : Proc}
  {answers : (a : Act) → a.Res → Prop} {E : Failure → Prop} {α : Type}

/-- Every question has an answer. -/
theorem exists_expected (a : Act) : ∃ r, expected env libs config a r := by
  cases a with
  | pendingTxs q => exact ⟨none, fun _ h => by cases h⟩
  | forwardToIndexer text => exact ⟨.error "", fun _ _ h => by cases h⟩
  | lockConfig q => exact ⟨.error "", fun _ h => by cases h⟩
  | now | instant | nonce | random => exact ⟨0, trivial⟩
  | uuid => exact ⟨"", trivial⟩
  | randomF64 lo hi => exact ⟨lo, trivial⟩
  | isSafeMode | hasIndexer | hasRpc | indexerTest | rpcTest => exact ⟨false, trivial⟩
  | chainHealth => exact ⟨{}, trivial⟩
  | readMtpCache | cachedChainTip => exact ⟨none, trivial⟩
  | removePending => exact ⟨[], trivial⟩
  | select | selectLegacy | txHexByTxid | update | delete | backfill | insert | reseal
  | migrate | archiveRow | saveConfig | advanceVirtualBlock | indexerBroadcast | rpcBroadcast
  | indexerHeight | indexerMtp | rpcHeight | rpcMtp | rpcChainStatus | rpcTransaction
  | fetchPrevTx | writeClient => exact ⟨.error "", trivial⟩
  | _ => exact ⟨(), trivial⟩

/-! ### Errors of the program's own constructs -/

theorem within_act (a : Act) : (perform a).Within answers E := Prog.within_perform a

theorem within_orFail {context : String} (h : E (.error context)) {prog : M (Except String α)}
    (hp : prog.Within answers E) : (orFail context prog).Within answers E :=
  Prog.within_seq hp fun o => by
    cases o with
    | ok a => exact Prog.within_ret a
    | error e => exact Prog.within_fail h

theorem within_orRaise (h : ∀ e, E (.error e)) {prog : M (Except String α)}
    (hp : prog.Within answers E) : (orRaise prog).Within answers E :=
  Prog.within_seq hp fun o => by
    cases o with
    | ok a => exact Prog.within_ret a
    | error e => exact Prog.within_fail (h e)

/-- A program that does not panic does not fail once its errors are caught. -/
theorem neverFails_catchErr {prog : M α} (hp : prog.Within answers Failure.IsError) :
    (catchErr prog).NeverFails answers := by
  refine Prog.within_bind (fun e he => ?_) fun o ho => ?_
  · obtain ⟨o, -, h⟩ := Prog.ends_attempt_iff.1 he
    cases h
  · obtain ⟨o', ho', h⟩ := Prog.ends_attempt_iff.1 ho
    cases h
    rcases o with (e | e) | a
    · exact Prog.within_ret _
    · exact (hp _ ho').elim
    · exact Prog.within_ret _

/-! ### The branches of a request -/

theorem neverFails_getPendingTxids (sh : String) :
    (getPendingTxidsForScripthash p sh).NeverFails answers :=
  Prog.within_seq (within_act _) fun _ => Prog.within_ret _

theorem neverFails_modifyUpstreamResponse {msg : Json} (h : IsResponse msg)
    (method scripthash : String) :
    (modifyUpstreamResponse libs p msg method scripthash).NeverFails answers := by
  unfold modifyUpstreamResponse
  split
  · split
    · exact Prog.within_seq (neverFails_getPendingTxids _) fun _ => Prog.within_ret _
    · exact Prog.within_ret _
  split
  · refine Prog.within_seq (neverFails_getPendingTxids _) fun pending => ?_
    split
    · cases msg with
      | obj | null => exact Prog.within_ret _
      | _ => exact h.elim
    · exact Prog.within_ret _
  split
  · split
    · exact Prog.within_seq (Prog.within_seq (within_act _) fun _ => Prog.within_ret _)
        fun _ => Prog.within_ret _
    · exact Prog.within_ret _
  split
  · split
    · exact Prog.within_seq (Prog.within_seq (within_act _) fun _ => Prog.within_ret _)
        fun _ => Prog.within_ret _
    · exact Prog.within_ret _
  split
  · split
    · exact Prog.within_seq (neverFails_getPendingTxids _) fun _ => Prog.within_ret _
    · exact Prog.within_ret _
  · exact Prog.within_ret _

/-- The answer of the indexer is changed only if it is an object. -/
theorem neverFails_receiveAnswer {answer : String}
    (h : ∀ v, libs.fromStr (Text.trim answer) = some v → IsResponse v) (id : Json)
    (session : SessionState) : (receiveAnswer libs p answer id session).NeverFails answers := by
  unfold receiveAnswer
  split
  · exact Prog.within_ret _
  · rename_i msg hmsg
    split
    · exact Prog.within_ret _
    · exact Prog.within_seq (neverFails_modifyUpstreamResponse (h msg hmsg) _ _)
        fun _ => Prog.within_ret _

theorem neverFails_forwardSubrequestSync (request : JsonRpcRequest) (session : SessionState) :
    (forwardSubrequestSync libs p request session).NeverFails (fitting env libs) := by
  unfold forwardSubrequestSync
  split
  · exact Prog.within_ret _
  · refine Prog.within_bind (within_act _) fun answer hanswer => ?_
    obtain ⟨r, hr, hok⟩ := Prog.ends_perform_iff.1 hanswer
    cases hok
    cases answer with
    | error e => exact Prog.within_ret _
    | ok text => exact neverFails_receiveAnswer (fun v hv => hr text v rfl hv) _ _

theorem neverFails_forwardOrUnavailable (request : JsonRpcRequest) (indexerUrl : String)
    (session : SessionState) :
    (forwardOrUnavailable libs p request indexerUrl session).NeverFails
      (fitting env libs) := by
  unfold forwardOrUnavailable
  split
  · exact Prog.within_ret _
  · exact neverFails_forwardSubrequestSync request session

theorem neverFails_trackScripthashInterest (session : SessionState) (scripthash : String) :
    (trackScripthashInterest p session scripthash).NeverFails answers := by
  unfold trackScripthashInterest
  split
  · exact Prog.within_ret _
  · exact Prog.within_seq (within_act _) fun _ => Prog.within_ret _

/-- A scripthash that something is held for is the one of a script. -/
theorem held_of_getPendingTxids {scripthash : String} {pending : List String}
    (h : (getPendingTxidsForScripthash p scripthash).Ends (fitting env libs)
      (.ok pending)) (hne : pending ≠ []) : ∃ script, scripthash = env.scripthash script := by
  obtain ⟨txs, hget, hret⟩ := Prog.ends_bind_ok_iff.1 h
  obtain ⟨r, hr, hok⟩ := Prog.ends_perform_iff.1 hget
  cases hok
  cases Prog.ends_ret_iff.1 hret
  cases txs with
  | none => exact absurd rfl hne
  | some txs =>
    obtain ⟨txid, htxid⟩ := List.exists_mem_of_ne_nil _ hne
    obtain ⟨e, he, -⟩ := List.mem_map.1 htxid
    obtain ⟨hmem, hcontains⟩ := List.mem_filter.1 he
    exact hr txs rfl e hmem scripthash (by simpa using hcontains)

/-! ### Slices of a log line -/

/-- The slice `&s[..s.len().min(n)]` is cut between two characters. -/
def CutsCleanly (s : String) (n : Nat) : Prop :=
  Text.isCharBoundary s.toList (prefixEnd s n) = true

instance (s : String) (n : Nat) : Decidable (CutsCleanly s n) :=
  inferInstanceAs (Decidable (_ = _))

theorem cutsCleanly_ascii {s : String} (h : Text.IsAscii s) (n : Nat) : CutsCleanly s n :=
  Text.isCharBoundary_ascii h (Nat.min_le_left _ _)

theorem logSlice_clean {settings : SessionSettings} {level : LogLevel} {s : String} {n : Nat}
    (h : settings.logs level = true → CutsCleanly s n) :
    logSlice settings level s n = .ret () := by
  unfold logSlice sliceAt
  split
  · rename_i hlogs
    exact if_pos (h hlogs)
  · rfl

theorem logSlice_torn {settings : SessionSettings} {level : LogLevel} {s : String} {n : Nat}
    (hlogs : settings.logs level = true) (h : ¬ CutsCleanly s n) :
    logSlice settings level s n = .fail (.panic "byte index is not a char boundary") := by
  unfold logSlice sliceAt
  rw [if_pos hlogs]
  exact if_neg h

/-! ### One request -/

variable {settings : SessionSettings} {headers : HeaderLibs}

/-- The virtual mempool answers for nothing that is not held. -/
theorem fastResponse_nil (request : JsonRpcRequest) : fastResponse libs request [] = none := by
  unfold fastResponse
  rw [if_pos rfl]

theorem neverFails_handleFastSubrequest (hfit : LibsFit env libs) (request : JsonRpcRequest)
    (indexerUrl : String) (session : SessionState) :
    (handleFastSubrequest settings libs p request indexerUrl session).NeverFails
      (fitting env libs) := by
  unfold handleFastSubrequest
  split
  · rename_i scripthash hsh
    refine Prog.within_seq (neverFails_trackScripthashInterest session scripthash) fun session => ?_
    refine Prog.within_bind (neverFails_getPendingTxids scripthash) fun pending hpending => ?_
    split
    · rename_i response hresponse
      have hne : pending ≠ [] := by
        rintro rfl
        rw [fastResponse_nil] at hresponse
        cases hresponse
      obtain ⟨script, rfl⟩ := held_of_getPendingTxids hpending hne
      rw [logSlice_clean fun _ => cutsCleanly_ascii (hfit.scripthash script) 16]
      exact Prog.within_ret _
    · exact neverFails_forwardOrUnavailable request indexerUrl session
  · exact neverFails_forwardOrUnavailable request indexerUrl session

theorem neverFails_orElse? {q r : M (Option α)} (hq : q.NeverFails answers)
    (hr : r.NeverFails answers) : (orElse? q r).NeverFails answers :=
  Prog.within_seq hq fun o => by
    cases o with
    | some a => exact Prog.within_ret _
    | none => exact hr

theorem neverFails_onAlternate (txid : String) {find : String → M (Option String)}
    (h : ∀ alt, (find alt).NeverFails answers) : (onAlternate txid find).NeverFails answers := by
  unfold onAlternate
  split
  · exact h _
  · exact Prog.within_ret _

theorem neverFails_findTxHexByTxid (txid : String) :
    (findTxHexByTxid txid).NeverFails answers := by
  refine Prog.within_seq (neverFails_catchErr ?_) fun o => ?_
  · exact within_orRaise (fun _ => trivial) (within_act _)
  · cases o <;> exact Prog.within_ret _

theorem neverFails_getPendingTxHex (txid : String) :
    (getPendingTxHex p txid).NeverFails answers :=
  Prog.within_seq (within_act _) fun _ => Prog.within_ret _

theorem neverFails_lookupTxHex (txid : String) : (lookupTxHex p txid).NeverFails answers :=
  neverFails_orElse? (neverFails_getPendingTxHex _) <|
    neverFails_orElse? (neverFails_onAlternate _ neverFails_getPendingTxHex) <|
      neverFails_orElse? (neverFails_findTxHexByTxid _)
        (neverFails_onAlternate _ neverFails_findTxHexByTxid)

theorem neverFails_handleTransactionGet (request : JsonRpcRequest) (indexerUrl : String)
    (session : SessionState) :
    (handleTransactionGet libs p request indexerUrl session).NeverFails
      (fitting env libs) := by
  unfold handleTransactionGet
  split
  · refine Prog.within_seq (neverFails_lookupTxHex _) fun hex => ?_
    cases hex with
    | some hex => exact Prog.within_ret _
    | none => exact neverFails_forwardOrUnavailable request indexerUrl session
  · exact neverFails_forwardOrUnavailable request indexerUrl session

theorem neverFails_cachedTipResponse (request : JsonRpcRequest) :
    (cachedTipResponse p request).NeverFails answers :=
  Prog.within_seq (within_act _) fun tip => by
    rcases tip with _ | ⟨height, hex⟩ <;> exact Prog.within_ret _

theorem neverFails_virtualTipResponse (request : JsonRpcRequest) (virtualTip : Option Nat) :
    (virtualTipResponse headers p request virtualTip).NeverFails answers := by
  unfold virtualTipResponse
  split
  · exact Prog.within_ret _
  · refine Prog.within_seq (within_act _) fun tip => ?_
    rcases tip with _ | ⟨height, hex⟩
    · exact Prog.within_ret _
    · dsimp only
      split <;> exact Prog.within_ret _

theorem neverFails_askTip (request : JsonRpcRequest) (indexerUrl : String) :
    (askTip libs p request indexerUrl).NeverFails answers := by
  unfold askTip
  split
  · exact Prog.within_ret _
  · refine Prog.within_seq (within_act _) fun answer => ?_
    cases answer with
    | error e => exact Prog.within_ret _
    | ok text =>
      dsimp only
      split
      · exact Prog.within_ret _
      · split
        · exact Prog.within_ret _
        · exact Prog.within_seq (within_act _) fun _ => Prog.within_ret _

theorem neverFails_handleHeadersSubscribe (request : JsonRpcRequest) (indexerUrl : String)
    (virtualTip : Option Nat) :
    (handleHeadersSubscribe libs headers p request indexerUrl virtualTip).NeverFails answers := by
  refine Prog.within_seq (neverFails_virtualTipResponse request virtualTip) fun virtual => ?_
  cases virtual with
  | some response => exact Prog.within_ret _
  | none =>
    refine Prog.within_seq (neverFails_cachedTipResponse request) fun cached => ?_
    cases cached with
    | some response => exact Prog.within_ret _
    | none =>
      refine Prog.within_seq (neverFails_askTip request indexerUrl) fun asked => ?_
      cases asked with
      | some response => exact Prog.within_ret _
      | none =>
        refine Prog.within_seq (neverFails_cachedTipResponse request) fun again => ?_
        cases again <;> exact Prog.within_ret _

theorem neverFails_serveVirtualBlockHeader (request : JsonRpcRequest)
    (virtualTip : Option Nat) :
    (serveVirtualBlockHeader headers p request virtualTip).NeverFails answers := by
  unfold serveVirtualBlockHeader
  split
  · split
    · exact Prog.within_ret _
    · split
      · refine Prog.within_seq (within_act _) fun tip => ?_
        rcases tip with _ | ⟨height, hex⟩
        · exact Prog.within_ret _
        · dsimp only
          split <;> exact Prog.within_ret _
      · exact Prog.within_ret _
  · exact Prog.within_ret _

theorem neverFails_handleHeaderSubrequest (request : JsonRpcRequest)
    (indexerUrl sourceLabel : String) (wallet : HeaderSession) (session : SessionState) :
    (handleHeaderSubrequest libs headers p request indexerUrl sourceLabel wallet
      session).NeverFails (fitting env libs) := by
  refine Prog.within_seq (within_act _) fun cfg => ?_
  cases cfg with
  | error e => exact Prog.within_ret _
  | ok cfg =>
    dsimp only
    split
    · exact Prog.within_seq (neverFails_handleHeadersSubscribe _ _ _) fun _ => Prog.within_ret _
    · refine Prog.within_seq (neverFails_serveVirtualBlockHeader _ _) fun served => ?_
      cases served with
      | some response => exact Prog.within_ret _
      | none =>
        exact Prog.within_seq (neverFails_forwardOrUnavailable _ _ _) fun _ => Prog.within_ret _

theorem neverFails_localElectrumResponse (request : JsonRpcRequest) :
    (localElectrumResponse settings p request).NeverFails answers := by
  unfold localElectrumResponse
  split
  · exact Prog.within_ret _
  split
  · exact Prog.within_ret _
  split
  · exact Prog.within_ret _
  split
  · exact Prog.within_seq (within_act _) fun _ => Prog.within_ret _
  · exact Prog.within_ret _

theorem neverFails_onScripthashes (session : ClientSession) {branch : SessionState → M Reply}
    (h : (branch session.scripthashes).NeverFails answers) :
    (onScripthashes session branch).NeverFails answers :=
  Prog.within_seq h fun _ => Prog.within_ret _

/-- Whatever the request is, it is answered. -/
theorem neverFails_handleOneSubrequest (hfit : LibsFit env libs) (request : JsonRpcRequest)
    (indexerUrl sourceLabel : String) (session : ClientSession) :
    (handleOneSubrequest settings libs headers p request indexerUrl sourceLabel
      session).NeverFails (fitting env libs) := by
  unfold handleOneSubrequest
  split
  · refine Prog.within_seq (neverFails_localElectrumResponse request) fun response => ?_
    cases response <;> exact Prog.within_ret _
  split
  · exact Prog.within_ret _
  split
  · exact Prog.within_ret _
  split
  · exact neverFails_onScripthashes session (neverFails_handleFastSubrequest hfit _ _ _)
  split
  · exact neverFails_onScripthashes session (neverFails_handleTransactionGet _ _ _)
  split
  · exact Prog.within_seq (neverFails_handleHeaderSubrequest _ _ _ _ _)
      fun _ => Prog.within_ret _
  · exact neverFails_onScripthashes session (neverFails_forwardOrUnavailable _ _ _)

/-! ### The scripthash methods -/

theorem handleFastSubrequest_eq {request : JsonRpcRequest}
    (hfast : fastMethods.contains request.method = true)
    (hclean : ∀ scripthash, scripthashFromParams request.params = some scripthash →
      settings.logs .info = true → CutsCleanly scripthash 16)
    (indexerUrl : String) (session : SessionState) :
    handleFastSubrequest settings libs p request indexerUrl session =
      handleScripthashSubrequest libs p request indexerUrl session := by
  unfold handleFastSubrequest handleScripthashSubrequest
  rw [if_pos hfast]
  cases hsh : scripthashFromParams request.params with
  | none => rfl
  | some scripthash =>
    dsimp only
    rw [logSlice_clean (hclean scripthash hsh)]
    rfl

/-- `handleScripthashSubrequest` is `handle_one_subrequest` on the scripthash methods, as long as
their log line does not cut the scripthash inside a character. -/
theorem handleOneSubrequest_scripthash {request : JsonRpcRequest}
    (hmethod : Text.startsWith request.method "blockchain.scripthash." = true)
    (hclean : ∀ scripthash, scripthashFromParams request.params = some scripthash →
      settings.logs .info = true → CutsCleanly scripthash 16)
    (indexerUrl sourceLabel : String) (session : ClientSession) :
    handleOneSubrequest settings libs headers p request indexerUrl sourceLabel session =
      onScripthashes session (handleScripthashSubrequest libs p request indexerUrl) := by
  have hne : ∀ method, Text.startsWith method "blockchain.scripthash." = false →
      request.method ≠ method := by
    rintro method hother rfl
    rw [hmethod] at hother
    cases hother
  have hnotMem : ∀ methods : List String,
      (∀ method ∈ methods, Text.startsWith method "blockchain.scripthash." = false) →
        methods.contains request.method = false := by
    intro methods hothers
    refine Bool.eq_false_iff.2 fun hcontains => ?_
    exact hne request.method (hothers _ (List.contains_iff_mem.1 hcontains)) rfl
  have hlocal : isLocalHandshakeMethod request.method = false :=
    hnotMem localElectrumMethods (by decide +kernel)
  have hbroadcast : isBroadcastMethod request.method = false :=
    hnotMem broadcastMethods (by decide +kernel)
  have hheader : headerMethods.contains request.method = false :=
    hnotMem headerMethods (by decide +kernel)
  have hfast : localFastResponse request = none := by
    unfold localFastResponse
    rw [if_neg, if_neg, if_neg]
    · exact hne _ (by decide +kernel)
    · exact hne _ (by decide +kernel)
    · rintro (h | h)
      · exact hne _ (by decide +kernel) h
      · exact hne _ (by decide +kernel) h
  unfold handleOneSubrequest
  rw [hlocal, hfast, hbroadcast, hheader]
  by_cases hcontains : fastMethods.contains request.method = true
  · have hsame : handleFastSubrequest settings libs p request indexerUrl =
        handleScripthashSubrequest libs p request indexerUrl :=
      funext (handleFastSubrequest_eq hcontains hclean indexerUrl)
    dsimp only
    rw [if_neg Bool.false_ne_true, if_neg Bool.false_ne_true, if_pos hcontains, hsame]
  · have hrest : handleScripthashSubrequest libs p request indexerUrl =
        forwardOrUnavailable libs p request indexerUrl :=
      funext fun session => if_neg hcontains
    dsimp only
    rw [if_neg Bool.false_ne_true, if_neg Bool.false_ne_true, if_neg hcontains,
      if_neg (hne _ (by decide +kernel)), if_neg Bool.false_ne_true, hrest]

end

end BroadcastPool
