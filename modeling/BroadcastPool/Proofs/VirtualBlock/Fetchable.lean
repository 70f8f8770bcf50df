import BroadcastPool.ElectrumServer.Headers
import BroadcastPool.Sample

/-!
# `BroadcastPool.Proofs.VirtualBlock.Fetchable`: the advertised tip and the headers below it

An armed session is told the greater of the target and the height after the real tip. A header
is served here up to the target, and no further. `Advertises` says which tip the session is
told, by an answer or by a push, and `Fetchable` that it can ask for that tip and for every
header between the real tip and it, and gets one chain.

While the real tip is below the target, the two heights are the same and every advertised tip
is fetchable. As soon as the real tip has reached the target, the advertised tip is not served
(`advertised_fetchable_iff`).
-/

set_option autoImplicit false

namespace BroadcastPool

open Effects

/-- The session has a virtual tip, and the configuration can be read. -/
structure ArmedSession (env : Env) (p : Proc) (w : World) (source : String)
    (wallet : HeaderSession) (target : Nat) : Prop where
  unpoisoned : env.configPoisoned w.tick = false
  armed : virtualTipHeight (w.pm p).config (wallet.effectiveSource source = "liana") =
    some target

section
variable (libs : ElectrumLibs) (headers : HeaderLibs) (env : Env) (p : Proc)

/-- The session is told a tip: as the answer to `headers.subscribe`, or as the push of the
cached tip. -/
inductive Advertises (w : World) (source : String) (wallet : HeaderSession) (height : Nat)
    (hex : String) : Prop
  | answer (request : JsonRpcRequest) (indexerUrl : String)
      (session session' : SessionState) (wallet' : HeaderSession) (w' : World)
      (hmethod : request.method = "blockchain.headers.subscribe")
      (hrun : (handleHeaderSubrequest libs headers p request indexerUrl source wallet
          session).run (World.exec env) w =
        (.ok ((.ok (resultResponse request.id (tipJson height hex)), session'), wallet'), w'))
  | push (tip : Nat × String) (htip : (w.pm p).cachedChainTip = some tip)
      (hsubscribed : wallet.subscribedHeaders = true) (hidle : wallet.clientBusy = false)
      (hpushed : pushedTip headers (servedTip source wallet (.ok (w.pm p).config)) tip =
        some (height, hex))

/-- The header of a height is served without the indexer. -/
def ServesHeader (w : World) (source : String) (wallet : HeaderSession) (height : Nat)
    (hex : String) : Prop :=
  ∀ (request : JsonRpcRequest) (indexerUrl : String) (session : SessionState),
    request.method = "blockchain.block.header" →
    heightFromParams request.params = some height →
    (handleHeaderSubrequest libs headers p request indexerUrl source wallet session).run
        (World.exec env) w =
      (.ok ((.ok (resultResponse request.id (.str hex)), session), wallet),
        w.ticked.ticked)

/-- While neither the tip nor the target changes, the header of the height, and every header
between the real tip and it, is served here. The headers are a chain that stands on `tip`. -/
def Fetchable (realHeight : Nat) (realHex : String) (tip : Header) (source : String)
    (target height : Nat) (hex : String) : Prop :=
  ∃ chain : Nat → Header,
    chain 0 = tip ∧
    (∀ n, (chain (n + 1)).prevBlockhash = headers.blockHash (chain n)) ∧
    hex = headers.serializeHex (chain (height - realHeight)) ∧
    ∀ (w : World) (wallet : HeaderSession), ArmedSession env p w source wallet target →
      (w.pm p).cachedChainTip = some (realHeight, realHex) →
      ∀ k, k = height ∨ realHeight < k ∧ k < height →
        ServesHeader libs headers env p w source wallet k
          (headers.serializeHex (chain (k - realHeight)))

end

/-! ### What a session is told -/

section
variable {libs : ElectrumLibs} {headers : HeaderLibs} {env : Env} {p : Proc} {w : World}
  {source : String} {wallet : HeaderSession} {target realHeight : Nat} {realHex : String}
  {tip : Header}

/-- Below the target, the advertised height is the target. -/
theorem advertisedHeight_of_lt (h : realHeight < target) :
    advertisedHeight target realHeight = target := by
  have hmod : (realHeight + 1) % 2 ^ 64 ≤ realHeight + 1 := Nat.mod_le _ _
  unfold advertisedHeight
  omega

/-- The answer to `headers.subscribe` on an armed session, when the tip to advertise has a
header. -/
theorem run_headersSubscribe (hsession : ArmedSession env p w source wallet target)
    (hcached : (w.pm p).cachedChainTip = some (realHeight, realHex)) {request : JsonRpcRequest}
    (hmethod : request.method = "blockchain.headers.subscribe") (indexerUrl : String)
    (session : SessionState) {hex : String}
    (hhex : headerHexAt headers realHeight realHex (advertisedHeight target realHeight) =
      .ok (some hex)) :
    (handleHeaderSubrequest libs headers p request indexerUrl source wallet session).run
        (World.exec env) w =
      (.ok ((.ok (resultResponse request.id
          (tipJson (advertisedHeight target realHeight) hex)), session),
        wallet.noteRequest request), w.ticked.ticked) := by
  have hlock : World.exec env (.lockConfig p) w = (.ok (w.pm p).config, w.ticked) := by
    simp [World.exec, World.effect, hsession.unpoisoned]
  have htip : World.exec env (.cachedChainTip p) w.ticked =
      (some (realHeight, realHex), w.ticked.ticked) := by
    simp [World.exec, World.effect, hcached]
  unfold handleHeaderSubrequest perform
  simp only [Prog.bind_eq, Prog.run_bind, Prog.run_perform, hlock, hmethod, if_true,
    HeaderSession.effectiveSource_noteRequest, hsession.armed, handleHeadersSubscribe,
    virtualTipResponse, perform, htip, hhex,
    Prog.pure_eq_ret, Prog.run_ret]

/-- The answer when there is no header for the tip to advertise: the cached tip. -/
theorem run_headersSubscribe_cached (hsession : ArmedSession env p w source wallet target)
    (hcached : (w.pm p).cachedChainTip = some (realHeight, realHex)) {request : JsonRpcRequest}
    (hmethod : request.method = "blockchain.headers.subscribe") (indexerUrl : String)
    (session : SessionState)
    (hhex : headerHexAt headers realHeight realHex (advertisedHeight target realHeight) =
      .ok none) :
    (handleHeaderSubrequest libs headers p request indexerUrl source wallet session).run
        (World.exec env) w =
      (.ok ((.ok (resultResponse request.id (tipJson realHeight realHex)), session),
        wallet.noteRequest request), w.ticked.ticked.ticked) := by
  have hlock : World.exec env (.lockConfig p) w = (.ok (w.pm p).config, w.ticked) := by
    simp [World.exec, World.effect, hsession.unpoisoned]
  have htip (w' : World) (hw : w'.pm p = w.pm p) : World.exec env (.cachedChainTip p) w' =
      (some (realHeight, realHex), w'.ticked) := by
    simp [World.exec, World.effect, hw, hcached]
  unfold handleHeaderSubrequest perform
  simp only [Prog.bind_eq, Prog.run_bind, Prog.run_perform, hlock, hmethod, if_true,
    HeaderSession.effectiveSource_noteRequest, hsession.armed, handleHeadersSubscribe,
    virtualTipResponse, cachedTipResponse, perform,
    htip, World.ticked_pm, hhex, Prog.pure_eq_ret, Prog.run_ret]

/-! ### What a session is served -/

/-- A request for a header of the range is answered from the cached tip. -/
theorem run_serveVirtualBlockHeader (hcached : (w.pm p).cachedChainTip =
    some (realHeight, realHex)) {request : JsonRpcRequest}
    (hmethod : request.method = "blockchain.block.header") {k : Nat}
    (hparams : heightFromParams request.params = some k) (hk : k ≤ target)
    {found : Option String} (hfound : headerHexAt headers realHeight realHex k = .ok found) :
    (serveVirtualBlockHeader headers p request (some target)).run (World.exec env) w =
      (.ok (found.map fun hex => resultResponse request.id (.str hex)), w.ticked) := by
  have htip : World.exec env (.cachedChainTip p) w = (some (realHeight, realHex), w.ticked) := by
    simp [World.exec, World.effect, hcached]
  have hrange : virtualHeaderInRange k (some target) = true := decide_eq_true hk
  unfold serveVirtualBlockHeader perform
  rw [if_pos hmethod, hparams]
  simp only [hrange, if_true, Prog.bind_eq, Prog.run_bind, Prog.run_perform, htip, hfound]
  cases found <;> rfl

/-- A request for any other header is not answered here. -/
theorem run_serveVirtualBlockHeader_above {request : JsonRpcRequest}
    (hmethod : request.method = "blockchain.block.header") {k : Nat}
    (hparams : heightFromParams request.params = some k) (hk : target < k) :
    (serveVirtualBlockHeader headers p request (some target)).run (World.exec env) w =
      (.ok none, w) := by
  have hrange : virtualHeaderInRange k (some target) = false := decide_eq_false (by omega)
  unfold serveVirtualBlockHeader
  rw [if_pos hmethod, hparams]
  simp only [hrange, Bool.false_eq_true, if_false, Prog.pure_eq_ret, Prog.run_ret]

/-- A request for a header is answered here, or by the indexer. -/
theorem run_blockHeader (hsession : ArmedSession env p w source wallet target)
    {request : JsonRpcRequest} (hmethod : request.method = "blockchain.block.header")
    {indexerUrl : String} {session : SessionState} {served : Option Json} {w' : World}
    (hserve : (serveVirtualBlockHeader headers p request (some target)).run (World.exec env)
      w.ticked = (.ok served, w')) :
    (handleHeaderSubrequest libs headers p request indexerUrl source wallet session).run
        (World.exec env) w =
      (served.elim
        (do
          let reply ← forwardOrUnavailable libs p request indexerUrl session
          return (reply, wallet))
        fun response => .ret ((.ok response, session), wallet)).run (World.exec env) w' := by
  have hlock : World.exec env (.lockConfig p) w = (.ok (w.pm p).config, w.ticked) := by
    simp [World.exec, World.effect, hsession.unpoisoned]
  have hother : ¬ request.method = "blockchain.headers.subscribe" := by
    rw [hmethod]
    decide
  unfold handleHeaderSubrequest perform
  have hwallet : wallet.noteRequest request = wallet := if_neg hother
  simp only [Prog.bind_eq, Prog.run_bind, Prog.run_perform, hlock, if_neg hother, hwallet,
    hsession.armed, hserve]
  cases served <;> rfl

/-- A header of the fabricated range is served. -/
theorem servesHeader_of_le (hsession : ArmedSession env p w source wallet target)
    (hcached : (w.pm p).cachedChainTip = some (realHeight, realHex))
    (hvalid : decodeHeader headers realHex = .ok tip) {k : Nat} (hreal : realHeight < k)
    (hk : k ≤ target) :
    ServesHeader libs headers env p w source wallet k
      (headers.serializeHex (chainAbove headers tip (k - realHeight))) := by
  intro request indexerUrl session hmethod hparams
  have hcached' : (w.ticked.pm p).cachedChainTip = some (realHeight, realHex) := by
    rw [World.ticked_pm]
    exact hcached
  exact run_blockHeader hsession hmethod
    (run_serveVirtualBlockHeader hcached' hmethod hparams hk (headerHexAt_eq hvalid hreal))

/-- No header outside the fabricated range is served here. -/
theorem not_servesHeader (hsession : ArmedSession env p w source wallet target)
    (hcached : (w.pm p).cachedChainTip = some (realHeight, realHex)) {k : Nat}
    (hk : target < k ∨ k ≤ realHeight) (hex : String) :
    ¬ ServesHeader libs headers env p w source wallet k hex := by
  intro hserves
  have hparams : heightFromParams (some (.arr [.ofInt k])) = some k := by
    simp [heightFromParams]
  have hrun := hserves ⟨none, "blockchain.block.header", some (.arr [.ofInt k]), .null⟩ "" {}
    rfl hparams
  have hcached' : (w.ticked.pm p).cachedChainTip = some (realHeight, realHex) := by
    rw [World.ticked_pm]
    exact hcached
  -- The request goes to the indexer, which is not configured in this one.
  obtain ⟨w', hserve⟩ : ∃ w', (serveVirtualBlockHeader headers p
      ⟨none, "blockchain.block.header", some (.arr [.ofInt k]), .null⟩ (some target)).run
        (World.exec env) w.ticked = (.ok none, w') := by
    by_cases habove : target < k
    · exact ⟨_, run_serveVirtualBlockHeader_above rfl hparams habove⟩
    · exact ⟨_, run_serveVirtualBlockHeader hcached' rfl hparams (Nat.le_of_not_lt habove)
        (headerHexAt_of_le realHex (by omega))⟩
  rw [run_blockHeader hsession rfl hserve] at hrun
  simp [forwardOrUnavailable, Prog.bind, unavailableResponse, resultResponse] at hrun

/-! ### The advertised tip -/

/-- Below the target, the session is told the target and the header that the chain has there. -/
theorem Advertises.eq_target (hsession : ArmedSession env p w source wallet target)
    (hcached : (w.pm p).cachedChainTip = some (realHeight, realHex))
    (hvalid : decodeHeader headers realHex = .ok tip) (hlt : realHeight < target)
    {height : Nat} {hex : String}
    (h : Advertises libs headers env p w source wallet height hex) :
    height = target ∧
      hex = headers.serializeHex (chainAbove headers tip (target - realHeight)) := by
  have hhex : headerHexAt headers realHeight realHex (advertisedHeight target realHeight) =
      .ok (some (headers.serializeHex (chainAbove headers tip (target - realHeight)))) := by
    rw [advertisedHeight_of_lt hlt]
    exact headerHexAt_eq hvalid hlt
  cases h with
  | answer request indexerUrl session session' wallet' w' hmethod hrun =>
    rw [run_headersSubscribe hsession hcached hmethod indexerUrl session hhex,
      advertisedHeight_of_lt hlt] at hrun
    simp [resultResponse, tipJson, Json.ofInt] at hrun
    exact ⟨hrun.1.1.1.1.symm, hrun.1.1.1.2.symm⟩
  | push tip' htip hsubscribed hidle hpushed =>
    rw [hcached] at htip
    cases htip
    simp only [servedTip, hsession.armed, pushedTip, hhex, Option.some.injEq,
      Prod.mk.injEq] at hpushed
    rw [advertisedHeight_of_lt hlt] at hpushed
    exact ⟨hpushed.1.symm, hpushed.2.symm⟩

/-- When the real tip has reached the target, the session is told a tip that is not served. -/
theorem exists_advertises_not_fetchable (hsession : ArmedSession env p w source wallet target)
    (hcached : (w.pm p).cachedChainTip = some (realHeight, realHex))
    (hvalid : decodeHeader headers realHex = .ok tip) (hle : target ≤ realHeight) :
    ∃ height hex, Advertises libs headers env p w source wallet height hex ∧
      ¬ Fetchable libs headers env p realHeight realHex tip source target height hex := by
  obtain ⟨height, hex, w', hrun, hout⟩ : ∃ height hex w',
      (handleHeaderSubrequest libs headers p
          ⟨none, "blockchain.headers.subscribe", none, .null⟩ "" source wallet {}).run
          (World.exec env) w =
        (.ok ((.ok (resultResponse .null (tipJson height hex)), {}),
          wallet.noteRequest ⟨none, "blockchain.headers.subscribe", none, .null⟩), w') ∧
      (target < height ∨ height ≤ realHeight) := by
    by_cases habove : realHeight < advertisedHeight target realHeight
    · exact ⟨_, _, _, run_headersSubscribe hsession hcached rfl "" {}
        (headerHexAt_eq hvalid habove), Or.inl (by omega)⟩
    · -- The sum has wrapped around, and the cached tip is the answer.
      exact ⟨_, _, _, run_headersSubscribe_cached hsession hcached rfl "" {}
        (headerHexAt_of_le realHex (by omega)), Or.inr (le_refl _)⟩
  refine ⟨height, hex, .answer _ _ _ _ _ _ rfl hrun, ?_⟩
  rintro ⟨chain, -, -, -, hserved⟩
  exact not_servesHeader hsession hcached hout _
    (hserved w wallet hsession hcached height (Or.inl rfl))

/-- For an armed session, every advertised tip can be fetched if and only if the real tip is
still below the target. -/
theorem advertised_fetchable_iff (hsession : ArmedSession env p w source wallet target)
    (hcached : (w.pm p).cachedChainTip = some (realHeight, realHex))
    (hvalid : decodeHeader headers realHex = .ok tip) :
    (∀ height hex, Advertises libs headers env p w source wallet height hex →
      Fetchable libs headers env p realHeight realHex tip source target height hex) ↔
      realHeight < target := by
  constructor
  · intro h
    refine Nat.lt_of_not_le fun hle => ?_
    obtain ⟨height, hex, hadvertised, hnot⟩ :=
      exists_advertises_not_fetchable hsession hcached hvalid hle
    exact hnot (h height hex hadvertised)
  · intro hlt height hex hadvertised
    obtain ⟨rfl, rfl⟩ := hadvertised.eq_target hsession hcached hvalid hlt
    refine ⟨chainAbove headers tip, rfl, chainAbove_prevBlockhash tip, rfl, ?_⟩
    intro w' wallet' hsession' hcached' k hk
    exact servesHeader_of_le hsession' hcached' hvalid (by omega) (by omega)

end

theorem decodeHeader_genesisHex : decodeHeader sampleHeaders genesisHex = .ok genesisHeader := by
  decide +kernel

theorem armedSession_armedWorld {targetHeight : Nat} (h : 0 < targetHeight) (realHeight : Nat) :
    ArmedSession sampleEnv .daemon (armedWorld targetHeight realHeight) "liana" {}
      targetHeight := by
  refine ⟨rfl, ?_⟩
  unfold virtualTipHeight
  exact if_pos ⟨by decide, rfl, h⟩

/-- With the target at 100 and the real tip at 105, the session is told the height 106, and
its header is not served. -/
theorem advertised_above_target_not_fetchable :
    ∃ hex, Advertises (sampleLibs []) sampleHeaders sampleEnv .daemon (armedWorld 100 105)
        "liana" {} 106 hex ∧
      ¬ Fetchable (sampleLibs []) sampleHeaders sampleEnv .daemon 105 genesisHex genesisHeader
        "liana" 100 106 hex := by
  have hsession := armedSession_armedWorld (by decide : 0 < 100) 105
  refine ⟨_, .answer ⟨none, "blockchain.headers.subscribe", none, .null⟩ "" {} _ _ _ rfl
    (run_headersSubscribe hsession rfl rfl "" {}
      (headerHexAt_eq decodeHeader_genesisHex (by decide))), ?_⟩
  rintro ⟨chain, -, -, -, hserved⟩
  exact not_servesHeader hsession rfl (Or.inl (by decide)) _
    (hserved _ _ hsession rfl 106 (Or.inl rfl))

theorem advertised_fetchable_iff_armedWorld :
    (∀ height hex, Advertises (sampleLibs []) sampleHeaders sampleEnv .daemon
        (armedWorld 107 105) "liana" {} height hex →
      Fetchable (sampleLibs []) sampleHeaders sampleEnv .daemon 105 genesisHex genesisHeader
        "liana" 107 height hex) ↔ 105 < 107 :=
  advertised_fetchable_iff (armedSession_armedWorld (by decide) 105) rfl decodeHeader_genesisHex

end BroadcastPool
