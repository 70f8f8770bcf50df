import BroadcastPool.Api.Import
import BroadcastPool.Life
import BroadcastPool.Lib.Outcome
import BroadcastPool.ElectrumServer.Session
import BroadcastPool.Proofs.Mempool.Obligations
import BroadcastPool.Proofs.Content
import BroadcastPool.Proofs.Electrum.Crash

/-!
# `BroadcastPool.Proofs.Import`: what can be sent of what is accepted

A transaction enters the pool through the dashboard, the command line or a wallet. Each of them
accepts a text by a test of its own, and the broadcast decodes the stored text by one more, which
takes hex digits only. A wallet's text is trimmed before it is stored, the dashboard's is not. The
decoder of transactions ignores what comes after one. The command line does not decode at all.

`stores_sendable_iff` says for each entrance which of the texts it accepts can be sent.
-/

set_option autoImplicit false

namespace BroadcastPool

open Effects

/-- A way into the pool, with what comes with the text. -/
inductive Entrance
  | dashboard (label : Option String) (targetFeeRate : Option F64) (network : Option String)
  | cli (network : String) (label : Option String) (scheduledTime : Option DateTime)
  | wallet (sourceLabel : String)

namespace Entrance
variable (env : Env)

/-- The answer of the dashboard, as the end of the call. -/
def answered : Except (Api.StatusCode × String) BroadcastTx → M Unit
  | .ok _ => pure ()
  | .error (_, text) => bail text

/-- What is done with a text. A wallet gets its answer from the preview, and the rest is done
afterwards. -/
def prog : Entrance → String → M Unit
  | dashboard label targetFeeRate network, txHex => do
    let reply ← Api.importTransaction env { txHex, label, targetFeeRate, network }
    answered reply
  | cli network label scheduledTime, txHex => importCommand env txHex network label scheduledTime
  | wallet sourceLabel, txHex =>
    match quickBroadcastPreview env txHex with
    | .error e => bail e
    | .ok _ => walletBroadcast env txHex sourceLabel

/-- The text passes the test of the entrance. -/
def Accepts : Entrance → String → Prop
  | dashboard .., txHex => isUnsigned env txHex = .ok false
  | cli .., txHex => (Text.hexDecode txHex).isSome
  | wallet _, txHex => ∃ txid, quickBroadcastPreview env txHex = .ok txid

/-- The txid in the answer. The dashboard answers with the row, which has no txid yet, and the
command line with its id. -/
def reported : Entrance → String → Option String
  | wallet _, txHex => (quickBroadcastPreview env txHex).toOption
  | _, _ => none

/-- The text that is stored. -/
def stored : Entrance → String → String
  | wallet _, txHex => Text.trim txHex
  | _, txHex => txHex

end Entrance

/-- The text can be sent: the broadcast decodes it, to the bytes of one transaction, and it is the
transaction that was reported. -/
def HexSendable (env : Env) (encode : Transaction → List UInt8) (txHex : String)
    (reported : Option String) : Prop :=
  ∃ raw tx rest, Text.hexDecode txHex = some raw ∧ env.consensusDecode raw = some (tx, rest) ∧
    encode tx = raw ∧ ∀ txid, reported = some txid → txid = env.electrumTxid tx

/-- Every row that is stored for the text can be sent. -/
def StoresSendable (env : Env) (encode : Transaction → List UInt8) (e : Entrance)
    (txHex : String) : Prop :=
  ∀ l o, (e.prog env txHex).Path anyAnswer l o → ∀ row, ⟨.insert row, .ok ()⟩ ∈ l →
    HexSendable env encode (row.hex env) (e.reported env txHex)

/-- A transaction that is decoded is encoded to the bytes that were read. -/
def Env.DecodesExactly (env : Env) (encode : Transaction → List UInt8) : Prop :=
  ∀ raw tx rest, env.consensusDecode raw = some (tx, rest) → raw = encode tx ++ rest

/-- Nothing comes after the transaction. -/
def NothingAfter (env : Env) (txHex : String) : Prop :=
  ∀ raw tx rest, Text.hexDecode (Text.trim txHex) = some raw →
    env.consensusDecode raw = some (tx, rest) → rest = []

/-- What an entrance would have to ask besides its test: the dashboard that no white space is
around the text, the command line that it is a transaction, and all three that nothing comes after
the transaction. -/
def Entrance.Clean (env : Env) : Entrance → String → Prop
  | dashboard .., txHex => Text.trim txHex = txHex ∧ NothingAfter env txHex
  | cli .., txHex => (∃ tx, decodeTx env txHex = .ok tx) ∧ NothingAfter env txHex
  | wallet _, txHex => NothingAfter env txHex

variable {env : Env}

/-! ### What is stored -/

/-- A row that is inserted holds the text. -/
def InsertsHex (env : Env) (txHex : String) (a : Act) : Prop :=
  ∀ row, a = .insert row → row.hex env = txHex

/-- An encoded text is used with the nonce it is encoded with. -/
theorem uses_encode_bind {α : Type} {P : Act → Prop} {plaintext aad : String} {f : String → M α}
    (hnonce : P .nonce) (hf : ∀ nonce, (f (encodeField env nonce plaintext aad)).Uses P) :
    ((encode env plaintext aad).bind f).Uses P :=
  (Prog.uses_act_iff Act.nonce _).2 ⟨hnonce, hf⟩

theorem work_importTransaction_hex (hseal : env.SealOpens) (newTx : NewBroadcastTx) :
    IsWork (InsertsHex env newTx.txHex) (importTransaction env newTx) := by
  refine Prog.uses_bind (work_basic rfl) fun id => ?_
  refine Prog.uses_bind (clock_nowText env).work fun now => ?_
  refine uses_encode_bind (Or.inl rfl) fun nonce => ?_
  refine Prog.uses_bind (clock_encode? env _ _).work fun encDest => ?_
  refine Prog.uses_bind (clock_encode? env _ _).work fun encSource => ?_
  refine Prog.uses_ensure_bind fun hlt => ?_
  refine Prog.uses_bind (uses_orFail _ (work_act fun row hrow => ?_)) fun _ =>
    (quiet_getBroadcastTxById id).work
  cases hrow
  exact decOrRaw_encodeField hseal nonce newTx.txHex id

theorem work_ingestTask_hex (hseal : env.SealOpens) (txHex sourceLabel : String) :
    IsWork (InsertsHex env (Text.trim txHex)) (ingestTask env .daemon txHex sourceLabel) :=
  work_ingestTask_of_import env .daemon
    (fun network tx plan target => work_importTransaction_hex hseal
      (ingestRequest (Text.trim txHex) network sourceLabel tx plan target))
    (fun _ _ _ h => by cases h) (fun _ _ _ _ h => by cases h) fun _ _ _ h => by cases h

theorem work_walletBroadcast_hex (hseal : env.SealOpens) (txHex sourceLabel : String) :
    IsWork (InsertsHex env (Text.trim txHex)) (walletBroadcast env txHex sourceLabel) := by
  unfold walletBroadcast
  split
  · refine Prog.uses_bind (work_act fun _ h => by cases h) fun _ => ?_
    exact work_ingestTask_hex hseal txHex sourceLabel
  · exact Prog.uses_ret _

/-- An entrance inserts rows for a text that it accepts only, and they hold the text that it
stores. -/
theorem work_entrance (hseal : env.SealOpens) (e : Entrance) (txHex : String) :
    IsWork (fun a => ∀ row, a = .insert row →
      e.Accepts env txHex ∧ row.hex env = e.stored txHex) (e.prog env txHex) := by
  have hmono : ∀ {α : Type} {prog : M α}, e.Accepts env txHex →
      IsWork (InsertsHex env (e.stored txHex)) prog →
      IsWork (fun a => ∀ row, a = .insert row →
        e.Accepts env txHex ∧ row.hex env = e.stored txHex) prog :=
    fun haccepts hprog => Prog.Uses.mono
      (fun _ ha => ha.imp id fun hhex row hrow => ⟨haccepts, hhex row hrow⟩) hprog
  -- An `INSERT` stands behind the check of its entrance: the signature, the hex text, the preview.
  cases e with
  | dashboard label targetFeeRate network =>
    refine Prog.uses_bind ?_ fun reply => ?_
    · refine Prog.uses_bind (work_basic rfl) fun config => ?_
      cases config with
      | error e => exact Prog.uses_ret _
      | ok config =>
        cases hunsigned : isUnsigned env txHex with
        | error e => exact Prog.uses_ret _
        | ok unsigned =>
          cases unsigned with
          | true => exact Prog.uses_ret _
          | false =>
            refine Prog.uses_bind (uses_catchErr (hmono hunsigned ?_)) fun reply => ?_
            · exact work_importTransaction_hex hseal
                (Api.ImportRequest.newTx { txHex, label, targetFeeRate, network } config.network)
            · cases reply <;> exact Prog.uses_ret _
    · cases reply with
      | ok tx => exact Prog.uses_ret _
      | error e => exact Prog.uses_fail _
  | cli network label scheduledTime =>
    show IsWork _ (importCommand env txHex network label scheduledTime)
    unfold importCommand importRawTxHex
    cases hraw : Text.hexDecode txHex with
    | none => exact Prog.uses_fail _
    | some raw =>
      have haccepts : (Entrance.cli network label scheduledTime).Accepts env txHex :=
        Option.isSome_iff_exists.2 ⟨raw, hraw⟩
      refine Prog.uses_bind (hmono haccepts ?_) fun imported => ?_
      · exact work_importTransaction_hex hseal
          { txHex, network, sourceLabel := label, utxoCount := some 1, scheduledTime }
      · split
        · refine Prog.uses_bind (work_scheduleTransaction env .cli ?_) fun _ => Prog.uses_ret _
          intro _ _ _ row hrow
          cases hrow
        · exact Prog.uses_ret _
  | wallet sourceLabel =>
    cases hpreview : quickBroadcastPreview env txHex with
    | error e =>
      have hprog : (Entrance.wallet sourceLabel).prog env txHex = bail e := by
        simp only [Entrance.prog, hpreview]
      rw [hprog]
      exact Prog.uses_fail _
    | ok txid =>
      have hprog : (Entrance.wallet sourceLabel).prog env txHex =
          walletBroadcast env txHex sourceLabel := by
        simp only [Entrance.prog, hpreview]
      rw [hprog]
      exact hmono ⟨txid, hpreview⟩
        (work_walletBroadcast_hex hseal txHex sourceLabel)

/-- A preview decodes the transaction. -/
theorem decodeTx_of_preview {txHex txid : String}
    (h : quickBroadcastPreview env txHex = .ok txid) :
    ∃ tx, decodeTx env (Text.trim txHex) = .ok tx ∧ txid = env.electrumTxid tx := by
  unfold quickBroadcastPreview at h
  split at h
  · cases h
  · unfold computeTxid at h
    cases htx : decodeTx env (Text.trim txHex) with
    | error e =>
      rw [htx] at h
      cases h
    | ok tx =>
      rw [htx] at h
      cases h
      exact ⟨tx, rfl, rfl⟩

/-! ### What can be stored -/

/-- A row is inserted. -/
def IsInsert (s : Seen Act Act.Res) : Prop := ∃ row, s = ⟨.insert row, .ok ()⟩

theorem exists_anyAnswer (a : Act) : ∃ r, anyAnswer a r :=
  ⟨(World.exec sampleEnv a sampleWorld).1, rfl⟩

theorem reaches_importTransaction (newTx : NewBroadcastTx)
    (hlock : newTx.nlocktime.getD 0 < 2 ^ 63) :
    (importTransaction env newTx).Reaches anyAnswer IsInsert := by
  have hnonce : ∀ {s : Option String} {aad : String},
      ∃ t, (encode? env s aad).Ends anyAnswer (.ok t) := by
    intro s aad
    cases s with
    | none => exact ⟨none, Prog.ends_ret_iff.2 rfl⟩
    | some s => exact ⟨_, Prog.ends_bind_ok_iff.2 ⟨encodeField env 0 s aad,
        Prog.ends_bind_ok_iff.2 ⟨0, ends_act (a := .nonce) rfl, Prog.ends_ret_iff.2 rfl⟩,
        Prog.ends_ret_iff.2 rfl⟩⟩
  obtain ⟨encDest, hdest⟩ := @hnonce newTx.destinationAddress ""
  obtain ⟨encSource, hsource⟩ := @hnonce newTx.sourceLabel ""
  refine Prog.reaches_bind_right (ends_act (a := .uuid) (r := "") rfl) ?_
  refine Prog.reaches_bind_right (a := env.toRfc3339 0) (Prog.ends_bind_ok_iff.2
    ⟨(0 : DateTime), ends_act (a := .now) rfl, Prog.ends_ret_iff.2 rfl⟩) ?_
  refine Prog.reaches_bind_right (a := encodeField env 0 newTx.txHex "") (Prog.ends_bind_ok_iff.2
    ⟨(0 : Nat), ends_act (a := .nonce) rfl, Prog.ends_ret_iff.2 rfl⟩) ?_
  refine Prog.reaches_bind_right hdest (Prog.reaches_bind_right hsource ?_)
  have hensure : (ensure (newTx.nlocktime.getD 0 < 2 ^ 63) "Failed to insert broadcast tx").Ends
      anyAnswer (.ok ()) := by
    unfold ensure Prog.ensure
    rw [if_pos hlock]
    exact Prog.ends_ret_iff.2 rfl
  refine Prog.reaches_bind_right hensure ?_
  refine Prog.reaches_bind_left exists_anyAnswer (Prog.reaches_bind_left exists_anyAnswer ?_)
  exact Prog.reaches_perform (r := .ok ()) rfl ⟨_, rfl⟩

/-- A configuration of manual broadcasts decides every plan without a draw. -/
theorem exists_resolveIngestPlan (sourceLabel : String) (nlocktime : Nat) :
    ∃ plan, (resolveIngestPlan env sourceLabel nlocktime
      { network := "", schedule := { broadcastMode := .manual } } none).Ends anyAnswer
        (.ok plan) := by
  unfold resolveIngestPlan
  split
  · exact ⟨(.manual, none), Prog.ends_ret_iff.2 rfl⟩
  · split
    · exact ⟨(.manual, none), Prog.ends_ret_iff.2 rfl⟩
    · split
      · exact ⟨(.scheduled, some (nlocktime * 1000000000)), Prog.ends_ret_iff.2 rfl⟩
      · split
        · -- No height is known, and so none is at or above the lock time.
          exact ⟨(.byBlock, none), Prog.ends_ret_iff.2 rfl⟩
        · exact ⟨(.manual, none), Prog.ends_ret_iff.2 rfl⟩

theorem ends_captureVirtualBlock (p : Proc) (mode : BroadcastMode) (sourceLabel : String) :
    (captureVirtualBlock p mode sourceLabel).Ends anyAnswer (.ok none) := by
  unfold captureVirtualBlock
  split
  · exact Prog.ends_bind_ok_iff.2
      ⟨.ok none, ends_act (a := .advanceVirtualBlock p) rfl, Prog.ends_ret_iff.2 rfl⟩
  · exact Prog.ends_ret_iff.2 rfl

theorem reaches_handleBroadcast (hlock : env.DecodesLockTimes) (p : Proc)
    {txHex sourceLabel : String} {tx : Transaction}
    (htx : decodeTx env (Text.trim txHex) = .ok tx) :
    (handleBroadcast env p txHex sourceLabel).Reaches anyAnswer IsInsert := by
  have hconfig : (orRaise (perform (.lockConfig p))).Ends anyAnswer
      (.ok { network := "", schedule := { broadcastMode := .manual } }) :=
    ends_lockConfig rfl
  obtain ⟨plan, hplan⟩ := @exists_resolveIngestPlan env sourceLabel tx.lockTime
  unfold handleBroadcast
  simp only [htx]
  refine Prog.reaches_bind_right (a := "") (Prog.ends_bind_ok_iff.2
    ⟨_, hconfig, Prog.ends_ret_iff.2 rfl⟩) ?_
  refine Prog.reaches_bind_right (ends_act (a := .chainHealth p) (r := ({} : ChainHealth)) rfl) ?_
  refine Prog.reaches_bind_right hconfig (Prog.reaches_bind_right hplan ?_)
  refine Prog.reaches_bind_right (ends_captureVirtualBlock p plan.1 sourceLabel) ?_
  refine Prog.reaches_bind_left exists_anyAnswer (reaches_importTransaction _ ?_)
  -- Without a virtual block the row gets the lock time of the transaction, which has 32 bits.
  have hlt : tx.lockTime < 2 ^ 32 := lockTime_lt hlock htx
  show ((none : Option Nat).or (if 0 < tx.lockTime then some tx.lockTime else none)).getD 0 <
    2 ^ 63
  have hnone : (none : Option Nat).or (if 0 < tx.lockTime then some tx.lockTime else none) =
      if 0 < tx.lockTime then some tx.lockTime else none := rfl
  rw [hnone]
  split
  · simp only [Option.getD_some]
    omega
  · simp only [Option.getD_none]
    omega

theorem reaches_walletBroadcast (hlock : env.DecodesLockTimes) {txHex sourceLabel : String}
    {tx : Transaction} (htx : decodeTx env (Text.trim txHex) = .ok tx) :
    (walletBroadcast env txHex sourceLabel).Reaches anyAnswer IsInsert := by
  have htxid : computeTxid env (Text.trim txHex) = .ok (env.electrumTxid tx) := by
    simp only [computeTxid, htx]
    rfl
  unfold walletBroadcast
  simp only [htxid]
  refine Prog.reaches_bind_right (a := ()) (ends_act rfl) ?_
  refine Prog.reaches_bind_right (ends_act (a := .instant) (r := (0 : Nat)) rfl) ?_
  exact Prog.reaches_bind_left exists_anyAnswer
    (Prog.reaches_attempt (reaches_handleBroadcast hlock .daemon htx))

theorem reaches_insert (hlock : env.DecodesLockTimes) (e : Entrance) {txHex : String}
    (haccepts : e.Accepts env txHex) : (e.prog env txHex).Reaches anyAnswer IsInsert := by
  cases e with
  | dashboard label targetFeeRate network =>
    have hunsigned : isUnsigned env txHex = .ok false := haccepts
    refine Prog.reaches_bind_left exists_anyAnswer ?_
    unfold Api.importTransaction
    refine Prog.reaches_bind_right (ends_act (a := .lockConfig .daemon)
      (r := .ok { network := "" }) rfl) ?_
    simp only [hunsigned]
    refine Prog.reaches_bind_left exists_anyAnswer ?_
    refine Prog.reaches_bind_left exists_anyAnswer (Prog.reaches_attempt ?_)
    exact reaches_importTransaction _ (Nat.two_pow_pos 63)
  | cli network label scheduledTime =>
    obtain ⟨raw, hraw⟩ := Option.isSome_iff_exists.1 haccepts
    show (importCommand env txHex network label scheduledTime).Reaches anyAnswer IsInsert
    simp only [importCommand, importRawTxHex, hraw]
    refine Prog.reaches_bind_left exists_anyAnswer ?_
    exact reaches_importTransaction _ (Nat.two_pow_pos 63)
  | wallet sourceLabel =>
    obtain ⟨txid, hpreview⟩ := haccepts
    have hprog : (Entrance.wallet sourceLabel).prog env txHex =
        walletBroadcast env txHex sourceLabel := by
      simp only [Entrance.prog, hpreview]
    rw [hprog]
    obtain ⟨tx, htx, -⟩ := decodeTx_of_preview hpreview
    exact reaches_walletBroadcast hlock htx

/-! ### What can be sent -/

/-- The strict decoder of the broadcast takes a text exactly if it has no white space around it,
and then it reads what the other decoders read. -/
theorem hexDecode_iff {s : String} {raw : List UInt8} :
    Text.hexDecode s = some raw ↔
      Text.trim s = s ∧ Text.hexDecode (Text.trim s) = some raw := by
  constructor
  · intro h
    have htrim : Text.trim s = s := Text.trim_of_hexDecode h
    exact ⟨htrim, by rw [htrim]; exact h⟩
  · rintro ⟨htrim, h⟩
    rw [htrim] at h
    exact h

theorem exists_of_decodeTx {s : String} {tx : Transaction} (h : decodeTx env s = .ok tx) :
    ∃ raw rest, Text.hexDecode (Text.trim s) = some raw ∧
      env.consensusDecode raw = some (tx, rest) := by
  unfold decodeTx at h
  cases hraw : Text.hexDecode (Text.trim s) with
  | none => simp [hraw] at h
  | some raw =>
    cases hdec : env.consensusDecode raw with
    | none => simp [hraw, hdec] at h
    | some decoded =>
      simp only [hraw, hdec, Except.ok.injEq] at h
      exact ⟨raw, decoded.2, rfl, by rw [hdec, ← h]⟩

theorem decodeTx_of_decodes {s : String} {raw rest : List UInt8} {tx : Transaction}
    (hraw : Text.hexDecode (Text.trim s) = some raw)
    (hdec : env.consensusDecode raw = some (tx, rest)) : decodeTx env s = .ok tx := by
  simp only [decodeTx, hraw, hdec]

/-- A text can be sent exactly if it has no white space around it, is a transaction with the
reported txid, and nothing comes after the transaction. -/
theorem hexSendable_iff {encode : Transaction → List UInt8} (hexact : env.DecodesExactly encode)
    {s : String} {reported : Option String} :
    HexSendable env encode s reported ↔ Text.trim s = s ∧
      (∃ tx, decodeTx env s = .ok tx ∧ ∀ txid, reported = some txid →
        txid = env.electrumTxid tx) ∧ NothingAfter env s := by
  constructor
  · rintro ⟨raw, tx, rest, hraw, hdec, hencode, hreported⟩
    obtain ⟨htrim, hraw'⟩ := hexDecode_iff.1 hraw
    refine ⟨htrim, ⟨tx, decodeTx_of_decodes hraw' hdec, hreported⟩, ?_⟩
    intro raw₂ tx₂ rest₂ hraw₂ hdec₂
    cases hraw'.symm.trans hraw₂
    cases hdec.symm.trans hdec₂
    have happend : raw = encode tx ++ rest := hexact raw tx rest hdec
    rw [hencode] at happend
    exact List.self_eq_append_right.1 happend
  · rintro ⟨htrim, ⟨tx, htx, hreported⟩, hafter⟩
    obtain ⟨raw, rest, hraw, hdec⟩ := exists_of_decodeTx htx
    refine ⟨raw, tx, rest, hexDecode_iff.2 ⟨htrim, hraw⟩, hdec, ?_, hreported⟩
    have happend : raw = encode tx ++ rest := hexact raw tx rest hdec
    rw [hafter raw tx rest hraw hdec, List.append_nil] at happend
    exact happend.symm

/-- What an entrance stores of a text that it accepts can be sent exactly if the text is clean. -/
theorem hexSendable_stored_iff {encode : Transaction → List UInt8}
    (hexact : env.DecodesExactly encode) {e : Entrance} {txHex : String}
    (haccepts : e.Accepts env txHex) :
    HexSendable env encode (e.stored txHex) (e.reported env txHex) ↔ e.Clean env txHex := by
  rw [hexSendable_iff hexact]
  -- What each entrance leaves open: the dashboard stores the text as it came, though it has decoded
  -- the trimmed one, the command line decodes nothing, and the wallet stores the trimmed text.
  cases e with
  | dashboard label targetFeeRate network =>
    have hdecodes : ∃ tx, decodeTx env txHex = .ok tx := by
      have hunsigned : isUnsigned env txHex = .ok false := haccepts
      cases htx : decodeTx env txHex with
      | ok tx => exact ⟨tx, rfl⟩
      | error e =>
        rw [isUnsigned, htx] at hunsigned
        cases hunsigned
    obtain ⟨tx, htx⟩ := hdecodes
    have hreported : ∃ tx, decodeTx env txHex = .ok tx ∧ ∀ txid, (none : Option String) =
        some txid → txid = env.electrumTxid tx := ⟨tx, htx, fun _ h => by cases h⟩
    exact and_congr_right fun _ => and_iff_right hreported
  | cli network label scheduledTime =>
    obtain ⟨raw, hraw⟩ := Option.isSome_iff_exists.1 haccepts
    have htrim : Text.trim txHex = txHex := Text.trim_of_hexDecode hraw
    refine (and_iff_right htrim).trans (and_congr_left fun _ => ?_)
    exact exists_congr fun tx => and_iff_left fun _ h => by cases h
  | wallet sourceLabel =>
    obtain ⟨txid, hpreview⟩ := haccepts
    obtain ⟨tx, htx, htxid⟩ := decodeTx_of_preview hpreview
    obtain ⟨raw, rest, hraw, -⟩ := exists_of_decodeTx htx
    have htrim : Text.trim (Text.trim txHex) = Text.trim txHex := by
      cases hhex : Text.hexDecode (Text.trim txHex) with
      | none => simp [quickBroadcastPreview, hhex] at hpreview
      | some raw => exact Text.trim_of_hexDecode hhex
    have hreported : ∃ tx, decodeTx env (Text.trim txHex) = .ok tx ∧
        ∀ txid', (quickBroadcastPreview env txHex).toOption = some txid' →
          txid' = env.electrumTxid tx := by
      refine ⟨tx, htx, fun txid' h => ?_⟩
      rw [hpreview] at h
      cases h
      exact htxid
    refine (and_iff_right htrim).trans ((and_iff_right hreported).trans ?_)
    show NothingAfter env (Text.trim txHex) ↔ NothingAfter env txHex
    unfold NothingAfter
    rw [htrim]

section
variable {encode : Transaction → List UInt8}

/-- If all that an entrance can store of an accepted text can be sent, the text is clean. -/
theorem clean_of_storesSendable (hseal : env.SealOpens) (hexact : env.DecodesExactly encode)
    (hlock : env.DecodesLockTimes) {e : Entrance} {txHex : String}
    (hstores : StoresSendable env encode e txHex) (haccepts : e.Accepts env txHex) :
    e.Clean env txHex := by
  obtain ⟨l, o, hpath, s, hs, row, rfl⟩ := reaches_insert hlock e haccepts
  have hstored : row.hex env = e.stored txHex := by
    rcases (work_entrance hseal e txHex).path hpath _ hs with hbasic | hinsert
    · cases hbasic
    · exact (hinsert row rfl).2
  have hsend := hstores l o hpath row hs
  rw [hstored] at hsend
  exact (hexSendable_stored_iff hexact haccepts).1 hsend

/-- Every row that an entrance stores for a text can be sent exactly if the text is clean or is
not accepted. -/
theorem stores_sendable_iff (hseal : env.SealOpens) (hexact : env.DecodesExactly encode)
    (hlock : env.DecodesLockTimes) (e : Entrance) (txHex : String) :
    StoresSendable env encode e txHex ↔ (e.Accepts env txHex → e.Clean env txHex) := by
  constructor
  · exact clean_of_storesSendable hseal hexact hlock
  · intro hclean l o hpath row hs
    rcases (work_entrance hseal e txHex).path hpath _ hs with hbasic | hinsert
    · cases hbasic
    · obtain ⟨haccepts, hstored⟩ := hinsert row rfl
      rw [hstored]
      exact (hexSendable_stored_iff hexact haccepts).2 (hclean haccepts)

end

/-- A transaction with one signed input, in one byte. -/
def signedTx (b : UInt8) : Transaction where
  version := b.toNat
  lockTime := 0
  input := [{ prevTxid := "", vout := 0, scriptSig := [b], witness := [], sequence := 0 }]
  output := []

/-- The first byte is a signed transaction, and what comes after it is not read. -/
def signedEnv : Env :=
  { sampleEnv with
    consensusDecode := fun raw => raw.head?.map fun b => (signedTx b, raw.tail) }

/-- The encoder for it. -/
def encodeSigned (tx : Transaction) : List UInt8 := [UInt8.ofNat tx.version.toNat]

theorem sealOpens_signedEnv : signedEnv.SealOpens := fun _ _ _ => rfl

theorem decodesExactly_signedEnv : signedEnv.DecodesExactly encodeSigned := by
  intro raw tx rest h
  cases raw with
  | nil => cases h
  | cons b raw =>
    cases h
    simp [encodeSigned, signedTx]

theorem decodesLockTimes_signedEnv : signedEnv.DecodesLockTimes := by
  intro raw tx rest h
  cases raw with
  | nil => cases h
  | cons b raw =>
    cases h
    exact Nat.two_pow_pos 32

/-- The dashboard stores `07` as it came. -/
theorem stores_sendable_iff_clean :
    StoresSendable signedEnv encodeSigned (.dashboard none none none) "07" := by
  refine (stores_sendable_iff sealOpens_signedEnv decodesExactly_signedEnv
    decodesLockTimes_signedEnv (.dashboard none none none) "07").2 fun _ => ⟨by decide, ?_⟩
  intro raw tx rest hraw hdec
  cases (show some [7] = some raw from hraw)
  cases hdec
  rfl

/-- It accepts `07` with a line break behind it, and stores what the broadcast cannot decode. -/
theorem stores_untrimmed :
    ¬ StoresSendable signedEnv encodeSigned (.dashboard none none none) "07\n" := by
  intro hstores
  have haccepts : (Entrance.dashboard none none none).Accepts signedEnv "07\n" := by
    show isUnsigned signedEnv "07\n" = .ok false
    decide
  have hclean : (Entrance.dashboard none none none).Clean signedEnv "07\n" :=
    clean_of_storesSendable sealOpens_signedEnv decodesExactly_signedEnv
      decodesLockTimes_signedEnv hstores haccepts
  exact absurd hclean.1 (by decide)

end BroadcastPool
