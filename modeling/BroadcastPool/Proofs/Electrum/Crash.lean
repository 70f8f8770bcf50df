import BroadcastPool.Proofs.Electrum.ByteStream

/-!
# `BroadcastPool.Proofs.Electrum.Crash`: which bytes make a session panic

`handle_broadcast` runs on the hex of a broadcast. It panics where a debug line cuts the text
inside a character, and where it draws a delay from a configuration whose delays are too long
to be a duration (`canPanic_handleBroadcastLogged_iff`). The hex that a session hands on is ASCII,
so that only the delays are left there (`broadcastSafe_of_preview`). Together with the stream of
bytes this gives the exact condition under which nothing that a wallet sends makes the server
panic (`handledWithoutPanic_iff`).
-/

set_option autoImplicit false

namespace BroadcastPool

open Effects

variable {env : Env} {libs : ElectrumLibs} {config : Config} {p : Proc}
  {settings : SessionSettings} {headers : HeaderLibs} {α β : Type}

/-! ### The delay of a scheduled broadcast -/

/-- A number of hours that is a duration. -/
def HoursFit (h : Int) : Prop := -9223372036854775 ≤ 3600 * h ∧ 3600 * h ≤ 9223372036854775

/-- Every delay that can be drawn is a duration. -/
def DelaysFit (schedule : ScheduleConfig) : Prop :=
  ∀ n, schedule.minDelayHours ≤ n → n ≤ max schedule.maxDelayHours schedule.minDelayHours →
    HoursFit (asI64 n)

/-- The plan of `resolve_broadcast_plan` needs a random delay. -/
def PlanDrawsDelay (env : Env) (schedule : ScheduleConfig) : Prop :=
  schedule.broadcastMode = .scheduled ∧
    (schedule.scheduledDatetime.bind fun s =>
      (env.parseRfc3339 s).or (env.parseNaive s)) = none

/-- The plan of a broadcast needs a random delay: no rule about the wallet or the time lock
decides it. -/
def DrawsDelay (env : Env) (schedule : ScheduleConfig) (sourceLabel : String)
    (nlocktime : Nat) : Prop :=
  sourceLabel ≠ "liana" ∧ ¬ (sourceLabel = "sparrow" ∧ nlocktime = 0) ∧
    (nlocktime = 0 ∨ nlocktime = 500000000) ∧ PlanDrawsDelay env schedule

section
variable {answers : (a : Act) → a.Res → Prop}

theorem canPanic_durationHours_iff {h : Int} :
    CanPanic answers (durationHours h) ↔ ¬ HoursFit h := by
  unfold durationHours
  split
  · rename_i hfit
    exact iff_of_false (not_canPanic_ret _) (not_not.2 hfit)
  · rename_i hover
    exact iff_of_true (canPanic_fail _) hover

theorem panicFree_genRange (lo hi : Nat) : PanicFree answers (genRange lo hi) :=
  Prog.within_seq (within_act _) fun _ => Prog.within_ret _

/-- The clock shows any time, and a random draw gives any number. -/
structure FreeDraws (answers : (a : Act) → a.Res → Prop) : Prop where
  random : ∀ n, answers .random n
  now : ∀ t, answers .now t

/-- A draw gives a number of its range. -/
theorem range_of_ends_genRange {lo hi n : Nat} (h : lo ≤ hi)
    (hends : (genRange lo hi).Ends answers (.ok n)) : lo ≤ n ∧ n ≤ hi := by
  obtain ⟨r, -, hret⟩ := Prog.ends_bind_ok_iff.1 hends
  cases Prog.ends_ret_iff.1 hret
  have hle : Nat.mod r (hi - lo + 1) ≤ hi - lo :=
    Nat.le_of_lt_succ (Nat.mod_lt _ (Nat.succ_pos _))
  exact ⟨Nat.le_add_right _ _, (Nat.add_le_add_left hle lo).trans_eq (Nat.add_sub_cancel' h)⟩

/-- A draw gives any number of its range, and no other. -/
theorem ends_genRange_iff (hfree : FreeDraws answers) {lo hi n : Nat} (h : lo ≤ hi) :
    (genRange lo hi).Ends answers (.ok n) ↔ lo ≤ n ∧ n ≤ hi := by
  constructor
  · exact range_of_ends_genRange h
  · rintro ⟨hlo, hhi⟩
    refine Prog.ends_bind_ok_iff.2 ⟨n - lo,
      Prog.ends_perform_iff.2 ⟨n - lo, hfree.random _, rfl⟩, Prog.ends_ret_iff.2 ?_⟩
    rw [Nat.mod_eq_of_lt (by omega), Nat.add_sub_cancel' hlo]

theorem ends_act {a : Act} {r : a.Res} (h : answers a r) :
    (perform a).Ends answers (.ok r) :=
  Prog.ends_perform_iff.2 ⟨r, h, rfl⟩

theorem canPanic_resolveBroadcastPlan_iff (hfree : FreeDraws answers) (env' : Env) :
    CanPanic answers (resolveBroadcastPlan env' config) ↔
      PlanDrawsDelay env' config.schedule ∧ ¬ DelaysFit config.schedule := by
  unfold resolveBroadcastPlan PlanDrawsDelay
  cases hmode : config.schedule.broadcastMode with
  | immediate =>
    refine iff_of_false (panicFree_iff.1 ?_) fun h => by cases h.1.1
    exact Prog.within_seq (within_act _) fun _ => Prog.within_ret _
  | byBlock | manual =>
    exact iff_of_false (not_canPanic_ret _) fun h => by cases h.1.1
  | scheduled =>
    cases hdatetime : config.schedule.scheduledDatetime.bind fun s =>
        (env'.parseRfc3339 s).or (env'.parseNaive s) with
    | some dt => exact iff_of_false (not_canPanic_ret _) fun h => by cases h.1.2
    | none =>
      dsimp only
      rw [Prog.bind_eq, canPanic_seq_iff (panicFree_genRange _ _),
        and_iff_right ⟨rfl, rfl⟩]
      constructor
      · rintro ⟨delay, hdelay, hpanic⟩ hfits
        obtain ⟨hlo, hhi⟩ := range_of_ends_genRange (Nat.le_max_right _ _) hdelay
        obtain ⟨now, -, hpanic⟩ := (canPanic_seq_iff (within_act _)).1 hpanic
        rcases canPanic_bind_iff.1 hpanic with hpanic | ⟨duration, -, hpanic⟩
        · exact canPanic_durationHours_iff.1 hpanic (hfits delay hlo hhi)
        · exact not_canPanic_ret _ hpanic
      · intro hunfit
        simp only [DelaysFit, not_forall] at hunfit
        obtain ⟨delay, hlo, hhi, hover⟩ := hunfit
        refine ⟨delay, (ends_genRange_iff hfree (Nat.le_max_right _ _)).2 ⟨hlo, hhi⟩, ?_⟩
        refine (canPanic_seq_iff (within_act _)).2 ⟨(0 : DateTime), ends_act (hfree.now _), ?_⟩
        exact canPanic_bind_iff.2 (Or.inl (canPanic_durationHours_iff.2 hover))

end

theorem freeDraws_expected : FreeDraws (expected env libs config) :=
  ⟨fun _ => trivial, fun _ => trivial⟩

/-- The plan of a broadcast panics exactly if it draws a delay that may be no duration. -/
theorem canPanic_resolveIngestPlan_iff (sourceLabel : String) (nlocktime : Nat)
    (chainHeight : Option Nat) :
    CanPanic (expected env libs config)
        (resolveIngestPlan env sourceLabel nlocktime config chainHeight) ↔
      DrawsDelay env config.schedule sourceLabel nlocktime ∧ ¬ DelaysFit config.schedule := by
  unfold resolveIngestPlan DrawsDelay
  by_cases hliana : sourceLabel = "liana"
  · rw [if_pos hliana]
    refine iff_of_false (panicFree_iff.1 ?_) fun h => h.1.1 hliana
    split <;> exact Prog.within_ret _
  rw [if_neg hliana]
  by_cases hsparrow : sourceLabel = "sparrow" ∧ nlocktime = 0
  · rw [if_pos hsparrow]
    exact iff_of_false (not_canPanic_ret _) fun h => h.1.2.1 hsparrow
  rw [if_neg hsparrow]
  by_cases htime : 500000000 < nlocktime
  · rw [if_pos htime]
    exact iff_of_false (not_canPanic_ret _) fun h => by omega
  rw [if_neg htime]
  by_cases hheight : 0 < nlocktime ∧ nlocktime < 500000000
  · rw [if_pos hheight]
    refine iff_of_false (panicFree_iff.1 ?_) fun h => by omega
    split
    · exact Prog.within_seq (within_act _) fun _ => Prog.within_ret _
    · exact Prog.within_ret _
  rw [if_neg hheight, canPanic_resolveBroadcastPlan_iff freeDraws_expected]
  have hlock : nlocktime = 0 ∨ nlocktime = 500000000 := by omega
  tauto

/-! ### The rest of a broadcast -/

section
variable {answers : (a : Act) → a.Res → Prop}

theorem neverFails_nowText : (nowText env).NeverFails answers :=
  Prog.within_seq (within_act _) fun _ => Prog.within_ret _

theorem neverFails_encode (plaintext aad : String) :
    (encode env plaintext aad).NeverFails answers :=
  Prog.within_seq (within_act _) fun _ => Prog.within_ret _

theorem neverFails_encode? (plaintext : Option String) (aad : String) :
    (encode? env plaintext aad).NeverFails answers := by
  cases plaintext with
  | none => exact Prog.within_ret _
  | some s => exact Prog.within_seq (neverFails_encode s aad) fun _ => Prog.within_ret _

theorem panicFree_getBroadcastTxById (id : String) :
    PanicFree answers (getBroadcastTxById id) := by
  refine Prog.within_seq (within_orFail trivial (within_act _)) fun txs => ?_
  cases txs with
  | nil => exact Prog.within_fail trivial
  | cons tx txs => exact Prog.within_ret _

theorem panicFree_importTransaction (newTx : NewBroadcastTx) :
    PanicFree answers (importTransaction env newTx) := by
  refine Prog.within_seq (within_act _) fun id => ?_
  refine Prog.within_seq (panicFree_of_neverFails neverFails_nowText) fun now => ?_
  refine Prog.within_seq (panicFree_of_neverFails (neverFails_encode _ _)) fun encTxHex => ?_
  refine Prog.within_seq (panicFree_of_neverFails (neverFails_encode? _ _)) fun encDest => ?_
  refine Prog.within_seq (panicFree_of_neverFails (neverFails_encode? _ _)) fun encSource => ?_
  refine Prog.within_seq (Prog.within_ensure _ trivial) fun _ => ?_
  exact Prog.within_seq (within_orFail trivial (within_act _))
    fun _ => panicFree_getBroadcastTxById _

theorem panicFree_markDue (id : String) : PanicFree answers (markDue env id) := by
  refine Prog.within_seq (panicFree_of_neverFails neverFails_nowText) fun now => ?_
  exact Prog.within_seq (within_orFail trivial (within_act _))
    fun _ => within_orFail trivial (within_act _)

theorem panicFree_logErrorIf (g : Bool) {prog : M α} (h : PanicFree answers prog) :
    PanicFree answers (logErrorIf g prog) := by
  unfold logErrorIf
  split
  · exact Prog.within_seq (panicFree_of_neverFails (neverFails_catchErr h))
      fun _ => Prog.within_ret _
  · exact Prog.within_ret _

theorem panicFree_captureVirtualBlock (mode : BroadcastMode) (sourceLabel : String) :
    PanicFree answers (captureVirtualBlock p mode sourceLabel) := by
  unfold captureVirtualBlock
  split
  · exact within_orRaise (fun _ => trivial) (within_act _)
  · exact Prog.within_ret _

theorem panicFree_configNetwork : PanicFree answers (configNetwork p) :=
  Prog.within_seq (within_orRaise (fun _ => trivial) (within_act _)) fun _ => Prog.within_ret _

theorem ends_lockConfig (h : answers (.lockConfig p) (.ok config)) :
    (orRaise (perform (.lockConfig p))).Ends answers (.ok config) :=
  Prog.ends_bind_ok_iff.2 ⟨.ok config, ends_act (a := .lockConfig p) h, Prog.ends_ret_iff.2 rfl⟩

/-- The configuration that is read is the one that the lock gives. -/
theorem answers_of_ends_lockConfig {c : Config}
    (h : (orRaise (perform (.lockConfig p))).Ends answers (.ok c)) :
    answers (.lockConfig p) (.ok c) := by
  obtain ⟨answer, hanswer, hret⟩ := Prog.ends_bind_ok_iff.1 h
  obtain ⟨r, hr, hok⟩ := Prog.ends_perform_iff.1 hanswer
  cases hok
  cases answer with
  | ok c' =>
    cases Prog.ends_ret_iff.1 hret
    exact hr
  | error e => cases Prog.ends_fail_iff.1 hret

end

theorem expected_lockConfig_iff {c : Config} :
    expected env libs config (.lockConfig p) (.ok c) ↔ c = config := by
  constructor
  · exact fun h => h c rfl
  · rintro rfl c' hc
    exact (Except.ok.inj hc).symm

/-- `handle_broadcast` panics exactly if it draws a delay that may be no duration. -/
theorem canPanic_handleBroadcast_iff (txHex sourceLabel : String) :
    CanPanic (expected env libs config) (handleBroadcast env p txHex sourceLabel) ↔
      ∃ tx, decodeTx env (Text.trim txHex) = .ok tx ∧
        DrawsDelay env config.schedule sourceLabel tx.lockTime ∧
          ¬ DelaysFit config.schedule := by
  unfold handleBroadcast
  dsimp only
  cases hdecode : decodeTx env (Text.trim txHex) with
  | error e =>
    refine iff_of_false (panicFree_iff.1 (Prog.within_fail trivial)) ?_
    rintro ⟨tx, h, -⟩
    cases h
  | ok tx =>
    dsimp only
    rw [Prog.bind_eq, canPanic_seq_iff panicFree_configNetwork]
    constructor
    · rintro ⟨network, -, hpanic⟩
      obtain ⟨health, -, hpanic⟩ := (canPanic_seq_iff (within_act _)).1 hpanic
      obtain ⟨c, hconfig, hpanic⟩ := (canPanic_seq_iff
        (within_orRaise (fun _ => trivial) (within_act _))).1 hpanic
      rw [expected_lockConfig_iff.1 (answers_of_ends_lockConfig hconfig)] at hpanic
      rcases canPanic_bind_iff.1 hpanic with hplan | ⟨plan, -, hpanic⟩
      · exact ⟨tx, rfl, (canPanic_resolveIngestPlan_iff _ _ _).1 hplan⟩
      · refine absurd hpanic (panicFree_iff.1 ?_)
        refine Prog.within_seq (panicFree_captureVirtualBlock _ _) fun target => ?_
        refine Prog.within_seq (panicFree_importTransaction _) fun imported => ?_
        refine Prog.within_seq (within_act _) fun _ => ?_
        exact Prog.within_seq (panicFree_logErrorIf _ (panicFree_markDue _))
          fun _ => Prog.within_ret _
    · rintro ⟨tx', htx, hdraws⟩
      cases htx
      have hnetwork : (configNetwork p).Ends (expected env libs config) (.ok config.network) :=
        Prog.ends_bind_ok_iff.2
          ⟨config, ends_lockConfig (expected_lockConfig_iff.2 rfl), Prog.ends_ret_iff.2 rfl⟩
      refine ⟨config.network, hnetwork, ?_⟩
      refine (canPanic_seq_iff (within_act _)).2
        ⟨({} : ChainHealth), ends_act (a := .chainHealth p) trivial, ?_⟩
      refine (canPanic_seq_iff (within_orRaise (fun _ => trivial) (within_act _))).2
        ⟨config, ends_lockConfig (expected_lockConfig_iff.2 rfl), ?_⟩
      exact canPanic_bind_iff.2 (Or.inl ((canPanic_resolveIngestPlan_iff _ _ _).2 hdraws))

/-- The hex of a broadcast is cut between characters where it is logged, and every delay that
its plan can draw is a duration. -/
structure BroadcastSafe (env : Env) (settings : SessionSettings) (schedule : ScheduleConfig)
    (txHex sourceLabel : String) : Prop where
  slices : settings.logs .debug = true → CutsCleanly (Text.trim txHex) 10 ∧
    Text.isCharBoundary (Text.trim txHex).toList
      (Text.byteLength (Text.trim txHex).toList - 10) = true
  delay : ∀ tx, decodeTx env (Text.trim txHex) = .ok tx →
    DrawsDelay env schedule sourceLabel tx.lockTime → DelaysFit schedule

theorem canPanic_sliceAt_iff {answers : (a : Act) → a.Res → Prop} {s : String} {n : Nat}
    {f : Unit → M α} :
    CanPanic answers ((sliceAt s n).bind f) ↔
      ¬ Text.isCharBoundary s.toList n = true ∨ CanPanic answers (f ()) := by
  unfold sliceAt
  split
  · rename_i hboundary
    rw [or_iff_right (not_not.2 hboundary)]
    exact Iff.rfl
  · rename_i htorn
    exact iff_of_true (canPanic_fail _) (Or.inl htorn)

/-- `handle_broadcast` from its first log line on. -/
theorem canPanic_handleBroadcastLogged_iff (txHex sourceLabel : String) :
    CanPanic (expected env libs config)
        (handleBroadcastLogged settings env p txHex sourceLabel) ↔
      ¬ BroadcastSafe env settings config.schedule txHex sourceLabel := by
  have hbroadcast : CanPanic (expected env libs config)
      (handleBroadcast env p txHex sourceLabel) ↔
        ¬ ∀ tx, decodeTx env (Text.trim txHex) = .ok tx →
          DrawsDelay env config.schedule sourceLabel tx.lockTime →
            DelaysFit config.schedule := by
    rw [canPanic_handleBroadcast_iff]
    push Not
    rfl
  unfold handleBroadcastLogged
  dsimp only
  rw [Prog.bind_eq, canPanic_logSlice_iff]
  cases hdebug : settings.logs .debug with
  | false =>
    rw [if_neg Bool.false_ne_true, hbroadcast]
    constructor
    · rintro (⟨h, -⟩ | hunfit) hsafe
      · cases h
      · exact hunfit hsafe.delay
    · exact fun hbad => Or.inr fun hdelay =>
        hbad ⟨fun h => absurd (hdebug.symm.trans h) Bool.false_ne_true, hdelay⟩
  | true =>
    rw [if_pos rfl, Prog.bind_eq, canPanic_sliceAt_iff, hbroadcast, and_iff_right rfl]
    constructor
    · rintro (htorn | htorn | hunfit) hsafe
      · exact htorn (hsafe.slices hdebug).1
      · exact htorn (hsafe.slices hdebug).2
      · exact hunfit hsafe.delay
    · intro hbad
      by_contra hno
      simp only [not_or, not_not] at hno
      exact hbad ⟨fun _ => ⟨hno.1, hno.2.1⟩, hno.2.2⟩

/-- The hex that the session hands on has passed the preview, and so it is ASCII: its broadcast
is safe as soon as the delays fit. -/
theorem broadcastSafe_of_preview {schedule : ScheduleConfig} {txHex txid : String}
    (h : quickBroadcastPreview env txHex = .ok txid) (hfits : DelaysFit schedule)
    (sourceLabel : String) : BroadcastSafe env settings schedule txHex sourceLabel := by
  have hascii : Text.IsAscii (Text.trim txHex) := by
    unfold quickBroadcastPreview at h
    split at h
    · cases h
    · rename_i bytes hbytes
      exact Text.isAscii_of_hexDecode hbytes
  exact ⟨fun _ => ⟨cutsCleanly_ascii hascii 10, Text.isCharBoundary_ascii hascii (Nat.sub_le _ _)⟩,
    fun _ _ _ => hfits⟩

/-! ### Everything a wallet sends -/

/-- Nothing that a wallet sends makes the server panic: neither the search for the next line in
any bytes, nor the reads of a connection, nor a request, nor a broadcast. -/
structure HandledWithoutPanic (env : Env) (libs : ElectrumLibs) (headers : HeaderLibs)
    (settings : SessionSettings) (config : Config) (p : Proc) (sourceLabel : String)
    (session : ClientSession) (buf : List UInt8) (reads : List (List UInt8))
    (request : JsonRpcRequest) (indexerUrl txHex : String) : Prop where
  nextLine : ∃ r, popClientLine libs buf = .ok r
  stream : PanicFree (expected env libs config)
    (serveReads settings env libs headers p sourceLabel reads [] session)
  request : PanicFree (expected env libs config)
    (handleOneSubrequest settings libs headers p request indexerUrl sourceLabel session)
  broadcast : PanicFree (expected env libs config)
    (handleBroadcastLogged settings env p txHex sourceLabel)

/-- The next line is found in any bytes. -/
theorem exists_popClientLine (libs : ElectrumLibs) (buf : List UInt8) :
    ∃ r, popClientLine libs buf = .ok r := by
  have hunbroken := Text.unbroken_splitLines buf
  rw [← Text.joinLines_splitLines buf]
  by_cases hnil : (Text.splitLines buf).1 = []
  · rw [hnil]
    exact ⟨_, popClientLine_rest libs hunbroken.rest⟩
  · obtain ⟨before, line, after, hlines, hserved⟩ := exists_served libs hnil
    rw [hlines] at hunbroken hserved ⊢
    exact ⟨_, popClientLine_joinLines libs hunbroken hserved⟩

/-- What a wallet sends is handled without a panic exactly if every complete line of its bytes
is safe, and its broadcast is. -/
theorem handledWithoutPanic_iff (env : Env) (libs : ElectrumLibs) (headers : HeaderLibs)
    (settings : SessionSettings) (config : Config) (p : Proc) (sourceLabel : String)
    (session : ClientSession) (buf : List UInt8) (reads : List (List UInt8))
    (request : JsonRpcRequest) (indexerUrl txHex : String) (hfit : LibsFit env libs) :
    HandledWithoutPanic env libs headers settings config p sourceLabel session buf reads request
        indexerUrl txHex ↔
      (∀ line ∈ receivedLines reads, LineSafe settings libs line) ∧
        BroadcastSafe env settings config.schedule txHex sourceLabel := by
  have hstream : CanPanic (expected env libs config)
      (serveReads settings env libs headers p sourceLabel reads [] session) ↔
        ∃ line ∈ (Text.splitLines ([] ++ receivedBytes reads)).1,
          ¬ LineSafe settings libs (lineText line) :=
    canPanic_serveReads_iff hfit sourceLabel reads List.not_mem_nil session
  have hlines : (∀ line ∈ receivedLines reads, LineSafe settings libs line) ↔
      ¬ ∃ line ∈ (Text.splitLines ([] ++ receivedBytes reads)).1,
        ¬ LineSafe settings libs (lineText line) := by
    simp [receivedLines]
  have hbroadcast : CanPanic (expected env libs config)
      (handleBroadcastLogged settings env p txHex sourceLabel) ↔
        ¬ BroadcastSafe env settings config.schedule txHex sourceLabel :=
    canPanic_handleBroadcastLogged_iff txHex sourceLabel
  constructor
  · rintro ⟨-, hreads, -, hhandled⟩
    refine ⟨hlines.2 fun hbad => panicFree_iff.1 hreads (hstream.2 hbad), ?_⟩
    by_contra hbad
    exact panicFree_iff.1 hhandled (hbroadcast.2 hbad)
  · rintro ⟨hsafe, hhandled⟩
    refine ⟨exists_popClientLine libs buf, panicFree_iff.2 fun hpanic => ?_,
      panicFree_of_neverFails
        (Prog.Within.anti fitting_of_expected (neverFails_handleOneSubrequest hfit _ _ _ _)),
      panicFree_iff.2 fun hpanic => hbroadcast.1 hpanic hhandled⟩
    exact hlines.1 hsafe (hstream.1 hpanic)

/-! ### A line that panics -/

/-- The log filter of the program where nothing else is asked for. -/
def sampleSettings : SessionSettings where
  logs level := level ≠ .debug

theorem libsFit_sample (answers : List Json) : LibsFit sampleEnv (sampleLibs answers) where
  scripthash _ c hc := by cases hc
  bracket s items h := by
    have htext := List.find?_some h
    rw [decide_eq_true_eq] at htext
    rw [← htext, sampleText, String.append_assoc]
    exact Text.startsWith_append "[" _

/-- The characters of a line. -/
theorem toList_lineText (bytes : List UInt8) :
    (lineText bytes).toList =
      ((Text.decodeFrom none bytes).reverse.dropWhile (· = '\r')).reverse := by
  simp [lineText, Text.trimEndMatches, Text.decodeLossy]

theorem lineMentionsTxRpc_eq (line : String) :
    lineMentionsTxRpc line =
      (Text.isInfix "broadcast".toList (line.toList.map Char.toLower) ||
        Text.isInfix "transaction".toList (line.toList.map Char.toLower)) := by
  simp [lineMentionsTxRpc, Text.containsText, Text.asciiLower]

/-- The word "transaction". -/
def shortLine : List UInt8 := [116, 114, 97, 110, 115, 97, 99, 116, 105, 111, 110]

/-- A line that names a transaction and has a two-byte character at its 200th byte. -/
def tornLine : List UInt8 := shortLine ++ List.replicate 188 120 ++ [0xC3, 0xA9]

theorem handledWithoutPanic_shortLine :
    HandledWithoutPanic sampleEnv (sampleLibs []) sampleHeaders sampleSettings sampleConfig
      .daemon "sparrow" {} [] [shortLine ++ [10]] (sampleRequest "server.ping") "" "07" := by
  have hlines : (Text.splitLines (receivedBytes [shortLine ++ [10]])).1 = [shortLine] := by
    decide +kernel
  refine (handledWithoutPanic_iff sampleEnv (sampleLibs []) sampleHeaders sampleSettings
    sampleConfig .daemon "sparrow" {} [] [shortLine ++ [10]]
    (sampleRequest "server.ping") "" "07" (libsFit_sample [])).2 ⟨fun line hline => ?_, ?_⟩
  · unfold receivedLines at hline
    rw [hlines, List.map_singleton, List.mem_singleton] at hline
    subst hline
    have hclean : ∀ n, CutsCleanly (lineText shortLine) n := by
      refine cutsCleanly_ascii ?_
      rw [Text.isAscii_iff, toList_lineText]
      decide +kernel
    exact Or.inr (Or.inr ⟨fun _ _ => hclean 200, fun _ _ _ => hclean 240,
      fun _ _ _ _ _ => hclean 200⟩)
  · exact { slices := fun h => by cases h
            delay := fun _ _ hdraws => by cases hdraws.2.2.2.1 }

/-- The log line about this line is cut inside its last character, and the session panics. -/
theorem tornLine_panics :
    ¬ HandledWithoutPanic sampleEnv (sampleLibs []) sampleHeaders sampleSettings sampleConfig
      .daemon "sparrow" {} [] [tornLine ++ [10]] (sampleRequest "server.ping") "" "07" := by
  rintro ⟨-, hstream, -, -⟩
  refine panicFree_iff.1 hstream ((canPanic_serveReads_iff (libsFit_sample []) "sparrow"
    [tornLine ++ [10]] List.not_mem_nil {}).2 ⟨tornLine, by decide +kernel, ?_⟩)
  have htorn : ¬ CutsCleanly (lineText tornLine) 200 := by
    unfold CutsCleanly prefixEnd
    rw [toList_lineText]
    decide +kernel
  have hmentions : lineMentionsTxRpc (lineText tornLine) = true := by
    rw [lineMentionsTxRpc_eq, toList_lineText]
    decide +kernel
  rintro (hblank | hshake | ⟨hincoming, -, -⟩)
  · have hchars := congrArg String.toList hblank
    rw [Text.trim, String.toList_ofList, toList_lineText] at hchars
    revert hchars
    decide +kernel
  · exact hshake rfl
  · exact htorn (hincoming hmentions rfl)

end BroadcastPool
