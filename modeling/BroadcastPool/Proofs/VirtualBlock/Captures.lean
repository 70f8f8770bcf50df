import BroadcastPool.Proofs.VirtualBlock.Fetchable
import BroadcastPool.Proofs.VirtualBlock.Ingested
import BroadcastPool.Proofs.VirtualBlock.Range

/-!
# `BroadcastPool.Proofs.VirtualBlock.Captures`: the targets that Liana transactions get

A capture reads the target of the armed block and moves it by two. An ingest captures at most
once, and stores the target that it has captured as the locktime of the one row that it inserts
(`onPaths_ingestTask`). `IsCapture` says what a capture should be: its target is above the real
tip, and it is the height that every armed session is told at that moment.

The condition `CapturesAhead` follows what the user has set and how often it was captured since
(`Setting`). The tips stay below the last named target plus two for each capture. A save that
arms the block is checked against a height that no known tip has passed, and one that names a
target while the block stays armed names an accepted one above those captured before. A capture
finds the block still armed.

`Ahead` is the invariant: the target of an armed block is what the user has named plus two for
each capture, above both tips and above every target captured since the block was armed. From it
`captured_rows_ahead` follows for every interleaving of ingests with other work, with the deeds of
`Lib.Attributed` to tell which job has captured what its row stores.

`captured_below_tip` is a run in which the real tip has passed the target.
-/

set_option autoImplicit false

namespace BroadcastPool

open Effects

/-! ### Captures along a run -/

/-- The target that a step captures: it is read and moved while the block is armed. -/
def capturedTarget (env : Env) (e : Performed Act Act.Res World) : Option Nat :=
  if e.act.capturesFor = some .daemon ∧ env.configPoisoned e.state.tick = false ∧
      (e.state.virtualBlock .daemon).enabled then
    some (e.state.virtualBlock .daemon).targetHeight
  else none

/-- The step is a save that arms the block, or arms it again. -/
def ArmsBlock (env : Env) (e : Performed Act Act.Res World) : Prop :=
  match e.act with
  | .saveConfig p request realHeight => p = .daemon ∧ env.configPoisoned e.state.tick = false ∧
      request.arms realHeight (e.state.virtualBlock .daemon)
  | _ => False

instance ArmsBlock.decidable (env : Env) (e : Performed Act Act.Res World) :
    Decidable (ArmsBlock env e) := by
  apply @Act.casesOn (fun a => Decidable (ArmsBlock env ⟨e.state, e.seen, a⟩)) e.act
  all_goals
    intros
    dsimp only [ArmsBlock]
    infer_instance

/-- The targets captured since the block was last armed, the last one first. -/
def capturedAfter (env : Env) (targets : List Nat) (e : Performed Act Act.Res World) :
    List Nat :=
  if ArmsBlock env e then [] else (capturedTarget env e).toList ++ targets

/-- The tips are below a height, where they are known. -/
def TipsBelow (height : Nat) (tips : Option Nat × Option Nat) : Prop :=
  (∀ h ∈ tips.1, h < height) ∧ ∀ h ∈ tips.2, h < height

instance (height : Nat) (tips : Option Nat × Option Nat) : Decidable (TipsBelow height tips) :=
  inferInstanceAs (Decidable (_ ∧ _))

/-- What the target of a setting has become: two more for each capture. -/
def Setting.moved (s : Setting) : Nat := s.target + 2 * s.captures

/-- The condition on a step, after the settings and the captured targets so far. -/
def CapturesAhead (env : Env) (headers : HeaderLibs) (settings : List Setting)
    (targets : List Nat) (e : Performed Act Act.Res World) : Prop :=
  let vb := e.state.virtualBlock .daemon
  match e.act with
  | .startProcess p .. => p ≠ .daemon
  | .writeChainHealth .. | .cacheChainTip .. =>
      -- A new tip stays below what the user has set, moved by the captures.
      vb.enabled → ∀ s ∈ settings.head?, TipsBelow s.moved (tipsAfter .daemon e.state e.act)
  | .advanceVirtualBlock p => p = .daemon ∧ env.configPoisoned e.state.tick = false →
      vb.enabled ∧ vb.targetHeight < 2 ^ 63 ∧
        ((e.state.pm .daemon).cachedChainTip.any fun tip =>
          (decodeHeader headers tip.2).isOk) = true
  | .saveConfig p request realHeight =>
      p = .daemon ∧ env.configPoisoned e.state.tick = false →
        -- No known tip has passed the height that a target is checked against.
        (∀ s ∈ request.setting? realHeight vb, TipsBelow (s.height + 1) (e.state.tips .daemon)) ∧
          -- A target that is named while the block stays armed is accepted, and a new one.
          (vb.enabled → request.lianaVbEnabled ≠ some false → ¬ request.arms realHeight vb →
            ∀ named ∈ request.lianaVbTargetHeight,
              (request.setting? realHeight vb).isSome ∧ ∀ t ∈ targets, t < named)
  | _ => True

instance CapturesAhead.decidable (env : Env) (headers : HeaderLibs) (settings : List Setting)
    (targets : List Nat) (e : Performed Act Act.Res World) :
    Decidable (CapturesAhead env headers settings targets e) := by
  apply @Act.casesOn
    (fun a => Decidable (CapturesAhead env headers settings targets ⟨e.state, e.seen, a⟩)) e.act
  all_goals
    intros
    dsimp only [CapturesAhead, TipsBelow]
    infer_instance

/-- What a capture should be: the target is above both tips, and every armed session that is told
a tip at this moment is told the target. -/
structure IsCapture (env : Env) (headers : HeaderLibs) (e : Performed Act Act.Res World)
    (target : Nat) : Prop where
  captured : capturedTarget env e = some target
  ahead : TipsBelow target (e.state.tips .daemon)
  told : ∀ (libs : ElectrumLibs) (source : String) (wallet : HeaderSession)
    (armed height : Nat) (hex : String),
    ArmedSession env .daemon e.state source wallet armed →
      Advertises libs headers env .daemon e.state source wallet height hex → height = target

/-- The target of an armed block is what the user has set, moved by the captures. It is above both
tips and above what was captured since the block was armed. -/
structure AheadAt (settings : List Setting) (targets : List Nat) (w : World) (target : Nat) :
    Prop where
  moved : ∃ s ∈ settings.head?, target = s.moved
  tips : TipsBelow target (w.tips .daemon)
  next : ∀ t ∈ targets, t < target

/-- The invariant, for the time while the block is armed. -/
def Ahead (settings : List Setting) (targets : List Nat) (w : World) : Prop :=
  (w.virtualBlock .daemon).enabled = true →
    AheadAt settings targets w (w.virtualBlock .daemon).targetHeight

section
variable {env : Env} {headers : HeaderLibs} {settings : List Setting} {targets : List Nat}

/-- The target of an armed session is the target of the block. -/
theorem ArmedSession.eq_target {w : World} {source : String} {wallet : HeaderSession}
    {armed : Nat} (h : ArmedSession env .daemon w source wallet armed) :
    armed = (w.virtualBlock .daemon).targetHeight := by
  have harmed := h.armed
  unfold virtualTipHeight at harmed
  dsimp only at harmed
  split at harmed
  · exact (Option.some.inj harmed).symm
  · cases harmed

/-- A capture whose target is above the tips is what it should be, if the cached tip has a header
that others can be made on. -/
theorem isCapture_of_ahead {w : World} {seen : List (Seen Act Act.Res)}
    (henabled : (w.virtualBlock .daemon).enabled = true)
    (hpoisoned : env.configPoisoned w.tick = false)
    (htips : TipsBelow (w.virtualBlock .daemon).targetHeight (w.tips .daemon))
    (hheader : ((w.pm .daemon).cachedChainTip.any fun tip =>
      (decodeHeader headers tip.2).isOk) = true) :
    IsCapture env headers ⟨w, seen, .advanceVirtualBlock .daemon⟩
      (w.virtualBlock .daemon).targetHeight := by
  refine ⟨if_pos ⟨rfl, hpoisoned, henabled⟩, htips, ?_⟩
  intro libs source wallet armed height hex hsession hadvertised
  obtain rfl := hsession.eq_target
  cases hcached : (w.pm .daemon).cachedChainTip with
  | none =>
    rw [hcached] at hheader
    cases hheader
  | some tip =>
    have htip : (w.tips .daemon).2 = some tip.1 := by
      unfold World.tips PoolManager.tips
      rw [hcached]
      rfl
    have hbelow : tip.1 < (w.virtualBlock .daemon).targetHeight := htips.2 tip.1 htip
    cases hdecode : decodeHeader headers tip.2 with
    | error e =>
      rw [hcached, Option.any_some, hdecode] at hheader
      cases hheader
    | ok header => exact (hadvertised.eq_target hsession hcached hdecode hbelow).1

/-- An accepted target is above every tip that its check has taken into account. -/
theorem tipsBelow_of_setting {request : SaveConfigRequest} {realHeight : Option Nat}
    {vb : LianaVirtualBlockConfig} {s : Setting} {tips : Option Nat × Option Nat}
    (hsetting : request.setting? realHeight vb = some s) (htips : TipsBelow (s.height + 1) tips) :
    s.moved = request.lianaVbTargetHeight.getD vb.targetHeight ∧ TipsBelow s.moved tips := by
  obtain ⟨htarget, hcaptures⟩ : s.target = request.lianaVbTargetHeight.getD vb.targetHeight ∧
      s.captures = 0 := by
    unfold SaveConfigRequest.setting? at hsetting
    dsimp only at hsetting
    repeat' split at hsetting
    all_goals cases hsetting
    exact ⟨rfl, rfl⟩
  have hmoved : s.moved = s.target := by
    unfold Setting.moved
    rw [hcaptures]
    rfl
  have hvalid := (SaveConfigRequest.setting?_covers hsetting).2.valid
  have habove : s.height < s.target := by
    unfold validateVirtualHeight at hvalid
    dsimp only at hvalid
    repeat' split at hvalid
    all_goals first | (cases hvalid; done) | omega
  rw [hmoved]
  refine ⟨htarget, fun h hh => ?_, fun h hh => ?_⟩
  · have hle := htips.1 h hh
    omega
  · have hle := htips.2 h hh
    omega

/-- A capture moves the last setting by two. -/
theorem moved_capture {s : Setting} (h : s ∈ settings.head?) :
    ∃ s' ∈ (Setting.capture settings).head?, s'.moved = s.moved + 2 := by
  cases settings with
  | nil => cases h
  | cons first rest =>
    cases h
    refine ⟨_, rfl, ?_⟩
    show s.target + 2 * (s.captures + 1) = s.target + 2 * s.captures + 2
    omega

/-- A step that changes neither the target nor the tips nor the history, or disarms the block. -/
theorem ahead_kept {e : Performed Act Act.Res World} (h : Ahead settings targets e.state)
    (hsettings : Setting.after env settings e = settings)
    (htargets : capturedAfter env targets e = targets)
    (htips : tipsAfter .daemon e.state e.act = e.state.tips .daemon)
    (hblock : (virtualBlockAfter env .daemon e.state e.act).enabled = true →
      virtualBlockAfter env .daemon e.state e.act = e.state.virtualBlock .daemon) :
    Ahead (Setting.after env settings e) (capturedAfter env targets e)
      (World.exec env e.act e.state).2 := by
  intro henabled
  rw [exec_virtualBlock] at henabled ⊢
  have hsame := hblock henabled
  rw [hsame] at henabled ⊢
  rw [hsettings, htargets]
  refine ⟨(h henabled).moved, ?_, (h henabled).next⟩
  rw [exec_tips, htips]
  exact (h henabled).tips

/-- One step keeps the target ahead, if it meets the condition. -/
theorem ahead_step {e : Performed Act Act.Res World} (h : Ahead settings targets e.state)
    (hstep : CapturesAhead env headers settings targets e) :
    Ahead (Setting.after env settings e) (capturedAfter env targets e)
      (World.exec env e.act e.state).2 := by
  obtain ⟨w, seen, a⟩ := e
  cases a
  -- Only a start, the two monitors of the chain, a capture and a save touch what `Ahead` speaks of.
  -- Every other step keeps it as it is.
  case startProcess p rpc indexer config =>
    have hother : p ≠ .daemon := hstep
    exact ahead_kept h rfl rfl (if_neg hother) fun _ => if_neg hother
  -- Where the block is written it is unarmed after it, and then nothing is claimed.
  case disarmVirtualBlock p realHeight =>
    refine ahead_kept h rfl rfl rfl fun henabled => ?_
    dsimp only [virtualBlockAfter] at henabled ⊢
    split at henabled
    · cases henabled
    · rename_i hunchanged
      exact if_neg hunchanged
  -- A new tip: the block does not move, and the condition says that the tip is below the target.
  case writeChainHealth | cacheChainTip =>
    intro henabled
    rw [exec_virtualBlock] at henabled ⊢
    have hahead := h henabled
    obtain ⟨s, hs, htarget⟩ := hahead.moved
    refine ⟨⟨s, hs, htarget⟩, ?_, hahead.next⟩
    rw [exec_tips]
    exact htarget ▸ hstep henabled s hs
  case advanceVirtualBlock p =>
    -- A poisoned lock and another process leave the block of the daemon as it was.
    by_cases hwritten : p = .daemon ∧ env.configPoisoned w.tick = false
    · obtain ⟨rfl, hpoisoned⟩ := hwritten
      obtain ⟨henabled, hfits, -⟩ := hstep ⟨rfl, hpoisoned⟩
      have hahead := h henabled
      have hcaptured : capturedAfter env targets ⟨w, seen, .advanceVirtualBlock .daemon⟩ =
          (w.virtualBlock .daemon).targetHeight :: targets := by
        show (if False then _ else (capturedTarget env _).toList ++ targets) = _
        rw [if_neg not_false]
        unfold capturedTarget
        rw [if_pos ⟨rfl, hpoisoned, henabled⟩]
        rfl
      have hsettings : Setting.after env settings ⟨w, seen, .advanceVirtualBlock .daemon⟩ =
          Setting.capture settings := if_pos ⟨rfl, hpoisoned, henabled⟩
      have hmoved : virtualBlockAfter env .daemon w (.advanceVirtualBlock .daemon) =
          (w.virtualBlock .daemon).advanced := if_pos ⟨rfl, hpoisoned, henabled⟩
      -- The saturating addition stays in range, so the target goes up by two: above the target that
      -- was just handed out, hence above every earlier one.
      have hlater : (w.virtualBlock .daemon).advanced.targetHeight =
          (w.virtualBlock .daemon).targetHeight + 2 := by
        show min ((w.virtualBlock .daemon).targetHeight + 2) (2 ^ 64 - 1) = _
        dsimp only at hfits
        omega
      intro _
      rw [exec_virtualBlock, hmoved, hlater, hcaptured, hsettings]
      refine ⟨?_, ?_, fun t ht => ?_⟩
      · obtain ⟨s, hs, htarget⟩ := hahead.moved
        obtain ⟨s', hs', hnext⟩ := moved_capture hs
        exact ⟨s', hs', by rw [hnext, htarget]⟩
      · rw [exec_tips]
        exact ⟨fun x hx => Nat.lt_add_right 2 (hahead.tips.1 x hx),
          fun x hx => Nat.lt_add_right 2 (hahead.tips.2 x hx)⟩
      · rcases List.mem_cons.1 ht with rfl | ht
        · omega
        · exact Nat.lt_add_right 2 (hahead.next t ht)
    · have hunmoved : ¬ (p = .daemon ∧ env.configPoisoned w.tick = false ∧
          (w.virtualBlock .daemon).enabled = true) := fun hmoves => hwritten ⟨hmoves.1, hmoves.2.1⟩
      refine ahead_kept h (if_neg hunmoved) ?_ rfl fun _ => if_neg hunmoved
      show (if False then _ else (capturedTarget env _).toList ++ targets) = targets
      rw [if_neg not_false]
      unfold capturedTarget
      rw [if_neg fun hcaptures => hwritten ⟨Option.some.inj hcaptures.1, hcaptures.2.1⟩]
      rfl
  case saveConfig p request realHeight =>
    by_cases hwritten : p = .daemon ∧ env.configPoisoned w.tick = false
    · intro henabled
      obtain ⟨hchecked, hnamed⟩ := hstep hwritten
      have happlied : virtualBlockAfter env .daemon w (.saveConfig p request realHeight) =
          (request.applyVirtualBlock realHeight (w.virtualBlock .daemon)).2 :=
        if_pos hwritten
      have hsettings : Setting.after env settings ⟨w, seen, .saveConfig p request realHeight⟩ =
          (request.setting? realHeight (w.virtualBlock .daemon)).toList ++ settings :=
        if_pos hwritten
      -- After the save the block has just been armed, or it was armed before and stays so.
      obtain ⟨htarget, hcases⟩ :=
        request.applyVirtualBlock_cases realHeight (w.virtualBlock .daemon)
      rw [exec_virtualBlock] at henabled ⊢
      rw [happlied] at henabled ⊢
      rw [htarget, hsettings]
      have htips : (World.exec env (.saveConfig p request realHeight) w).2.tips .daemon =
          w.tips .daemon := exec_tips env _ w .daemon
      by_cases harms : request.arms realHeight (w.virtualBlock .daemon)
      · -- Armed now: nothing was captured yet, and the target has just been checked.
        have hcaptured : capturedAfter env targets ⟨w, seen, .saveConfig p request realHeight⟩ =
            [] := if_pos ⟨hwritten.1, hwritten.2, harms⟩
        obtain ⟨s, hs⟩ := Option.isSome_iff_exists.1 harms.2
        obtain ⟨hmoved, hbelow⟩ := tipsBelow_of_setting hs (hchecked s hs)
        rw [hcaptured, hs]
        refine ⟨⟨s, rfl, hmoved.symm⟩, ?_, fun t ht => by cases ht⟩
        rw [htips, ← hmoved]
        exact hbelow
      · have hcaptured : capturedAfter env targets ⟨w, seen, .saveConfig p request realHeight⟩ =
            targets := by
          show (if ArmsBlock env _ then [] else (capturedTarget env _).toList ++ targets) = _
          rw [if_neg fun hreset => harms hreset.2.2]
          unfold capturedTarget
          rw [if_neg fun hcaptures => by cases hcaptures.1]
          rfl
        obtain ⟨harmed, hstays⟩ := (hcases henabled).resolve_left harms
        have hahead := h harmed
        rw [hcaptured]
        -- Armed before: a save that names no target leaves it, and one that names a target needs
        -- the condition, since the source does not compare it with the captured ones.
        cases hname : request.lianaVbTargetHeight with
        | none =>
          cases hsetting : request.setting? realHeight (w.virtualBlock .daemon) with
          | none =>
            refine ⟨hahead.moved, ?_, hahead.next⟩
            rw [htips]
            exact hahead.tips
          | some s =>
            obtain ⟨hmoved, -⟩ := tipsBelow_of_setting hsetting (hchecked s hsetting)
            rw [hname] at hmoved
            refine ⟨⟨s, rfl, hmoved.symm⟩, ?_, hahead.next⟩
            rw [htips]
            exact hahead.tips
        | some named =>
          obtain ⟨haccepted, hnew⟩ := hnamed harmed hstays harms named hname
          obtain ⟨s, hs⟩ := Option.isSome_iff_exists.1 haccepted
          obtain ⟨hmoved, hbelow⟩ := tipsBelow_of_setting hs (hchecked s hs)
          rw [hname] at hmoved
          rw [hs]
          refine ⟨⟨s, rfl, hmoved.symm⟩, ?_, hnew⟩
          have hmoved : s.moved = named := hmoved
          rw [htips, Option.getD_some, ← hmoved]
          exact hbelow
    · refine ahead_kept h (if_neg hwritten) ?_ rfl fun _ => if_neg hwritten
      show (if ArmsBlock env _ then [] else (capturedTarget env _).toList ++ targets) = targets
      rw [if_neg fun hreset => hwritten ⟨hreset.1, hreset.2.1⟩]
      unfold capturedTarget
      rw [if_neg fun hcaptures => by cases hcaptures.1]
      rfl
  all_goals exact ahead_kept h rfl rfl rfl fun _ => rfl

/-- The answer to a capture of an armed block is its target. -/
theorem answer_advanceVirtualBlock {w : World} {o : Option Nat}
    (h : (World.exec env (.advanceVirtualBlock .daemon) w).1 = .ok o) :
    env.configPoisoned w.tick = false ∧
      ((w.virtualBlock .daemon).enabled = true →
        o = some (w.virtualBlock .daemon).targetHeight) := by
  simp only [World.exec, World.effect] at h
  split at h
  · cases h
  · rename_i hpoisoned
    refine ⟨eq_false_of_ne_true hpoisoned, fun henabled => ?_⟩
    split at h
    · cases h
      rfl
    · rename_i hdisarmed
      exact absurd henabled hdisarmed

end

/-! ### Whole runs -/

/-- A job: an ingest of the daemon, or a program that captures nothing. -/
inductive CaptureJob
  | ingest (txHex source : String)
  | other (prog : M Unit) (h : prog.Uses fun a => a.capturesFor = none)

/-- The program of a job. -/
def CaptureJob.prog (env : Env) : CaptureJob → M Unit
  | ingest txHex source => ingestTask env .daemon txHex source
  | other prog _ => prog

/-- The ingest of a transaction from Liana. -/
def CaptureJob.isLiana : CaptureJob → Bool
  | ingest _ source => source = "liana"
  | other .. => false

/-- What a job requires of its actions. -/
def CaptureJob.Requires (env : Env) : CaptureJob → List (Seen Act Act.Res) → Act → Prop
  | ingest txHex source, seen, a => StoresCapture env txHex source seen a
  | other .., _, a => a.capturesFor = none

/-- An action, and the job that has performed it. -/
abbrev CaptureDeed : Type := Deed CaptureJob Act Act.Res World

/-- What the jobs do, from a world in which nothing runs. -/
abbrev captureDeeds (env : Env) (w : World) (os : List (Order CaptureJob)) : List CaptureDeed :=
  Effects.Config.deeds (World.exec env) (CaptureJob.prog env) ⟨w, []⟩ {} os

/-- The settings after these deeds. -/
def settingsAfter (env : Env) (ds : List CaptureDeed) : List Setting :=
  ds.foldl (fun settings d => Setting.after env settings d.toPerformed) []

/-- The targets captured by these deeds since the block was last armed. -/
def targetsAfter (env : Env) (ds : List CaptureDeed) : List Nat :=
  ds.foldl (fun targets d => capturedAfter env targets d.toPerformed) []

/-- The condition on a deed. -/
abbrev DeedAhead (env : Env) (headers : HeaderLibs) (before : List CaptureDeed)
    (d : CaptureDeed) : Prop :=
  CapturesAhead env headers (settingsAfter env before) (targetsAfter env before) d.toPerformed

/-- The deed inserts a row for a transaction from Liana that was planned with the block armed. -/
def insertsLiana (d : CaptureDeed) : Option Row :=
  if d.job.isLiana && readsArmed d.seen then d.act.inserted? else none

/-- The row is the only one of its job. It waits for a block, the target of the one capture of the
same job. -/
structure StoresOwnCapture (env : Env) (headers : HeaderLibs) (before : List CaptureDeed)
    (d : CaptureDeed) (row : Row) (target : Nat) : Prop where
  mode : row.broadcastMode = some "by_block"
  stored : row.nlocktime = some (target : Int)
  captured : ∃ c ∈ before, c.number = d.number ∧ IsCapture env headers c.toPerformed target
  only : ∀ d' ∈ before, d'.number = d.number → d'.act.inserted? = none

section
variable {env : Env} {headers : HeaderLibs} {w : World} {os : List (Order CaptureJob)}
  {before after : List CaptureDeed} {d : CaptureDeed}

theorem onPaths_captureJob (j : CaptureJob) :
    (j.prog env).OnPaths anyAnswer (j.Requires env) [] := by
  cases j with
  | ingest txHex source => exact onPaths_ingestTask txHex source
  | other prog h =>
    refine Prog.Keeps.onPaths (I := fun _ => True) ?_ trivial
    exact Prog.keeps_of_uses (fun _ ha _ _ _ => ⟨ha, fun _ _ _ => trivial⟩) h

/-- A deed of a run, with what its program has seen. -/
theorem owned_captureDeed (hsplit : captureDeeds env w os = before ++ d :: after) :
    Config.Owned (World.exec env) (CaptureJob.Requires env) before d := by
  have howned := Config.owned_of_staffed (anyAnswer_exec env) os (Config.staffed_nil w)
    (fun j _ => onPaths_captureJob j) hsplit
  exact howned

theorem settingsAfter_append (d : CaptureDeed) :
    settingsAfter env (before ++ [d]) =
      Setting.after env (settingsAfter env before) d.toPerformed :=
  List.foldl_append

theorem targetsAfter_append (d : CaptureDeed) :
    targetsAfter env (before ++ [d]) =
      capturedAfter env (targetsAfter env before) d.toPerformed :=
  List.foldl_append

/-- In a run whose steps meet the condition, the target is ahead where a deed is done. -/
theorem ahead_of_deed (hstart : (w.virtualBlock .daemon).enabled = false)
    (hsteps : Config.AfterEach (DeedAhead env headers) (captureDeeds env w os))
    (hsplit : captureDeeds env w os = before ++ d :: after) :
    Ahead (settingsAfter env before) (targetsAfter env before) d.state := by
  refine Config.deeds_induction
    (I := fun before w => Ahead (settingsAfter env before) (targetsAfter env before) w)
    (fun henabled => ?_) (fun b e a hb hI => ?_) hsplit
  · rw [hstart] at henabled
    cases henabled
  · rw [settingsAfter_append, targetsAfter_append]
    exact ahead_step hI (hsteps.at hb)

/-- What was captured is remembered until the block is armed again. -/
theorem mem_targetsAfter {c : CaptureDeed} {t : Nat}
    (hcaptured : capturedTarget env c.toPerformed = some t) (mid : List CaptureDeed)
    (hmid : ∀ e ∈ mid, ¬ ArmsBlock env e.toPerformed) :
    t ∈ targetsAfter env (before ++ c :: mid) := by
  induction mid using List.reverseRecOn with
  | nil =>
    rw [targetsAfter_append]
    unfold capturedAfter
    split
    · rename_i harms
      -- The capture itself is no save.
      obtain ⟨⟨w, seen, a⟩, number, job⟩ := c
      cases a <;> first | (cases harms; done) | cases hcaptured
    · rw [hcaptured]
      exact List.mem_cons_self ..
  | append_singleton mid e ih =>
    have hassoc : before ++ c :: (mid ++ [e]) = (before ++ c :: mid) ++ [e] := by simp
    rw [hassoc, targetsAfter_append]
    unfold capturedAfter
    rw [if_neg (hmid e (List.mem_append_right _ (List.mem_singleton_self e)))]
    exact List.mem_append_right _ (ih fun e' he' => hmid e' (List.mem_append_left _ he'))

/-- The action of a capture. -/
theorem act_of_captured {e : Performed Act Act.Res World} {t : Nat}
    (h : capturedTarget env e = some t) :
    e.act = .advanceVirtualBlock .daemon ∧ env.configPoisoned e.state.tick = false ∧
      (e.state.virtualBlock .daemon).enabled = true ∧
        t = (e.state.virtualBlock .daemon).targetHeight := by
  obtain ⟨w, seen, a⟩ := e
  unfold capturedTarget at h
  split at h
  · rename_i hcaptures
    obtain ⟨hfor, hpoisoned, henabled⟩ := hcaptures
    cases h
    cases a <;> cases hfor
    exact ⟨rfl, hpoisoned, henabled, rfl⟩
  · cases h

/-- The answers to the captures are those of the deeds. -/
theorem mem_capturesIn {seen : List (Seen Act Act.Res)} {r : Except String (Option Nat)} :
    r ∈ capturesIn seen ↔ ⟨.advanceVirtualBlock .daemon, r⟩ ∈ seen := by
  unfold capturesIn
  rw [List.mem_filterMap]
  constructor
  · rintro ⟨⟨a, answer⟩, hmem, hsome⟩
    cases a <;> try cases hsome
    rename_i p
    cases p <;> cases hsome
    exact hmem
  · exact fun hmem => ⟨_, hmem, rfl⟩

/-- A job captures once. -/
theorem number_ne_of_captured {c : CaptureDeed} {t t' : Nat}
    (hsplit : captureDeeds env w os = before ++ d :: after)
    (hcaptured : capturedTarget env d.toPerformed = some t) (hc : c ∈ before)
    (hbefore : capturedTarget env c.toPerformed = some t') : c.number ≠ d.number := by
  intro hnumber
  have howned := owned_captureDeed hsplit
  obtain ⟨hact, -⟩ := act_of_captured hcaptured
  obtain ⟨hact', -⟩ := act_of_captured hbefore
  have hmeets := howned.meets
  cases hjob : d.job with
  | other prog h =>
    rw [hjob] at hmeets
    have hnone : d.act.capturesFor = none := hmeets
    rw [hact] at hnone
    cases hnone
  | ingest txHex source =>
    rw [hjob] at hmeets
    have hempty : capturesIn d.seen = [] :=
      StoresCapture.capture hmeets (by rw [hact]; rfl)
    have hmem : ⟨c.act, (World.exec env c.act c.state).1⟩ ∈ d.seen := by
      rw [howned.seen]
      exact mem_ownAnswers.2 ⟨c, hc, hnumber, rfl⟩
    rw [hact'] at hmem
    have hin := mem_capturesIn.2 hmem
    rw [hempty] at hin
    cases hin

/-- A row from Liana stores what its own job has captured. -/
theorem storesOwnCapture (hstart : (w.virtualBlock .daemon).enabled = false)
    (hsteps : Config.AfterEach (DeedAhead env headers) (captureDeeds env w os))
    (hsplit : captureDeeds env w os = before ++ d :: after) {row : Row}
    (hrow : insertsLiana d = some row) :
    ∃ target, StoresOwnCapture env headers before d row target := by
  have howned := owned_captureDeed hsplit
  have hmeets := howned.meets
  unfold insertsLiana at hrow
  split at hrow
  · rename_i hliana
    obtain ⟨hjob, harmed⟩ := Bool.and_eq_true_iff.1 hliana
    cases hj : d.job with
    | other prog h =>
      rw [hj] at hjob
      cases hjob
    | ingest txHex source =>
      rw [hj] at hjob hmeets
      have hsource : source = "liana" := of_decide_eq_true hjob
      have hmeets : StoresCapture env txHex source d.seen d.act := hmeets
      obtain ⟨target, hcaptures, hmode, hstored⟩ := hmeets.stores hsource harmed row hrow
      have honly : ∀ d' ∈ before, d'.number = d.number → d'.act.inserted? = none := by
        intro d' hd' hnumber
        have hempty := hmeets.insert row hrow
        have hmem : ⟨d'.act, (World.exec env d'.act d'.state).1⟩ ∈ d.seen := by
          rw [howned.seen]
          exact mem_ownAnswers.2 ⟨d', hd', hnumber, rfl⟩
        exact List.filterMap_eq_nil_iff.1 hempty _ hmem
      -- The one capture of the job is a deed of the run.
      have hseen : ⟨.advanceVirtualBlock .daemon, (.ok target : Except String (Option Nat))⟩ ∈
          d.seen := mem_capturesIn.1 (by rw [hcaptures]; exact List.mem_singleton_self _)
      rw [howned.seen] at hseen
      obtain ⟨c, hc, hnumber, hanswer⟩ := mem_ownAnswers.1 hseen
      obtain ⟨b, m, rfl⟩ := List.append_of_mem hc
      have hsplit' : captureDeeds env w os = b ++ c :: (m ++ d :: after) := by
        rw [hsplit]
        simp
      have hstep := hsteps.at hsplit'
      have hahead := ahead_of_deed hstart hsteps hsplit'
      obtain ⟨⟨w', seen', a⟩, number, job⟩ := c
      obtain ⟨rfl, hanswer⟩ := Sigma.mk.inj hanswer
      obtain ⟨hpoisoned, htarget⟩ := answer_advanceVirtualBlock (eq_of_heq hanswer).symm
      obtain ⟨henabled, -, hheader⟩ := hstep ⟨rfl, hpoisoned⟩
      refine ⟨_, hmode, hstored _ (htarget henabled), ⟨_, hc, hnumber, ?_⟩, honly⟩
      exact isCapture_of_ahead henabled hpoisoned (hahead henabled).tips hheader
  · cases hrow

end

/-- From a disarmed block, in every interleaving whose steps meet the condition: a row from Liana
stores the target that its own job has captured, and the captures of one arming period are of
different jobs and of growing targets. -/
theorem captured_rows_ahead (env : Env) (headers : HeaderLibs) (w : World)
    (os : List (Order CaptureJob)) (hstart : (w.virtualBlock .daemon).enabled = false)
    (hsteps : Config.AfterEach (DeedAhead env headers) (captureDeeds env w os)) :
    (∀ before d after, captureDeeds env w os = before ++ d :: after →
      ∀ row ∈ insertsLiana d, ∃ target, StoresOwnCapture env headers before d row target) ∧
    ∀ before c mid c' after, captureDeeds env w os = before ++ c :: (mid ++ c' :: after) →
      ∀ t ∈ capturedTarget env c.toPerformed, ∀ t' ∈ capturedTarget env c'.toPerformed,
        c.number ≠ c'.number ∧ ((∀ e ∈ mid, ¬ ArmsBlock env e.toPerformed) → t < t') := by
  refine ⟨fun before d after hsplit row hrow => storesOwnCapture hstart hsteps hsplit hrow, ?_⟩
  intro before c mid c' after hsplit t ht t' ht'
  have hsplit' : captureDeeds env w os = (before ++ c :: mid) ++ c' :: after := by
    rw [hsplit]
    simp
  refine ⟨?_, fun hmid => ?_⟩
  · exact number_ne_of_captured hsplit' ht' (List.mem_append_right _ (List.mem_cons_self ..)) ht
  · have hahead := ahead_of_deed hstart hsteps hsplit'
    obtain ⟨-, -, henabled, htarget⟩ := act_of_captured ht'
    rw [htarget]
    exact (hahead henabled).next t (mem_targetsAfter ht mid hmid)

/-- Liana sends a transaction. -/
def lianaJob : CaptureJob := .ingest "07" "liana"

/-- The daemon gets the settings of the virtual block. -/
def saveJob (request : SaveConfigRequest) : CaptureJob :=
  .other (saveConfig .daemon request)
    (Prog.uses_bind (uses_act rfl) fun _ => uses_orRaise (uses_act rfl))

/-- The indexer tells the daemon a tip. -/
def tipJob (height : Nat) : CaptureJob :=
  .other (perform (.cacheChainTip .daemon height genesisHex)) (uses_act rfl)

/-- The block is armed for 101 at the real tip 100, the tip advances to `realHeight`, and a Liana
transaction comes in. -/
def captureSchedule (realHeight : Nat) : List (Order CaptureJob) :=
  [.start (saveJob { lianaVbEnabled := some true, lianaVbTargetHeight := some 101 }),
    .step 0, .step 0, .start (tipJob realHeight), .step 1, .start lianaJob] ++
      List.replicate 10 (.step 2)

/-- With the real tip at 105, the row gets the target 101, which the chain has passed. -/
theorem captured_below_tip :
    ¬ ∀ before d after, captureDeeds sampleEnv (polledWorld 100) (captureSchedule 105) =
        before ++ d :: after →
      ∀ row ∈ insertsLiana d,
        ∃ target, StoresOwnCapture sampleEnv sampleHeaders before d row target := by
  have hrun : (∀ c ∈ (captureDeeds sampleEnv (polledWorld 100) (captureSchedule 105)).take 12,
        ∀ t ∈ capturedTarget sampleEnv c.toPerformed, ¬ TipsBelow t (c.state.tips .daemon)) ∧
      (((captureDeeds sampleEnv (polledWorld 100) (captureSchedule 105))[12]?.bind
        insertsLiana).isSome) = true := by
    decide +kernel
  generalize captureDeeds sampleEnv (polledWorld 100) (captureSchedule 105) = deeds at hrun ⊢
  intro h
  obtain ⟨hbelow, hstores⟩ := hrun
  obtain ⟨row, hrow⟩ := Option.isSome_iff_exists.1 hstores
  obtain ⟨d, hd, hrow⟩ := Option.bind_eq_some_iff.1 hrow
  obtain ⟨hlt, rfl⟩ := List.getElem?_eq_some_iff.1 hd
  have hsplit : deeds = deeds.take 12 ++ deeds[12] :: deeds.drop 13 := by
    rw [List.getElem_cons_drop, List.take_append_drop]
  obtain ⟨t, hstored⟩ := h _ _ _ hsplit row hrow
  obtain ⟨c, hc, -, hcapture⟩ := hstored.captured
  exact hbelow c hc t hcapture.captured hcapture.ahead

/-- Two transactions from Liana come in at once, and between their captures the tip moves. -/
def twoCaptures : List (Order CaptureJob) :=
  [.start (saveJob { lianaVbEnabled := some true, lianaVbTargetHeight := some 101 }),
    .step 0, .step 0, .start (tipJob 100), .step 1, .start lianaJob, .start lianaJob] ++
      [.step 2, .step 3, .step 2, .step 3, .step 2, .step 3, .step 2, .step 3, .step 2] ++
        [.start (tipJob 102), .step 4] ++ List.replicate 6 (.step 3) ++ List.replicate 6 (.step 2)

theorem captured_rows_ahead_twoCaptures :
    (∀ before d after, captureDeeds sampleEnv (polledWorld 100) twoCaptures =
        before ++ d :: after →
      ∀ row ∈ insertsLiana d,
        ∃ target, StoresOwnCapture sampleEnv sampleHeaders before d row target) ∧
    ∀ before c mid c' after, captureDeeds sampleEnv (polledWorld 100) twoCaptures =
        before ++ c :: (mid ++ c' :: after) →
      ∀ t ∈ capturedTarget sampleEnv c.toPerformed,
        ∀ t' ∈ capturedTarget sampleEnv c'.toPerformed, c.number ≠ c'.number ∧
          ((∀ e ∈ mid, ¬ ArmsBlock sampleEnv e.toPerformed) → t < t') :=
  captured_rows_ahead sampleEnv sampleHeaders (polledWorld 100) twoCaptures rfl
    (by decide +kernel)

end BroadcastPool
