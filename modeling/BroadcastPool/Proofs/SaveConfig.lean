import BroadcastPool.Api.SaveConfig

/-!
# `BroadcastPool.Proofs.SaveConfig`: what a refused change leaves in memory

`save_config` writes into the configuration that every loop reads, and a refusal takes nothing
back. `refusal` says from the request at which exit the call leaves. What stands before that exit
has been written: it is harmless exactly if the request asks there for what is there already
(`RefusalHarmless`, `refused_save_harmless_iff`).
-/

set_option autoImplicit false

namespace BroadcastPool.Api

/-- The exits of `save_config` with an error. -/
inductive Refusal
  | locked | virtualBlock | identity | recipient | file
deriving DecidableEq, Repr

/-- The part of the request that is named asks for what is there. -/
def Keeps {α : Type} (asked : Option α) (current : α) : Prop := ∀ v ∈ asked, v = current

instance {α : Type} [DecidableEq α] (asked : Option α) (current : α) :
    Decidable (Keeps asked current) := inferInstanceAs (Decidable (∀ v ∈ asked, v = current))

theorem getD_eq_iff {α : Type} {asked : Option α} {current : α} :
    asked.getD current = current ↔ Keeps asked current := by
  cases asked <;> simp [Keeps]

section Conditions
variable (s : Surroundings) (request : SaveConfigRequest) (config : Config)

/-- The virtual block is to be armed at a height that is refused, or at an unknown height of the
chain. -/
def refusesVirtualBlock : Bool :=
  request.lianaVbEnabled = some true &&
    (s.realHeight.isNone ||
      !(validateVirtualHeight (request.lianaVbTargetHeight.getD
        config.schedule.lianaVirtualBlock.targetHeight) s.realHeight).isOk)

/-- Nostr is to be on. -/
def nostrAsked : Bool := request.nostrEnabled.getD config.notifications.nostr.enabled

/-- The recipient that is asked for. -/
def recipientAsked : String :=
  (request.nostrRecipientNpub.map Text.trim).getD config.notifications.nostr.recipientNpub

/-- An identity is needed, and there is none. -/
def needsIdentity : Bool :=
  nostrAsked request config && config.notifications.nostr.appNsec = ""

/-- A recipient is asked for that is no key. -/
def refusesRecipient : Bool :=
  nostrAsked request config && recipientAsked request config ≠ "" &&
    !(s.validateNpub (recipientAsked request config)).isOk

/-- Where the request is refused, if it is. -/
def refusal : Option Refusal :=
  if s.lockError.isSome then some .locked
  else if refusesVirtualBlock s request config then some .virtualBlock
  else if needsIdentity request config && !s.generateNsec.isOk then some .identity
  else if refusesRecipient s request config then some .recipient
  else if !s.saveConfigToDisk.isOk then some .file
  else none

/-- The plan that is asked for is there. -/
structure KeepsSchedule : Prop where
  broadcastMode : Keeps (request.broadcastMode.bind BroadcastMode.parse)
    config.schedule.broadcastMode
  defaultDelayHours : Keeps request.defaultDelayHours config.schedule.defaultDelayHours
  scheduledDatetime : Keeps (request.scheduledDatetime.map fun v =>
    if v = "" then none else some v) config.schedule.scheduledDatetime
  minDelayHours : Keeps request.minDelayHours config.schedule.minDelayHours
  maxDelayHours : Keeps request.maxDelayHours config.schedule.maxDelayHours
  minFeeRate : Keeps request.minFeeRate config.schedule.minFeeRate
  maxFeeRate : Keeps request.maxFeeRate config.schedule.maxFeeRate

/-- The network, the indexer, the plan and the target height that are asked for are there. -/
structure KeepsPlan : Prop where
  network : s.umbrelMode = false → Keeps (request.network.map fun net =>
    networkNamed (Text.lowercase net) config.networkType) config.networkType
  indexer : s.umbrelMode = false → ∀ net ∈ request.network,
    Text.lowercase net ≠ config.networkType.dataDirName →
      (applyIndexerDiscovery s config).2.indexer = config.indexer
  schedule : KeepsSchedule request config
  targetHeight : Keeps request.lianaVbTargetHeight
    config.schedule.lianaVirtualBlock.targetHeight

/-- The virtual block is armed, at the same height, or not, as it is asked for. -/
structure KeepsBlock : Prop where
  enabled : Keeps request.lianaVbEnabled config.schedule.lianaVirtualBlock.enabled
  armedAtHeight : request.lianaVbEnabled = some true →
    s.realHeight = some config.schedule.lianaVirtualBlock.armedAtHeight

/-- The notifications that are asked for are there. -/
structure KeepsNotifications : Prop where
  enabled : Keeps request.notificationsEnabled config.notifications.enabled
  language : Keeps (request.notificationsLanguage.map (SaveConfigRequest.languageOf s))
    config.notifications.language
  nostrEnabled : Keeps request.nostrEnabled config.notifications.nostr.enabled
  recipientNpub : Keeps (request.nostrRecipientNpub.map Text.trim)
    config.notifications.nostr.recipientNpub
  relays : Keeps (request.nostrRelays.map SaveConfigRequest.relaysOf)
    config.notifications.nostr.relays
  torSocks : Keeps (request.nostrTorSocks.map Text.trim) config.notifications.nostr.torSocks

/-- No identity has to be generated. An empty text would be none. -/
def KeepsIdentity : Prop :=
  config.notifications.nostr.enabled = true → config.notifications.nostr.appNsec = "" →
    s.generateNsec = .ok ""

/-- What is written before the request is refused is there already. -/
def RefusalHarmless : Prop :=
  match refusal s request config with
  | none | some .locked => True
  | some .virtualBlock => KeepsPlan s request config
  | some .identity => KeepsPlan s request config ∧ KeepsBlock s request config ∧
      KeepsNotifications s request config
  | some .recipient | some .file => KeepsPlan s request config ∧ KeepsBlock s request config ∧
      KeepsNotifications s request config ∧ KeepsIdentity s config

end Conditions

/-! ### The configuration at each exit -/

section Exits
variable (s : Surroundings) (request : SaveConfigRequest) (config : Config)

/-- The configuration before the virtual block. -/
def afterSchedule : Config :=
  let network := request.applyNetwork s config
  request.applySchedule (SaveConfigRequest.applyIndexer s network.2 network.1).2

/-- The configuration after the virtual block, armed or not. -/
def afterBlock : Config :=
  SaveConfigRequest.setVirtualBlock (afterSchedule s request config)
    (request.applyVirtualBlock s.realHeight
      (afterSchedule s request config).schedule.lianaVirtualBlock).2

/-- The configuration after the notifications. -/
def afterNotifications : Config := request.applyNotifications s (afterBlock s request config)

/-- The configuration after the identity. -/
def afterIdentity : Config :=
  match ensureIdentity s (afterNotifications s request config) with
  | .ok config => config
  | .error _ => afterNotifications s request config

/-- The configuration that a refusal leaves. -/
def left : Refusal → Config
  | .locked => config
  | .virtualBlock => afterBlock s request config
  | .identity => afterNotifications s request config
  | .recipient | .file => afterIdentity s request config

end Exits

section Written
variable {s : Surroundings} {request : SaveConfigRequest} {config : Config}

theorem applyIndexer_networkType (config : Config) (changed : Bool) :
    (SaveConfigRequest.applyIndexer s config changed).2.networkType = config.networkType := by
  unfold SaveConfigRequest.applyIndexer applyIndexerDiscovery
  dsimp only
  repeat' split
  all_goals rfl

theorem applyIndexer_schedule (config : Config) (changed : Bool) :
    (SaveConfigRequest.applyIndexer s config changed).2.schedule = config.schedule := by
  unfold SaveConfigRequest.applyIndexer applyIndexerDiscovery
  dsimp only
  repeat' split
  all_goals rfl

theorem applyIndexer_notifications (config : Config) (changed : Bool) :
    (SaveConfigRequest.applyIndexer s config changed).2.notifications = config.notifications := by
  unfold SaveConfigRequest.applyIndexer applyIndexerDiscovery
  dsimp only
  repeat' split
  all_goals rfl

theorem applyNetwork_schedule : (request.applyNetwork s config).2.schedule = config.schedule := by
  unfold SaveConfigRequest.applyNetwork
  repeat' split
  all_goals rfl

theorem applyNetwork_notifications :
    (request.applyNetwork s config).2.notifications = config.notifications := by
  unfold SaveConfigRequest.applyNetwork
  repeat' split
  all_goals rfl

theorem afterSchedule_virtualBlock :
    (afterSchedule s request config).schedule.lianaVirtualBlock =
      config.schedule.lianaVirtualBlock := by
  show (SaveConfigRequest.applyIndexer s
    (request.applyNetwork s config).2 _).2.schedule.lianaVirtualBlock = _
  rw [applyIndexer_schedule, applyNetwork_schedule]

theorem afterBlock_notifications :
    (afterBlock s request config).notifications = config.notifications := by
  show (SaveConfigRequest.applyIndexer s (request.applyNetwork s config).2 _).2.notifications = _
  rw [applyIndexer_notifications, applyNetwork_notifications]

variable (s request config) in
/-- The virtual block is refused where the request says so. -/
theorem applyVirtualBlock_isOk :
    (request.applyVirtualBlock s.realHeight
      (afterSchedule s request config).schedule.lianaVirtualBlock).1.isOk =
        !refusesVirtualBlock s request config := by
  rw [afterSchedule_virtualBlock]
  unfold BroadcastPool.SaveConfigRequest.applyVirtualBlock refusesVirtualBlock
  dsimp only
  split
  · rename_i hnone
    rw [hnone]
    rfl
  · rename_i hfalse
    rw [hfalse]
    rfl
  · rename_i htrue
    rw [htrue]
    split
    · rename_i hnone
      rw [hnone]
      rfl
    · rename_i armedAt hheight
      rw [hheight]
      split
      · rename_i e herror
        rw [herror]
        rfl
      · rename_i hok
        rw [hok]
        rfl

theorem afterNotifications_enabled :
    (afterNotifications s request config).notifications.nostr.enabled =
      nostrAsked request config := by
  show request.nostrEnabled.getD (afterBlock s request config).notifications.nostr.enabled = _
  rw [afterBlock_notifications]
  rfl

theorem afterNotifications_recipientNpub :
    (afterNotifications s request config).notifications.nostr.recipientNpub =
      recipientAsked request config := by
  show (request.nostrRecipientNpub.map Text.trim).getD
    (afterBlock s request config).notifications.nostr.recipientNpub = _
  rw [afterBlock_notifications]
  rfl

theorem afterNotifications_appNsec :
    (afterNotifications s request config).notifications.nostr.appNsec =
      config.notifications.nostr.appNsec := by
  show (afterBlock s request config).notifications.nostr.appNsec = _
  rw [afterBlock_notifications]

/-- The identity is generated where it is needed. -/
theorem ensureIdentity_afterNotifications :
    ensureIdentity s (afterNotifications s request config) =
      if needsIdentity request config then
        (s.generateNsec.map (afterNotifications s request config).withNsec).mapError
          ("Could not generate a Nostr identity: " ++ ·)
      else .ok (afterNotifications s request config) := by
  unfold ensureIdentity needsIdentity
  simp only [afterNotifications_enabled, afterNotifications_appNsec]
  split
  · cases s.generateNsec <;> rfl
  · rfl

variable (s request config) in
/-- The identity is refused where it is needed and cannot be generated. -/
theorem ensureIdentity_isOk : (ensureIdentity s (afterNotifications s request config)).isOk =
    !(needsIdentity request config && !s.generateNsec.isOk) := by
  rw [ensureIdentity_afterNotifications]
  cases needsIdentity request config <;> cases s.generateNsec <;> rfl

variable (s request config) in
/-- A generated identity leaves what the recipient is checked with. -/
theorem checkRecipient_isOk :
    (checkRecipient s (afterIdentity s request config)).isOk =
      !refusesRecipient s request config := by
  have hchecked : checkRecipient s (afterIdentity s request config) =
      checkRecipient s (afterNotifications s request config) := by
    unfold afterIdentity
    rw [ensureIdentity_afterNotifications]
    cases hneeds : needsIdentity request config with
    | false => rfl
    | true =>
      cases hnsec : s.generateNsec with
      | error e => rfl
      | ok nsec => rfl
  rw [hchecked]
  unfold checkRecipient refusesRecipient
  simp only [afterNotifications_enabled, afterNotifications_recipientNpub]
  split
  · rename_i hasked
    rw [hasked, Bool.true_and, Bool.not_not]
  · rename_i hasked
    rw [Bool.eq_false_iff.2 hasked]
    rfl

theorem refused_of_error {ε α : Type} {x : Except ε α} {e : ε} {refused : Bool}
    (h : x.isOk = !refused) (hx : x = .error e) : refused = true := by
  rw [hx] at h
  simpa [Except.isOk, Except.toBool] using h

theorem accepted_of_ok {ε α : Type} {x : Except ε α} {a : α} {refused : Bool}
    (h : x.isOk = !refused) (hx : x = .ok a) : refused = false := by
  rw [hx] at h
  simpa [Except.isOk, Except.toBool] using h

/-- The answer and the configuration are those of the exit, if there is one. -/
def LeavesAt (s : Surroundings) (request : SaveConfigRequest) (config : Config)
    (result : Except (StatusCode × String) Saved × Config) : Option Refusal → Prop
  | none => result.1.isOk = true
  | some r => ∃ e, result = (.error e, left s request config r)

variable (s request config) in
/-- A refused request leaves what it has written up to the exit. Any other one is answered. -/
theorem saveConfig_leavesAt :
    LeavesAt s request config (saveConfig s request config) (refusal s request config) := by
  have hblock := applyVirtualBlock_isOk s request config
  have hidentity := ensureIdentity_isOk s request config
  have hrecipient := checkRecipient_isOk s request config
  unfold saveConfig
  dsimp only
  -- Exit by exit, in the order of the source. What has gone through so far says which refusal it
  -- is, and what was written so far is what it leaves.
  split
  · rename_i e hlock
    have hrefusal : refusal s request config = some .locked := by
      unfold refusal
      rw [hlock]
      rfl
    rw [hrefusal]
    exact ⟨_, rfl⟩
  rename_i hlock
  split
  · rename_i e herror
    have hrefusal : refusal s request config = some .virtualBlock := by
      unfold refusal
      rw [hlock, refused_of_error hblock herror]
      rfl
    rw [hrefusal]
    exact ⟨_, rfl⟩
  rename_i hok
  split
  · rename_i e herror
    have hrefusal : refusal s request config = some .identity := by
      unfold refusal
      rw [hlock, accepted_of_ok hblock hok, refused_of_error hidentity herror]
      rfl
    rw [hrefusal]
    exact ⟨_, rfl⟩
  rename_i config' hconfig
  have hafter : afterIdentity s request config = config' := by
    unfold afterIdentity
    rw [show ensureIdentity s (afterNotifications s request config) = .ok config' from hconfig]
  rw [hafter] at hrecipient
  split
  · rename_i e herror
    have hrefusal : refusal s request config = some .recipient := by
      unfold refusal
      rw [hlock, accepted_of_ok hblock hok, accepted_of_ok hidentity hconfig,
        refused_of_error hrecipient herror]
      rfl
    rw [hrefusal]
    exact ⟨_, by rw [← hafter]; rfl⟩
  rename_i hvalid
  have hvalid' := accepted_of_ok hrecipient hvalid
  split
  · rename_i e herror
    have hrefusal : refusal s request config = some .file := by
      unfold refusal
      rw [hlock, accepted_of_ok hblock hok, accepted_of_ok hidentity hconfig, hvalid', herror]
      rfl
    rw [hrefusal]
    exact ⟨_, by rw [← hafter]; rfl⟩
  · rename_i hsaved
    have hrefusal : refusal s request config = none := by
      unfold refusal
      rw [hlock, accepted_of_ok hblock hok, accepted_of_ok hidentity hconfig, hvalid', hsaved]
      rfl
    rw [hrefusal]
    rfl

/-! ### What the writes leave as it is -/

theorem applyNetwork_keeps_iff :
    (request.applyNetwork s config).2.networkType = config.networkType ↔
      (s.umbrelMode = false → Keeps (request.network.map fun net =>
        networkNamed (Text.lowercase net) config.networkType) config.networkType) := by
  unfold SaveConfigRequest.applyNetwork
  cases s.umbrelMode <;> cases request.network <;> simp [Keeps]

/-- The network is all that is written of the network. -/
theorem applyNetwork_eq_self
    (h : (request.applyNetwork s config).2.networkType = config.networkType) :
    (request.applyNetwork s config).2 = config := by
  have hrest : (request.applyNetwork s config).2 =
      { config with networkType := (request.applyNetwork s config).2.networkType } := by
    unfold SaveConfigRequest.applyNetwork
    repeat' split
    all_goals rfl
  rw [hrest, h]

theorem applyIndexer_keeps_iff
    (h : (request.applyNetwork s config).2.networkType = config.networkType) :
    (SaveConfigRequest.applyIndexer s (request.applyNetwork s config).2
        (request.applyNetwork s config).1).2.indexer = config.indexer ↔
      (s.umbrelMode = false → ∀ net ∈ request.network,
        Text.lowercase net ≠ config.networkType.dataDirName →
          (applyIndexerDiscovery s config).2.indexer = config.indexer) := by
  rw [applyNetwork_eq_self h]
  unfold SaveConfigRequest.applyIndexer SaveConfigRequest.applyNetwork
  cases s.umbrelMode
  · cases request.network with
    | none => simp
    | some net =>
      by_cases hsame : Text.lowercase net = config.networkType.dataDirName <;> simp [hsame]
  · simp

/-- A virtual block that is refused has its target written. -/
theorem applyVirtualBlock_refused (hrefuses : refusesVirtualBlock s request config = true) :
    (request.applyVirtualBlock s.realHeight config.schedule.lianaVirtualBlock).2 =
      { config.schedule.lianaVirtualBlock with
        targetHeight :=
          request.lianaVbTargetHeight.getD config.schedule.lianaVirtualBlock.targetHeight } := by
  unfold refusesVirtualBlock at hrefuses
  unfold BroadcastPool.SaveConfigRequest.applyVirtualBlock
  dsimp only
  split
  · rfl
  · rename_i hfalse
    rw [hfalse] at hrefuses
    cases hrefuses
  · split
    · rfl
    · rename_i htrue _ armedAt hheight
      rw [htrue, hheight] at hrefuses
      split
      · rfl
      · rename_i hok
        rw [hheight] at hok
        rw [hok] at hrefuses
        cases hrefuses

/-- A virtual block that is accepted is there already, if the request asks for it so. -/
theorem applyVirtualBlock_keeps_iff (haccepts : refusesVirtualBlock s request config = false) :
    (request.applyVirtualBlock s.realHeight config.schedule.lianaVirtualBlock).2 =
        config.schedule.lianaVirtualBlock ↔
      Keeps request.lianaVbTargetHeight config.schedule.lianaVirtualBlock.targetHeight ∧
        KeepsBlock s request config := by
  have hkeepsBlock : KeepsBlock s request config ↔
      Keeps request.lianaVbEnabled config.schedule.lianaVirtualBlock.enabled ∧
        (request.lianaVbEnabled = some true →
          s.realHeight = some config.schedule.lianaVirtualBlock.armedAtHeight) :=
    ⟨fun h => ⟨h.enabled, h.armedAtHeight⟩, fun h => ⟨h.1, h.2⟩⟩
  rw [hkeepsBlock, ← getD_eq_iff]
  unfold refusesVirtualBlock at haccepts
  unfold BroadcastPool.SaveConfigRequest.applyVirtualBlock
  rcases hvb : config.schedule.lianaVirtualBlock with ⟨enabled, target, armedAtHeight⟩
  rw [hvb] at haccepts
  dsimp only at haccepts ⊢
  split
  · rename_i hnone
    simp [Keeps, hnone]
  · rename_i hfalse
    simp [Keeps, hfalse, eq_comm, and_comm]
  · rename_i htrue
    rw [htrue] at haccepts ⊢
    split
    · rename_i hnone
      rw [hnone] at haccepts
      cases haccepts
    · rename_i armedAt hheight
      rw [hheight] at haccepts ⊢
      split
      · rename_i e herror
        rw [herror] at haccepts
        cases haccepts
      · simp [Keeps, eq_comm, and_left_comm]

variable (s request config) in
/-- The fields of the schedule, the virtual block included. -/
theorem schedule_keeps_iff (vb : LianaVirtualBlockConfig) :
    (SaveConfigRequest.setVirtualBlock (afterSchedule s request config) vb).schedule =
        config.schedule ↔
      KeepsSchedule request config ∧ vb = config.schedule.lianaVirtualBlock := by
  have hkeeps : KeepsSchedule request config ↔
      Keeps (request.broadcastMode.bind BroadcastMode.parse) config.schedule.broadcastMode ∧
      Keeps request.defaultDelayHours config.schedule.defaultDelayHours ∧
      Keeps (request.scheduledDatetime.map fun v => if v = "" then none else some v)
        config.schedule.scheduledDatetime ∧
      Keeps request.minDelayHours config.schedule.minDelayHours ∧
      Keeps request.maxDelayHours config.schedule.maxDelayHours ∧
      Keeps request.minFeeRate config.schedule.minFeeRate ∧
      Keeps request.maxFeeRate config.schedule.maxFeeRate :=
    ⟨fun h => ⟨h.1, h.2, h.3, h.4, h.5, h.6, h.7⟩, fun ⟨h1, h2, h3, h4, h5, h6, h7⟩ =>
      ⟨h1, h2, h3, h4, h5, h6, h7⟩⟩
  rw [hkeeps]
  have hbefore : (SaveConfigRequest.applyIndexer s (request.applyNetwork s config).2
      (request.applyNetwork s config).1).2.schedule = config.schedule := by
    rw [applyIndexer_schedule, applyNetwork_schedule]
  unfold afterSchedule SaveConfigRequest.setVirtualBlock SaveConfigRequest.applySchedule
    BroadcastPool.SaveConfigRequest.applyPlan
  dsimp only
  rw [hbefore]
  rcases config.schedule with ⟨⟨mode, datetime, vb', minDelay, maxDelay, minFee, maxFee⟩, delay⟩
  cases request.scheduledDatetime <;>
    simp only [ScheduleConfig.mk.injEq, BroadcastPool.ScheduleConfig.mk.injEq, ← getD_eq_iff,
      Option.map_none, Option.map_some, Option.getD_none, Option.getD_some]
  · tauto
  · tauto

/-- The fields of the notifications. -/
theorem applyNotifications_keeps_iff :
    (request.applyNotifications s config).notifications = config.notifications ↔
      KeepsNotifications s request config := by
  have hkeeps : KeepsNotifications s request config ↔
      Keeps request.notificationsEnabled config.notifications.enabled ∧
      Keeps (request.notificationsLanguage.map (SaveConfigRequest.languageOf s))
        config.notifications.language ∧
      Keeps request.nostrEnabled config.notifications.nostr.enabled ∧
      Keeps (request.nostrRecipientNpub.map Text.trim)
        config.notifications.nostr.recipientNpub ∧
      Keeps (request.nostrRelays.map SaveConfigRequest.relaysOf)
        config.notifications.nostr.relays ∧
      Keeps (request.nostrTorSocks.map Text.trim) config.notifications.nostr.torSocks :=
    ⟨fun h => ⟨h.1, h.2, h.3, h.4, h.5, h.6⟩, fun ⟨h1, h2, h3, h4, h5, h6⟩ =>
      ⟨h1, h2, h3, h4, h5, h6⟩⟩
  rw [hkeeps]
  unfold SaveConfigRequest.applyNotifications
  rcases config.notifications with ⟨enabled, language, nostr⟩
  rcases nostr with ⟨nostrEnabled, recipientNpub, relays, appNsec, torSocks⟩
  simp only [NotificationsConfig.mk.injEq, NostrNotificationConfig.mk.injEq, ← getD_eq_iff,
    true_and]

/-! ### The configuration at each exit, compared with the one before -/

theorem config_eq_iff (config' : Config) : config' = config ↔
    config'.networkType = config.networkType ∧ config'.indexer = config.indexer ∧
      config'.schedule = config.schedule ∧ config'.notifications = config.notifications := by
  rcases config' with ⟨network', indexer', schedule', notifications'⟩
  rcases config with ⟨network, indexer, schedule, notifications⟩
  simp only [Config.mk.injEq]

theorem keepsPlan_iff : KeepsPlan s request config ↔
    (s.umbrelMode = false → Keeps (request.network.map fun net =>
        networkNamed (Text.lowercase net) config.networkType) config.networkType) ∧
      (s.umbrelMode = false → ∀ net ∈ request.network,
        Text.lowercase net ≠ config.networkType.dataDirName →
          (applyIndexerDiscovery s config).2.indexer = config.indexer) ∧
      KeepsSchedule request config ∧
      Keeps request.lianaVbTargetHeight config.schedule.lianaVirtualBlock.targetHeight :=
  ⟨fun h => ⟨h.1, h.2, h.3, h.4⟩, fun ⟨h1, h2, h3, h4⟩ => ⟨h1, h2, h3, h4⟩⟩

/-- The writes before the notifications, by what the virtual block becomes. -/
theorem afterBlock_keeps_iff (target : Prop)
    (hvb : (request.applyVirtualBlock s.realHeight config.schedule.lianaVirtualBlock).2 =
        config.schedule.lianaVirtualBlock ↔
      Keeps request.lianaVbTargetHeight config.schedule.lianaVirtualBlock.targetHeight ∧
        target) :
    afterBlock s request config = config ↔ KeepsPlan s request config ∧ target := by
  have hnetwork : (afterBlock s request config).networkType =
      (request.applyNetwork s config).2.networkType := applyIndexer_networkType _ _
  have hindexer : (afterBlock s request config).indexer =
      (SaveConfigRequest.applyIndexer s (request.applyNetwork s config).2
        (request.applyNetwork s config).1).2.indexer := rfl
  have hschedule := schedule_keeps_iff s request config
    (request.applyVirtualBlock s.realHeight config.schedule.lianaVirtualBlock).2
  have hblock : (afterBlock s request config).schedule =
      (SaveConfigRequest.setVirtualBlock (afterSchedule s request config)
        (request.applyVirtualBlock s.realHeight
          config.schedule.lianaVirtualBlock).2).schedule := by
    unfold afterBlock
    rw [afterSchedule_virtualBlock]
  rw [config_eq_iff, keepsPlan_iff, hnetwork, hindexer, hblock, hschedule, hvb,
    applyNetwork_keeps_iff, afterBlock_notifications]
  constructor
  · rintro ⟨hnet, hind, ⟨hsched, htarget, hrest⟩, -⟩
    exact ⟨⟨hnet, (applyIndexer_keeps_iff (applyNetwork_keeps_iff.2 hnet)).1 hind, hsched,
      htarget⟩, hrest⟩
  · rintro ⟨⟨hnet, hind, hsched, htarget⟩, hrest⟩
    exact ⟨hnet, (applyIndexer_keeps_iff (applyNetwork_keeps_iff.2 hnet)).2 hind,
      ⟨hsched, htarget, hrest⟩, rfl⟩

theorem afterBlock_refused (hrefuses : refusesVirtualBlock s request config = true) :
    afterBlock s request config = config ↔ KeepsPlan s request config := by
  rw [afterBlock_keeps_iff True, and_true]
  rw [applyVirtualBlock_refused hrefuses, and_true, ← getD_eq_iff]
  rcases config.schedule.lianaVirtualBlock with ⟨enabled, targetHeight, armedAtHeight⟩
  simp

theorem afterBlock_accepted (haccepts : refusesVirtualBlock s request config = false) :
    afterBlock s request config = config ↔
      KeepsPlan s request config ∧ KeepsBlock s request config :=
  afterBlock_keeps_iff _ (applyVirtualBlock_keeps_iff haccepts)

theorem afterNotifications_keeps_iff : afterNotifications s request config = config ↔
    afterBlock s request config = config ∧ KeepsNotifications s request config := by
  have hnotifications : (afterNotifications s request config).notifications =
      (request.applyNotifications s config).notifications := by
    unfold afterNotifications SaveConfigRequest.applyNotifications
    dsimp only
    rw [afterBlock_notifications]
  rw [config_eq_iff, config_eq_iff (afterBlock s request config), hnotifications,
    applyNotifications_keeps_iff, afterBlock_notifications]
  constructor
  · rintro ⟨hnet, hind, hsched, hkeeps⟩
    exact ⟨⟨hnet, hind, hsched, rfl⟩, hkeeps⟩
  · rintro ⟨⟨hnet, hind, hsched, -⟩, hkeeps⟩
    exact ⟨hnet, hind, hsched, hkeeps⟩

theorem withNsec_of_eq {nsec : String} (h : config.notifications.nostr.appNsec = nsec) :
    config.withNsec nsec = config := by
  rw [← h]
  rfl

/-- An identity is generated, or it is there already. -/
theorem afterIdentity_keeps_iff
    (haccepts : (needsIdentity request config && !s.generateNsec.isOk) = false) :
    afterIdentity s request config = config ↔
      afterNotifications s request config = config ∧ KeepsIdentity s config := by
  have henabled (h : afterNotifications s request config = config) :
      nostrAsked request config = config.notifications.nostr.enabled := by
    rw [← afterNotifications_enabled (s := s), h]
  unfold afterIdentity
  rw [ensureIdentity_afterNotifications]
  -- An identity is generated only if notifications are on and there is none.
  cases hneeds : needsIdentity request config with
  | false =>
    show afterNotifications s request config = config ↔ _
    refine ⟨fun h => ⟨h, fun hon hempty => ?_⟩, fun h => h.1⟩
    unfold needsIdentity at hneeds
    rw [henabled h, hon, hempty] at hneeds
    cases hneeds
  | true =>
    unfold needsIdentity at hneeds
    obtain ⟨hasked, hempty⟩ := (Bool.and_eq_true ..).mp hneeds
    have hnone : config.notifications.nostr.appNsec = "" := of_decide_eq_true hempty
    cases hnsec : s.generateNsec with
    | error e =>
      rw [hnsec, needsIdentity, hneeds] at haccepts
      cases haccepts
    | ok nsec =>
      show (afterNotifications s request config).withNsec nsec = config ↔ _
      have hsame : (afterNotifications s request config).withNsec "" =
          afterNotifications s request config :=
        withNsec_of_eq (afterNotifications_appNsec.trans hnone)
      constructor
      · -- The generated one is stored, so an unchanged configuration means that it is empty.
        intro h
        have hgenerated : nsec = "" := by
          rw [← hnone, ← h]
          rfl
        rw [hgenerated, hsame] at h
        exact ⟨h, fun _ _ => hnsec.trans (by rw [hgenerated])⟩
      · rintro ⟨h, hidentity⟩
        have hgenerated := hidentity ((henabled h).symm.trans hasked) hnone
        rw [hnsec] at hgenerated
        cases hgenerated
        rw [hsame, h]

/-- The checks that come before the exit went through. -/
theorem accepted_of_refusal {r : Refusal} (h : refusal s request config = some r) :
    (r = .virtualBlock → refusesVirtualBlock s request config = true) ∧
    (r ≠ .locked → r ≠ .virtualBlock → refusesVirtualBlock s request config = false ∧
      (r ≠ .identity → (needsIdentity request config && !s.generateNsec.isOk) = false)) := by
  unfold refusal at h
  split at h
  · cases h
    exact ⟨fun h => (by cases h), fun h => absurd rfl h⟩
  · split at h
    · rename_i hrefuses
      cases h
      exact ⟨fun _ => hrefuses, fun _ h => absurd rfl h⟩
    · rename_i hblock
      have haccepts := Bool.eq_false_iff.2 hblock
      split at h
      · cases h
        exact ⟨fun h => (by cases h), fun _ _ => ⟨haccepts, fun h => absurd rfl h⟩⟩
      · rename_i hidentity
        refine ⟨fun hr => ?_, fun _ _ => ⟨haccepts, fun _ => Bool.eq_false_iff.2 hidentity⟩⟩
        rw [hr] at h
        split at h
        · cases h
        · split at h <;> cases h

/-- A refused request leaves the configuration as it was if and only if all that it asks for before
the exit is there already. -/
theorem refused_save_harmless_iff :
    (∀ e config', saveConfig s request config = (.error e, config') → config' = config) ↔
      RefusalHarmless s request config := by
  have hleaves := saveConfig_leavesAt s request config
  unfold RefusalHarmless
  cases hrefusal : refusal s request config with
  | none =>
    rw [hrefusal] at hleaves
    have hok : (saveConfig s request config).1.isOk = true := hleaves
    refine iff_of_true (fun e config' h => ?_) trivial
    rw [h] at hok
    cases hok
  | some r =>
    rw [hrefusal] at hleaves
    obtain ⟨e, hsaved⟩ := hleaves
    have hleft : (∀ e config', saveConfig s request config = (.error e, config') →
        config' = config) ↔ left s request config r = config := by
      rw [hsaved]
      refine ⟨fun h => h e _ rfl, fun h e' config' heq => ?_⟩
      cases heq
      exact h
    obtain ⟨hrefuses, haccepts⟩ := accepted_of_refusal hrefusal
    rw [hleft]
    -- One case per exit: what is written before it must be what the configuration held.
    cases r with
    | locked => exact iff_of_true rfl trivial
    | virtualBlock => exact afterBlock_refused (hrefuses rfl)
    | identity =>
      obtain ⟨hblock, -⟩ := haccepts (by decide) (by decide)
      show afterNotifications s request config = config ↔ _
      rw [afterNotifications_keeps_iff, afterBlock_accepted hblock, and_assoc]
    | recipient =>
      obtain ⟨hblock, hidentity⟩ := haccepts (by decide) (by decide)
      show afterIdentity s request config = config ↔ _
      rw [afterIdentity_keeps_iff (hidentity (by decide)), afterNotifications_keeps_iff,
        afterBlock_accepted hblock, and_assoc, and_assoc]
    | file =>
      obtain ⟨hblock, hidentity⟩ := haccepts (by decide) (by decide)
      show afterIdentity s request config = config ↔ _
      rw [afterIdentity_keeps_iff (hidentity (by decide)), afterNotifications_keeps_iff,
        afterBlock_accepted hblock, and_assoc, and_assoc]

/-! ### The schedule that the pool reads -/

theorem ensureIdentity_schedule {config' : Config} (h : ensureIdentity s config = .ok config') :
    config'.schedule = config.schedule := by
  unfold ensureIdentity at h
  dsimp only at h
  split at h
  · split at h
    · cases h
      rfl
    · cases h
  · cases h
    rfl

theorem afterBlock_schedule : (afterBlock s request config).schedule.toScheduleConfig =
    (request.toSaveConfigRequest.apply s.realHeight config.schedule.toScheduleConfig).2 := by
  have hbefore : (SaveConfigRequest.applyIndexer s (request.applyNetwork s config).2
      (request.applyNetwork s config).1).2.schedule = config.schedule := by
    rw [applyIndexer_schedule, applyNetwork_schedule]
  unfold afterBlock
  rw [afterSchedule_virtualBlock]
  unfold afterSchedule SaveConfigRequest.setVirtualBlock SaveConfigRequest.applySchedule
  dsimp only
  rw [hbefore]
  rfl

/-- Whatever becomes of the call, the schedule that it leaves is the one of
`SaveConfigRequest.apply`, which the pool's steps are modelled with. -/
theorem saveConfig_schedule (hlock : s.lockError = none) :
    (saveConfig s request config).2.schedule.toScheduleConfig =
      (request.toSaveConfigRequest.apply s.realHeight config.schedule.toScheduleConfig).2 := by
  rw [← afterBlock_schedule]
  unfold saveConfig
  rw [hlock]
  dsimp only
  split
  · rfl
  split
  · rfl
  rename_i config' hconfig
  have hidentity : ensureIdentity s (afterNotifications s request config) = .ok config' := hconfig
  have hschedule : config'.schedule = (afterNotifications s request config).schedule :=
    ensureIdentity_schedule hidentity
  repeat' split
  all_goals exact congrArg ScheduleConfig.toScheduleConfig hschedule

end Written

/-- A call whose chain height is unknown, with nothing else to refuse. -/
def heightUnknown : Surroundings where
  lockError := none
  umbrelMode := false
  realHeight := none
  indexerPinned := false
  resolveWorkingIndexerUrl _ _ := none
  discoverIndexerUrl _ _ _ := none
  generateNsec := .ok "nsec1"
  toLowercase := Text.lowercase
  validateNpub _ := .ok ()
  saveConfigToDisk := .ok ()

/-- A request for manual mode and an armed virtual block is refused, and the mode is manual. -/
theorem refused_save_changes_mode :
    (saveConfig heightUnknown { broadcastMode := some "manual", lianaVbEnabled := some true }
        { networkType := .mainnet }) =
      (.error (.badRequest, "Altura de la cadena no disponible; reintenta en unos segundos."),
        { networkType := .mainnet, schedule := { broadcastMode := .manual } }) ∧
    ¬ ∀ e config', saveConfig heightUnknown
        { broadcastMode := some "manual", lianaVbEnabled := some true }
          { networkType := .mainnet } = (.error e, config') →
        config' = { networkType := .mainnet } := by
  have hsaved : saveConfig heightUnknown
      { broadcastMode := some "manual", lianaVbEnabled := some true }
        { networkType := .mainnet } =
      (.error (.badRequest, "Altura de la cadena no disponible; reintenta en unos segundos."),
        { networkType := .mainnet, schedule := { broadcastMode := .manual } }) := by
    decide +kernel
  refine ⟨hsaved, fun h => ?_⟩
  exact absurd (h _ _ hsaved) (by decide)

end BroadcastPool.Api
