import BroadcastPool.Proofs.Mempool.Waiting
import BroadcastPool.Proofs.Work

/-!
# `BroadcastPool.Proofs.VirtualBlock.Ingested`: what a wallet's broadcast captures and stores

An ingest reads the configuration for its plan, may capture the target of the armed virtual block,
and inserts a row. `StoresCapture` says so of each of its paths: at most one capture, at most one
row, and in this row the transaction that came in, with the captured target or its own lock.
`onPaths_ingestTask` proves it. What other work does in between shows only in the answers.
-/

set_option autoImplicit false

namespace BroadcastPool

open Effects

/-- The process whose virtual block an action captures. -/
def Act.capturesFor : Act → Option Proc
  | advanceVirtualBlock p => some p
  | _ => none

/-! ### What an ingest asks for -/

/-- The configurations that a program has read. -/
def configsRead (seen : List (Seen Act Act.Res)) : List Config :=
  seen.filterMap fun s =>
    match s with
    | ⟨.lockConfig .daemon, .ok config⟩ => some config
    | _ => none

/-- The answers to the captures of a program. -/
def capturesIn (seen : List (Seen Act Act.Res)) : List (Except String (Option Nat)) :=
  seen.filterMap fun s =>
    match s with
    | ⟨.advanceVirtualBlock .daemon, answer⟩ => some answer
    | _ => none

/-- The rows that a program has inserted, or tried to. -/
def insertsIn (seen : List (Seen Act Act.Res)) : List Row :=
  seen.filterMap fun s => s.1.inserted?

/-- The last configuration that was read has the block armed. -/
def readsArmed (seen : List (Seen Act Act.Res)) : Bool :=
  (configsRead seen).getLast?.any fun config => config.schedule.lianaVirtualBlock.enabled

/-- The target that the first of these captures has brought. -/
def targetOf (captures : List (Except String (Option Nat))) : Option Nat :=
  (captures.head?.bind Except.toOption).join

/-- What an ingest of `txHex` from `source` requires of its actions. It captures once and inserts
once, a row for its transaction and the target that it has captured. With the block armed, a row
from Liana waits for a block, the captured target. -/
structure StoresCapture (env : Env) (txHex source : String) (seen : List (Seen Act Act.Res))
    (a : Act) : Prop where
  capture : a.capturesFor = some .daemon → capturesIn seen = []
  insert : ∀ row ∈ a.inserted?, insertsIn seen = []
  asked : ∀ row ∈ a.inserted?, ∃ tx network plan, decodeTx env (Text.trim txHex) = .ok tx ∧
    IsNewRow env
      (ingestRequest (Text.trim txHex) network source tx plan (targetOf (capturesIn seen))) row
  stores : source = "liana" → readsArmed seen = true → ∀ row ∈ a.inserted?,
    ∃ target, capturesIn seen = [.ok target] ∧ row.broadcastMode = some "by_block" ∧
      ∀ t ∈ target, row.nlocktime = some (t : Int)

/-- The contract of the paths of an ingest. -/
abbrev captureContract (env : Env) (txHex source : String) :
    Contract Act Act.Res (List (Seen Act Act.Res)) :=
  pathContract anyAnswer (StoresCapture env txHex source)

/-- Nothing was captured or inserted so far. -/
structure Unstored (seen : List (Seen Act Act.Res)) : Prop where
  captures : capturesIn seen = []
  inserts : insertsIn seen = []

/-- The plan is made: what was read and captured so far, with no row inserted yet. -/
structure Planned (armed : Bool) (captures : List (Except String (Option Nat)))
    (seen : List (Seen Act Act.Res)) : Prop where
  reads : readsArmed seen = armed
  captures : capturesIn seen = captures
  inserts : insertsIn seen = []

section
variable {env : Env} {α β : Type} {txHex source : String} {seen : List (Seen Act Act.Res)} {a : Act}

theorem capturesIn_append (h : a.capturesFor ≠ some .daemon) (r : a.Res) :
    capturesIn (seen ++ [⟨a, r⟩]) = capturesIn seen := by
  unfold capturesIn
  rw [List.filterMap_append]
  cases a
  case advanceVirtualBlock p =>
    cases p with
    | daemon => exact absurd rfl h
    | cli => simp
  all_goals simp

theorem insertsIn_append (h : a.inserted? = none) (r : a.Res) :
    insertsIn (seen ++ [⟨a, r⟩]) = insertsIn seen := by
  unfold insertsIn
  rw [List.filterMap_append]
  simp [h]

theorem configsRead_append (h : a ≠ .lockConfig .daemon) (r : a.Res) :
    configsRead (seen ++ [⟨a, r⟩]) = configsRead seen := by
  unfold configsRead
  rw [List.filterMap_append]
  cases a
  case lockConfig p =>
    cases p with
    | daemon => exact absurd rfl h
    | cli => simp
  all_goals simp

/-- An action that neither captures nor inserts meets the contract. -/
theorem storesCapture_of_neither (hcapture : a.capturesFor = none) (hinsert : a.inserted? = none)
    (seen : List (Seen Act Act.Res)) : StoresCapture env txHex source seen a where
  capture h := by
    rw [hcapture] at h
    cases h
  insert row h := by
    rw [hinsert] at h
    cases h
  asked row h := by
    rw [hinsert] at h
    cases h
  stores _ _ row h := by
    rw [hinsert] at h
    cases h

theorem clock_neither (h : a.isClock = true) : a.capturesFor = none ∧ a.inserted? = none := by
  cases a <;> first | exact ⟨rfl, rfl⟩ | cases h

/-- A program that neither captures nor inserts. -/
theorem keeps_neither {prog : M α}
    (h : prog.Uses fun a => a.capturesFor = none ∧ a.inserted? = none) :
    prog.Keeps (captureContract env txHex source) fun _ => True :=
  Prog.keeps_of_uses (fun _ ha seen _ _ =>
    ⟨storesCapture_of_neither ha.1 ha.2 seen, fun _ _ _ => trivial⟩) h

/-- A program that consults clocks and the configuration stores nothing. -/
theorem keeps_unstored {prog : M α} (h : IsClock prog) :
    prog.Keeps (captureContract env txHex source) Unstored := by
  refine Prog.keeps_of_uses (fun a ha seen hseen _ => ?_) h
  obtain ⟨hcapture, hinsert⟩ := clock_neither ha
  refine ⟨storesCapture_of_neither hcapture hinsert seen, ?_⟩
  rintro r seen' ⟨-, rfl⟩
  refine ⟨?_, ?_⟩
  · rw [capturesIn_append (by simp [hcapture])]
    exact hseen.captures
  · rw [insertsIn_append hinsert]
    exact hseen.inserts

/-- An action that keeps the plan: it reads no configuration, captures nothing and inserts nothing.
-/
def Act.keepsPlan : Act → Bool
  | lockConfig _ | advanceVirtualBlock _ | insert _ => false
  | _ => true

theorem neither_of_keepsPlan (h : a.keepsPlan = true) :
    a.capturesFor = none ∧ a.inserted? = none ∧ a ≠ .lockConfig .daemon := by
  cases a <;> first | (cases h; done) | exact ⟨rfl, rfl, by simp⟩

theorem keeps_planned {prog : M α} (h : prog.Uses fun a => a.keepsPlan = true) {armed : Bool}
    {captures : List (Except String (Option Nat))} :
    prog.Keeps (captureContract env txHex source) (Planned armed captures) := by
  refine Prog.keeps_of_uses (fun a ha seen hseen _ => ?_) h
  obtain ⟨hcapture, hinsert, hread⟩ := neither_of_keepsPlan ha
  refine ⟨storesCapture_of_neither hcapture hinsert seen, ?_⟩
  rintro r seen' ⟨-, rfl⟩
  refine ⟨?_, ?_, ?_⟩
  · unfold readsArmed
    rw [configsRead_append hread]
    exact hseen.reads
  · rw [capturesIn_append (by simp [hcapture])]
    exact hseen.captures
  · rw [insertsIn_append hinsert]
    exact hseen.inserts

/-- What keeps an invariant comes first, and then the rest. -/
theorem wp_kept_bind {I : List (Seen Act Act.Res) → Prop} {prog : M α} {f : α → M β}
    (hp : prog.Keeps (captureContract env txHex source) I) (hseen : I seen)
    (hf : ∀ x seen', I seen' →
      (f x).wp (captureContract env txHex source) (fun _ _ => True) seen') :
    (prog.bind f).wp (captureContract env txHex source) (fun _ _ => True) seen := by
  refine (Prog.wp_bind _ _ _ _).2 (Prog.wp_mono (fun o seen' h => ?_) _ _ (hp seen hseen))
  cases o with
  | ok x => exact hf x seen' h
  | error e => trivial

/-! ### The paths of an ingest -/

/-- The request is for the transaction that came in, with the captured target. -/
def AskedFor (env : Env) (txHex source : String) (captures : List (Except String (Option Nat)))
    (req : NewBroadcastTx) : Prop :=
  ∃ tx network plan, decodeTx env (Text.trim txHex) = .ok tx ∧
    req = ingestRequest (Text.trim txHex) network source tx plan (targetOf captures)

/-- A row is inserted once, as the plan and the captures have it. -/
theorem wp_insertBroadcastTx {req : NewBroadcastTx} {armed : Bool}
    {captures : List (Except String (Option Nat))} (hseen : Planned armed captures seen)
    (hasked : AskedFor env txHex source captures req)
    (hstores : ∀ row, IsNewRow env req row → source = "liana" → armed = true →
      ∃ target, captures = [.ok target] ∧ row.broadcastMode = some "by_block" ∧
        ∀ t ∈ target, row.nlocktime = some (t : Int)) :
    (insertBroadcastTx env req).wp (captureContract env txHex source) (fun _ _ => True) seen := by
  -- The ids, clocks and nonces that are read before the `INSERT` change nothing of what is planned.
  have hnonce : ∀ plaintext aad,
      (encode env plaintext aad).Keeps (captureContract env txHex source)
        (Planned armed captures) :=
    fun _ _ => keeps_planned (Prog.uses_bind (uses_act rfl) fun _ => Prog.uses_ret _)
  have hnonce? : ∀ plaintext aad,
      (encode? env plaintext aad).Keeps (captureContract env txHex source)
        (Planned armed captures) := by
    intro plaintext aad
    cases plaintext with
    | none => exact Prog.keeps_ret _
    | some s => exact Prog.keeps_bind (hnonce s aad) fun _ => Prog.keeps_ret _
  unfold insertBroadcastTx
  refine wp_kept_bind (keeps_planned (uses_act rfl)) hseen fun id seen hseen => ?_
  refine wp_kept_bind (keeps_planned (Prog.uses_bind (uses_act rfl) fun _ => Prog.uses_ret _))
    hseen fun now seen hseen => ?_
  refine wp_kept_bind (hnonce _ _) hseen fun encTxHex seen hseen => ?_
  refine wp_kept_bind (hnonce? _ _) hseen fun encDest seen hseen => ?_
  refine wp_kept_bind (hnonce? _ _) hseen fun encSource seen hseen => ?_
  refine (Prog.wp_bind _ _ _ _).2 ((Prog.wp_ensure _ _ _ _).2
    ⟨fun hfits => ?_, fun _ => trivial⟩)
  -- The `INSERT` itself: its row holds what was captured on the way.
  have hrequired : StoresCapture env txHex source seen
      (.insert (newRow env req id now encTxHex encDest encSource)) := by
    refine ⟨fun h => (by cases h), fun row _ => hseen.inserts, fun row hrow => ?_,
      fun hliana harmed row hrow => ?_⟩
    · cases hrow
      obtain ⟨tx, network, plan, hdecode, rfl⟩ := hasked
      rw [hseen.captures]
      exact ⟨tx, network, plan, hdecode, hfits, id, now, encTxHex, encDest, encSource, rfl⟩
    cases hrow
    rw [hseen.captures]
    rw [hseen.reads] at harmed
    exact hstores _ ⟨hfits, id, now, encTxHex, encDest, encSource, rfl⟩ hliana harmed
  show Prog.wp _ (Prog.bind _ _) _ _
  refine (Prog.wp_bind _ _ _ _).2 ((wp_orFail _ _ _ _).2 (Prog.wp_perform_path _ _ _
    hrequired fun r _ => ?_))
  · -- After it, the row is only read back.
    cases r with
    | error e => trivial
    | ok u =>
      refine keeps_neither ?_ _ trivial
      refine Prog.uses_bind (uses_orFail _ (uses_act ⟨rfl, rfl⟩)) fun txs => ?_
      cases txs with
      | nil => exact Prog.uses_fail _
      | cons tx txs => exact Prog.uses_ret _

/-- The end of `handle_broadcast`: the row is stored as planned. -/
theorem wp_storePlan {req : NewBroadcastTx} {armed immediate : Bool} {txid stored : String}
    {captures : List (Except String (Option Nat))} (hseen : Planned armed captures seen)
    (hasked : AskedFor env txHex source captures req)
    (hstores : ∀ row, IsNewRow env req row → source = "liana" → armed = true →
      ∃ target, captures = [.ok target] ∧ row.broadcastMode = some "by_block" ∧
        ∀ t ∈ target, row.nlocktime = some (t : Int)) :
    ((importTransaction env req).bind fun imported =>
      (storePendingOutputs env .daemon txid stored).bind fun _ =>
        (logErrorIf immediate (markDue env imported.id)).bind fun _ => .ret txid).wp
      (captureContract env txHex source) (fun _ _ => True) seen := by
  refine (Prog.wp_bind _ _ _ _).2 (Prog.wp_mono (fun o seen' _ => ?_) _ _
    (wp_insertBroadcastTx hseen hasked hstores))
  cases o with
  | error e => trivial
  | ok imported =>
    refine keeps_neither ?_ _ trivial
    refine Prog.uses_bind (uses_act ⟨rfl, rfl⟩) fun _ => Prog.uses_bind ?_ fun _ => Prog.uses_ret _
    unfold logErrorIf
    split
    · refine Prog.uses_bind (uses_catchErr ?_) fun _ => Prog.uses_ret _
      refine Prog.uses_bind (Prog.uses_bind (uses_act ⟨rfl, rfl⟩) fun _ => Prog.uses_ret _)
        fun now => ?_
      refine Prog.uses_bind (uses_orFail _ (uses_act ⟨rfl, rfl⟩)) fun _ => ?_
      exact uses_orFail _ (uses_act ⟨rfl, rfl⟩)
    · exact Prog.uses_ret _

/-- The plan for a transaction from Liana. -/
theorem resolveIngestPlan_liana (nlocktime : Nat) (config : Config) (height : Option Nat) :
    resolveIngestPlan env "liana" nlocktime config height =
      if config.schedule.lianaVirtualBlock.enabled then .ret (.byBlock, none)
      else .ret (.manual, none) :=
  if_pos rfl

/-- `handle_broadcast`, once it has read the configuration for its plan. -/
theorem wp_planAndStore {config : Config} {height : Option Nat} {network txid : String}
    {tx : Transaction} (hdecode : decodeTx env (Text.trim txHex) = .ok tx) (hseen : Unstored seen)
    (hread : readsArmed seen = config.schedule.lianaVirtualBlock.enabled) :
    ((resolveIngestPlan env source tx.lockTime config height).bind fun plan =>
      (captureVirtualBlock .daemon plan.1 source).bind fun target =>
        (importTransaction env
            (ingestRequest (Text.trim txHex) network source tx plan target)).bind
          fun imported => (storePendingOutputs env .daemon txid (Text.trim txHex)).bind fun _ =>
            (logErrorIf (plan.1 = .immediate) (markDue env imported.id)).bind fun _ =>
              .ret txid).wp (captureContract env txHex source) (fun _ _ => True) seen := by
  by_cases hliana : source = "liana"
  · subst hliana
    rw [resolveIngestPlan_liana]
    split
    · -- Armed: the target is captured, and then stored.
      rename_i henabled
      have hrequired : StoresCapture env txHex "liana" seen (.advanceVirtualBlock .daemon) :=
        ⟨fun _ => hseen.captures, fun row h => (by cases h), fun row h => (by cases h),
          fun _ _ row h => (by cases h)⟩
      have hcapture : captureVirtualBlock .daemon .byBlock "liana" =
          orRaise (perform (.advanceVirtualBlock .daemon)) := if_pos ⟨rfl, rfl⟩
      refine (Prog.wp_bind _ _ _ _).2 ((Prog.wp_ret _ _ _).mpr ?_)
      show Prog.wp _ (Prog.bind (captureVirtualBlock .daemon .byBlock "liana") _) _ _
      rw [hcapture]
      refine (Prog.wp_bind _ _ _ _).2 ((wp_orRaise _ _ _).2 (Prog.wp_perform_path _ _ _
        hrequired fun answer _ => ?_))
      cases answer with
      | error e => trivial
      | ok target =>
        have hplanned : Planned true [.ok target]
            (seen ++ [⟨.advanceVirtualBlock .daemon, .ok target⟩]) := ⟨?_, ?_, ?_⟩
        · refine wp_storePlan hplanned ⟨tx, network, _, hdecode, rfl⟩ ?_
          rintro row ⟨-, id, now, encTxHex, encDest, encSource, rfl⟩ - -
          refine ⟨target, rfl, rfl, fun t ht => ?_⟩
          cases ht
          rfl
        · unfold readsArmed at hread ⊢
          rw [configsRead_append (by simp), hread, henabled]
        · unfold capturesIn
          rw [List.filterMap_append, ← capturesIn, hseen.captures]
          rfl
        · rw [insertsIn_append rfl]
          exact hseen.inserts
    · -- Not armed: the plan is manual, and nothing is captured.
      rename_i hdisarmed
      refine (Prog.wp_bind _ _ _ _).2 ((Prog.wp_ret _ _ _).mpr ?_)
      show Prog.wp _ (Prog.bind (captureVirtualBlock .daemon .manual "liana") _) _ _
      refine (Prog.wp_bind _ _ _ _).2 ((Prog.wp_ret _ _ _).mpr ?_)
      refine wp_storePlan ⟨hread, hseen.captures, hseen.inserts⟩
        ⟨tx, network, _, hdecode, rfl⟩ ?_
      exact fun _ _ _ harmed => absurd harmed hdisarmed
  · -- Any other source captures nothing either.
    refine wp_kept_bind (keeps_unstored (clock_resolveIngestPlan env _ _ _ _)) hseen
      fun plan seen hseen => ?_
    have hnone : captureVirtualBlock .daemon plan.1 source = .ret none :=
      if_neg fun h => hliana h.2
    rw [hnone]
    refine (Prog.wp_bind _ _ _ _).2 ((Prog.wp_ret _ _ _).mpr ?_)
    refine wp_storePlan ⟨rfl, hseen.captures, hseen.inserts⟩ ⟨tx, network, _, hdecode, rfl⟩ ?_
    exact fun _ _ h => absurd h hliana

/-- The configuration that was just read. -/
theorem readsArmed_append (config : Config) :
    readsArmed (seen ++ [⟨.lockConfig .daemon, (.ok config : Except String Config)⟩]) =
      config.schedule.lianaVirtualBlock.enabled := by
  unfold readsArmed configsRead
  rw [List.filterMap_append]
  simp

theorem wp_handleBroadcast (hseen : Unstored seen) :
    (handleBroadcast env .daemon txHex source).wp (captureContract env txHex source)
      (fun _ _ => True)
      seen := by
  unfold handleBroadcast
  dsimp only
  split
  · exact keeps_neither (Prog.uses_fail _) _ trivial
  · rename_i tx hdecode
    have hhealth : IsClock (perform (.chainHealth .daemon)) := uses_act rfl
    refine wp_kept_bind (keeps_unstored (clock_configNetwork .daemon)) hseen
      fun network seen hseen => ?_
    refine wp_kept_bind (keeps_unstored hhealth) hseen fun health seen hseen => ?_
    refine (Prog.wp_bind _ _ _ _).2 ((wp_orRaise _ _ _).2 (Prog.wp_perform_path _ _ _
      (storesCapture_of_neither rfl rfl seen) fun answer _ => ?_))
    cases answer with
    | error e => trivial
    | ok config =>
      refine wp_planAndStore hdecode ⟨?_, ?_⟩ (readsArmed_append config)
      · rw [capturesIn_append (by simp [Act.capturesFor])]
        exact hseen.captures
      · rw [insertsIn_append rfl]
        exact hseen.inserts

/-- An ingest captures once, inserts once and stores what it captures. -/
theorem onPaths_ingestTask (txHex source : String) :
    (ingestTask env .daemon txHex source).OnPaths anyAnswer
      (StoresCapture env txHex source) [] := by
  have hclock : IsClock (perform .instant) := uses_act rfl
  unfold Prog.OnPaths ingestTask
  refine wp_kept_bind (keeps_unstored hclock) ⟨rfl, rfl⟩ fun start seen hseen => ?_
  refine (Prog.wp_bind _ _ _ _).2 ((Prog.wp_attempt _ _ _).2 (Prog.wp_mono ?_ _ _
    (wp_handleBroadcast hseen)))
  intro outcome seen _
  refine keeps_neither ?_ seen trivial
  refine Prog.uses_bind (uses_act ⟨rfl, rfl⟩) fun finished => ?_
  cases outcome with
  | error e => exact Prog.uses_ret _
  | ok txid =>
    show Prog.Uses _ (if _ then _ else _)
    split
    · refine Prog.Uses.mono (fun a ha => ?_)
        (enriching_enrichPendingInputScripthashes env .daemon txid _)
      cases a <;> first | exact ⟨rfl, rfl⟩ | cases ha
    · exact Prog.uses_ret _

end

end BroadcastPool
