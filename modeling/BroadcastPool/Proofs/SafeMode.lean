import BroadcastPool.Proofs.Work
import BroadcastPool.Sample

/-!
# `BroadcastPool.Proofs.SafeMode`: the safe-mode flag and the hand-overs

The daemon's flag is a field of its `PoolManager`, and a hand-over is a later step than the
check of the flag. `CheckedSend` is what the code guarantees on its own, on every path of every
piece of work (`onPaths_activity`): the scheduler tick and `broadcast_now` hand a row over only
when their last answer about the flag was `false`, and only a row that did not read back as
tampered. The rebroadcast loop and two command lines hand rows over without a look at either. All
other work hands nothing over.

`safe_mode_halts` turns this into a statement about interleavings. Its condition (`FlagCurrent`) is
about the moment between the check and the hand-over: the flag still has the value that the program
saw. For the work that does not look, the flag has to be down and the row untampered.
`rebroadcast_ignores_safe_mode` is an interleaving of `broadcast_now` and the rebroadcast loop
in which it is not.
-/

set_option autoImplicit false

namespace BroadcastPool

open Effects

/-- The daemon's safe-mode flag, if the answer is one to a question for it. -/
def flagRead : Seen Act Act.Res → Option Bool
  | ⟨.isSafeMode .daemon, halted⟩ => some halted
  | _ => none

/-- The flag as a program saw it last. -/
def lastFlag (seen : List (Seen Act Act.Res)) : Option Bool := (seen.filterMap flagRead).getLast?

theorem lastFlag_append (seen : List (Seen Act Act.Res)) (s : Seen Act Act.Res) :
    lastFlag (seen ++ [s]) = (flagRead s).or (lastFlag seen) := by
  unfold lastFlag
  rw [List.filterMap_append, List.getLast?_append]
  congr 1
  cases h : flagRead s <;> simp [h]

namespace Act

/-- The action asks for the daemon's flag. -/
def readsFlag : Act → Bool
  | isSafeMode .daemon => true
  | _ => false

/-- The action is the start of a daemon, whose flag is down. -/
def startsDaemon : Act → Bool
  | startProcess .daemon .. => true
  | _ => false

/-- The action leaves the flag alone and does not ask for it. -/
def IsBlind (a : Act) : Prop := a.readsFlag = false ∧ a.startsDaemon = false

end Act

theorem flagRead_of_not_readsFlag {a : Act} (h : a.readsFlag = false) (r : a.Res) :
    flagRead ⟨a, r⟩ = none := by
  unfold flagRead
  split
  · rename_i heq
    cases heq
    cases h
  · rfl

theorem isBlind_of_isBasic {a : Act} (h : a.isBasic = true) :
    a.IsBlind ∧ a.handsOver = none := by
  cases a <;> first | exact ⟨⟨rfl, rfl⟩, rfl⟩ | cases h

/-- What the code checks on its own before it hands a row over. -/
def CheckedSend (job : Activity) (seen : List (Seen Act Act.Res)) (a : Act) : Prop :=
  a.startsDaemon = false ∧ ∀ tx, a.handsOver = some tx →
    job.handsOverUnchecked = true ∨ lastFlag seen = some false ∧ tx.tampered ≠ some true

abbrev flagContract (job : Activity) : Contract Act Act.Res (List (Seen Act Act.Res)) :=
  pathContract anyAnswer (CheckedSend job)

section
variable {α : Type} {env : Env} {job : Activity}

theorem checkedSend_of_none {seen : List (Seen Act Act.Res)} {a : Act}
    (hstart : a.startsDaemon = false) (hsend : a.handsOver = none) : CheckedSend job seen a := by
  refine ⟨hstart, fun tx htx => ?_⟩
  rw [hsend] at htx
  cases htx

/-- What a program sees of the flag does not change while it does not ask for it. -/
theorem keeps_lastFlag {p : M α} {flag : Option Bool} {P : Act → Prop} (hp : p.Uses P)
    (h : ∀ a, P a → a.IsBlind ∧ ∀ tx, a.handsOver = some tx →
      flag = some false ∧ tx.tampered ≠ some true) :
    p.Keeps (flagContract job) fun seen => lastFlag seen = flag := by
  refine Prog.keeps_of_uses (fun a ha seen hseen _ => ?_) hp
  obtain ⟨⟨hreads, hstart⟩, hsend⟩ := h a ha
  refine ⟨⟨hstart, fun tx htx => Or.inr ?_⟩, ?_⟩
  · rw [hseen]
    exact hsend tx htx
  · rintro r seen' ⟨-, rfl⟩
    rw [lastFlag_append, flagRead_of_not_readsFlag hreads]
    exact hseen

/-- The actions that neither touch the flag nor hand anything over. -/
def Act.IsSilent (a : Act) : Prop := a.IsBlind ∧ a.handsOver = none

theorem isSilent_of_work {a : Act} (h : a.Work Act.IsSilent) : a.IsSilent := by
  rcases h with h | h
  · exact isBlind_of_isBasic h
  · exact h

theorem keeps_lastFlag_work {p : M α} (hp : IsWork Act.IsSilent p) (flag : Option Bool) :
    p.Keeps (flagContract job) fun seen => lastFlag seen = flag := by
  refine keeps_lastFlag hp fun a ha => ?_
  obtain ⟨hblind, hsend⟩ := isSilent_of_work ha
  refine ⟨hblind, fun tx htx => ?_⟩
  rw [hsend] at htx
  cases htx

theorem isSilent_update {u : Update} : (Act.update u).IsSilent := ⟨⟨rfl, rfl⟩, rfl⟩

/-- Work that may hand over the one row `tx`, after a look at the flag and at the row. -/
theorem keeps_lastFlag_sends {p : M α} {tx : BroadcastTx} (htx : tx.tampered ≠ some true)
    (hp : IsWork (fun a => a.IsSilent ∨ a.IsBlind ∧ a.handsOver = some tx) p) :
    p.Keeps (flagContract job) fun seen => lastFlag seen = some false := by
  refine keeps_lastFlag hp fun a ha => ?_
  rcases ha with ha | ⟨hblind, hsend⟩ | ⟨hblind, hsend⟩
  · obtain ⟨hblind, hsend⟩ := isBlind_of_isBasic ha
    refine ⟨hblind, fun tx' htx' => ?_⟩
    rw [hsend] at htx'
    cases htx'
  · refine ⟨hblind, fun tx' htx' => ?_⟩
    rw [hsend] at htx'
    cases htx'
  · refine ⟨hblind, fun tx' htx' => ?_⟩
    rw [hsend] at htx'
    cases htx'
    exact ⟨rfl, htx⟩

/-- A program that hands nothing over meets the requirement from everywhere. -/
theorem keeps_anywhere {p : M α} {P : Act → Prop} (hp : p.Uses P)
    (h : ∀ a, P a → a.startsDaemon = false ∧ a.handsOver = none) :
    p.Keeps (flagContract job) fun _ => True :=
  Prog.keeps_of_uses
    (fun a ha _ _ _ => ⟨checkedSend_of_none (h a ha).1 (h a ha).2, fun _ _ _ => trivial⟩) hp

theorem keeps_anywhere_work {p : M α} (hp : IsWork Act.IsSilent p) :
    p.Keeps (flagContract job) fun _ => True :=
  keeps_anywhere hp fun _ ha => ⟨(isSilent_of_work ha).1.2, (isSilent_of_work ha).2⟩

theorem keeps_anywhere_act {a : Act} (hstart : a.startsDaemon = false)
    (hsend : a.handsOver = none) : (perform a).Keeps (flagContract job) fun _ => True :=
  Prog.keeps_perform a fun _ _ _ =>
    ⟨checkedSend_of_none hstart hsend, fun _ _ _ => trivial⟩

/-- After a question for the flag, the rest of the program knows the answer. -/
theorem keeps_isSafeMode_bind {f : Bool → M α}
    (h : ∀ halted seen, lastFlag seen = some halted →
      (f halted).wp (flagContract job) (fun _ _ => True) seen) :
    ((perform (.isSafeMode .daemon)).bind f).Keeps (flagContract job) fun _ => True := by
  intro seen _
  refine (Prog.wp_bind _ _ _ _).2 (Prog.wp_perform_path _ _ _ (checkedSend_of_none rfl rfl) ?_)
  intro halted _
  refine h halted _ ?_
  rw [lastFlag_append]
  rfl

/-- The loop of `broadcast_due_transactions` asks for the flag before each row. -/
theorem keeps_anywhere_broadcastDueLoop (now : DateTime) (txs : List BroadcastTx) :
    (broadcastDueLoop env .daemon now txs).Keeps (flagContract job) fun _ => True := by
  induction txs with
  | nil => exact Prog.keeps_ret _
  | cons tx txs ih =>
    refine keeps_isSafeMode_bind fun halted seen hseen => ?_
    split
    · exact Prog.keeps_ret _ seen trivial
    · rename_i hdown
      have hflag : lastFlag seen = some false := by
        rw [hseen, Bool.eq_false_iff.2 hdown]
      split
      · exact keeps_anywhere_act rfl rfl seen trivial
      · rename_i huntampered
        have hsend : (broadcastIfFinal env .daemon tx now).Keeps (flagContract job)
            fun seen => lastFlag seen = some false :=
          keeps_lastFlag_sends huntampered (work_broadcastIfFinal env .daemon now
            (Or.inr ⟨⟨rfl, rfl⟩, rfl⟩) (Or.inr ⟨⟨rfl, rfl⟩, rfl⟩)
            (fun _ _ _ => Or.inl isSilent_update) (fun _ _ => Or.inl isSilent_update)
            fun _ _ _ => Or.inl isSilent_update)
        refine (Prog.wp_bind _ _ _ _).2 (Prog.wp_mono ?_ _ seen (hsend seen hflag))
        intro o seen' _
        cases o with
        | ok u => exact ih seen' trivial
        | error e => trivial

theorem keeps_anywhere_broadcastDueTransactions :
    (broadcastDueTransactions env .daemon).Keeps (flagContract job) fun _ => True := by
  refine keeps_isSafeMode_bind fun halted seen _ => ?_
  split
  · exact Prog.keeps_ret _ seen trivial
  · refine Prog.keeps_bind (keeps_anywhere_work
      (clock_configNetwork .daemon).work) (fun network => ?_) seen trivial
    refine Prog.keeps_bind (keeps_anywhere_act rfl rfl) fun now => ?_
    refine Prog.keeps_bind (keeps_anywhere_work (quiet_select _ _).work)
      fun candidates => ?_
    refine Prog.keeps_bind (keeps_anywhere_work
      (clock_dueTxs .daemon now candidates).work) fun due => ?_
    exact keeps_anywhere_broadcastDueLoop now due

theorem keeps_anywhere_markPendingLoop (txs : List BroadcastTx) :
    (markPendingLoop env .daemon txs).Keeps (flagContract job) fun _ => True := by
  induction txs with
  | nil => exact Prog.keeps_ret _
  | cons tx txs ih =>
    refine Prog.keeps_bind (keeps_anywhere_act rfl rfl) fun halted => ?_
    split
    · exact Prog.keeps_ret _
    · split
      · exact keeps_anywhere_act rfl rfl
      · exact Prog.keeps_bind (keeps_anywhere_work
          (uses_logErrorIf _ (work_clocked env _ fun _ => isSilent_update))) fun _ => ih

/-- The scheduler tick. -/
theorem keeps_anywhere_broadcastLoopPass :
    (broadcastLoopPass env .daemon).Keeps (flagContract job) fun _ => True := by
  have htick : (runSchedulerTick env .daemon).Keeps (flagContract job) fun _ => True := by
    refine Prog.keeps_bind (keeps_anywhere_act rfl rfl) fun halted => ?_
    split
    · exact Prog.keeps_ret _
    · refine Prog.keeps_bind (keeps_anywhere_act rfl rfl) fun health => ?_
      refine Prog.keeps_bind (keeps_ensure _ _) fun _ => ?_
      refine Prog.keeps_bind (keeps_anywhere_work
        (clock_configNetwork .daemon).work) fun network => ?_
      refine Prog.keeps_bind (keeps_anywhere_work
        (quiet_getPendingByScheduledTime network).work) fun pending => ?_
      refine Prog.keeps_bind (keeps_anywhere_markPendingLoop pending) fun _ => ?_
      refine Prog.keeps_bind (keeps_anywhere_work
        (uses_catchErr (work_requeueRetriableFailures env .daemon fun _ _ => isSilent_update)))
        fun _ => ?_
      exact keeps_anywhere_broadcastDueTransactions
  refine Prog.keeps_bind (keeps_anywhere_act rfl rfl) fun halted => ?_
  split
  · exact Prog.keeps_ret _
  · exact htick

/-- `broadcast_now` asks once, at its start. -/
theorem keeps_anywhere_broadcastNow (id : String) :
    (broadcastNow env .daemon id).Keeps (flagContract job) fun _ => True := by
  refine keeps_isSafeMode_bind fun halted seen hseen => ?_
  by_cases hdown : halted = false
  · have hflag : lastFlag seen = some false := by
      rw [hseen, hdown]
    refine Prog.wp_mono (fun _ _ _ => trivial) _ seen (Prog.keeps_bind
      (I := fun seen => lastFlag seen = some false) (keeps_ensure _ _) (fun _ => ?_) seen hflag)
    refine Prog.keeps_bind
      (keeps_lastFlag_work (quiet_getBroadcastTxById id).work _) fun tx => ?_
    split
    · exact Prog.keeps_bind (keeps_lastFlag (P := (· = .enterSafeMode .daemon tx.id))
        (uses_act rfl) fun a ha => by subst ha; exact ⟨⟨rfl, rfl⟩, fun _ h => by cases h⟩)
        fun _ => Prog.keeps_fail _
    · rename_i huntampered
      have hrefuse : IsClock (refuseEmitted tx.status) := by
        unfold refuseEmitted
        split
        · exact Prog.uses_fail _
        · exact Prog.uses_fail _
        · exact Prog.uses_ret _
      refine Prog.keeps_bind (keeps_lastFlag_work hrefuse.work _)
        fun _ => ?_
      refine Prog.keeps_bind (keeps_lastFlag_work
        (clock_locktimeOrRefuse .daemon _).work _) fun ok => ?_
      split
      · have hsend : (broadcastTransaction .daemon tx).Keeps (flagContract job)
            fun seen => lastFlag seen = some false :=
          keeps_lastFlag_sends huntampered (work_broadcastTransaction .daemon
            (Or.inr ⟨⟨rfl, rfl⟩, rfl⟩) (Or.inr ⟨⟨rfl, rfl⟩, rfl⟩))
        refine Prog.keeps_bind hsend fun txid => ?_
        exact Prog.keeps_bind (keeps_lastFlag_work
          (work_markBroadcast env .daemon txid _ fun _ => isSilent_update) _)
          fun _ => Prog.keeps_ret _
      · exact keeps_lastFlag_work
          (clock_refuseNonFinal .daemon _).work _
  · refine (Prog.wp_bind _ _ _ _).2 ((Prog.wp_ensure _ _ _ _).2
      ⟨fun h => absurd h hdown, fun _ => trivial⟩)

/-- The other work never asks for the flag, and hands something over only if it is known for that.
A command line has its own flag. -/
theorem blind_activity (hloop : job ≠ .broadcastLoop) (hnow : ∀ id, job ≠ .broadcastNow id)
    (hrestart : job.isRestart = false) :
    IsWork (fun a => a.IsBlind ∧ (a.handsOver = none ∨ job.handsOverUnchecked = true))
      (job.prog env) := by
  have hsends : job.handsOver = true → job.handsOverUnchecked = true := by
    intro h
    cases job with
    | broadcastLoop => exact absurd rfl hloop
    | broadcastNow id => exact absurd rfl (hnow id)
    | rebroadcastLoop => rfl
    | command rpc indexer config c => cases c <;> first | rfl | cases h
    | _ => cases h
  refine work_activity job ?_ hloop hnow
  refine ⟨fun _ _ _ => ⟨⟨rfl, rfl⟩, .inl rfl⟩, fun _ _ _ _ _ => ⟨⟨rfl, rfl⟩, .inl rfl⟩,
    fun _ _ _ _ _ => ⟨⟨rfl, rfl⟩, .inl rfl⟩, fun _ _ _ _ => ⟨⟨rfl, rfl⟩, .inl rfl⟩,
    fun _ => ⟨⟨rfl, rfl⟩, .inl rfl⟩, fun _ _ _ => ⟨⟨rfl, rfl⟩, .inl rfl⟩,
    fun _ _ _ _ => ⟨⟨rfl, rfl⟩, .inl rfl⟩, fun _ _ _ _ => ⟨⟨rfl, rfl⟩, .inl rfl⟩,
    fun h _ => ⟨⟨rfl, rfl⟩, .inr (hsends h)⟩, fun h _ => ⟨⟨rfl, rfl⟩, .inr (hsends h)⟩,
    ⟨⟨rfl, rfl⟩, .inl rfl⟩, ?_⟩
  intro p rpc indexer config hp
  cases p with
  | daemon =>
    rw [hrestart] at hp
    cases hp rfl
  | cli => exact ⟨⟨rfl, rfl⟩, .inl rfl⟩

/-- Every piece of work, on each of its paths. -/
theorem onPaths_activity (hrestart : job.isRestart = false) :
    (job.prog env).OnPaths anyAnswer (CheckedSend job) [] := by
  by_cases hguarded : job = .broadcastLoop ∨ ∃ id, job = .broadcastNow id
  · rcases hguarded with rfl | ⟨id, rfl⟩
    · exact Prog.Keeps.onPaths keeps_anywhere_broadcastLoopPass trivial
    · exact Prog.Keeps.onPaths (Prog.keeps_bind (keeps_anywhere_broadcastNow id)
        fun _ => Prog.keeps_ret _) trivial
  · have hblind : IsWork _ (job.prog env) := blind_activity (fun h => hguarded (Or.inl h))
      (fun id h => hguarded (Or.inr ⟨id, h⟩)) hrestart
    refine Prog.Keeps.onPaths (I := fun _ => True) (Prog.keeps_of_uses
      (fun a ha _ _ _ => ⟨?_, fun _ _ _ => trivial⟩) hblind) trivial
    rcases ha with hbasic | ⟨hblind, hnone | hunchecked⟩
    · obtain ⟨hblind, hnone⟩ := isBlind_of_isBasic hbasic
      exact checkedSend_of_none hblind.2 hnone
    · exact checkedSend_of_none hblind.2 hnone
    · exact ⟨hblind.2, fun _ _ => Or.inl hunchecked⟩

end

/-! ### Interleavings -/

/-- The flag after an action: raised by `enter_safe_mode`, lowered by `clear_safe_mode`. -/
def flagAfter (halted : Bool) : Act → Bool
  | .enterSafeMode .daemon _ => true
  | .clearSafeMode .daemon => false
  | _ => halted

/-- The flag of the daemon only changes by these two. -/
theorem exec_flag (env : Env) (w : World) {a : Act} (h : a.startsDaemon = false) :
    (World.exec env a w).2.daemon.safeMode = flagAfter w.daemon.safeMode a := by
  by_cases hw : a.writesSafeMode = false
  · have hflag : ((World.exec env a w).2.pm .daemon).safeMode = (w.pm .daemon).safeMode :=
      exec_safeMode hw .daemon
    have hsame : flagAfter w.daemon.safeMode a = w.daemon.safeMode := by
      cases a <;> first | rfl | cases hw
    rw [hsame]
    exact hflag
  · cases a <;> first | exact absurd rfl hw | skip
    case startProcess p rpc indexer config => cases p <;> first | rfl | cases h
    case enterSafeMode p id => cases p <;> rfl
    case clearSafeMode p => cases p <;> rfl

/-- The condition on one step. Work that looks at the flag hands over while the flag still is what
it saw last. Work that does not look hands over an untampered row while the flag is down. -/
def FlagCurrent (d : WorkDeed) : Prop :=
  ∀ tx ∈ d.act.handsOver,
    if d.job.handsOverUnchecked then d.state.daemon.safeMode = false ∧ tx.tampered ≠ some true
    else ∀ halted ∈ lastFlag d.seen, d.state.daemon.safeMode = halted

instance (d : WorkDeed) : Decidable (FlagCurrent d) := by
  unfold FlagCurrent
  infer_instance

/-- In every interleaving of the program's work without a restart of the daemon, whose hand-overs
meet `FlagCurrent`, a hand-over happens only while the last of `enter_safe_mode` and
`clear_safe_mode` is not `enter_safe_mode`, and it carries a row that did not read back as
tampered. -/
theorem safe_mode_halts (env : Env) (w : World) (os : List (Order Activity))
    (hrestarts : ∀ a, Order.start a ∈ os → a.isRestart = false)
    (hcurrent : ∀ d ∈ workDeeds env w os, FlagCurrent d) :
    ∀ before d after, workDeeds env w os = before ++ d :: after →
      ∀ tx, d.act.handsOver = some tx →
        (before.map (·.act)).foldl flagAfter w.daemon.safeMode = false ∧
          tx.tampered ≠ some true := by
  have hpaths : ∀ d ∈ workDeeds env w os, CheckedSend d.job d.seen d.act :=
    Config.required_of_deed (anyAnswer_exec env) fun a ha => onPaths_activity (hrestarts a ha)
  intro before d after hsplit tx htx
  have hmem : d ∈ workDeeds env w os := Config.mem_of_split hsplit
  have hfold : d.state.daemon.safeMode =
      (before.map (·.act)).foldl flagAfter w.daemon.safeMode := by
    refine Config.deeds_induction (I := fun before w' => w'.daemon.safeMode =
      (before.map (·.act)).foldl flagAfter w.daemon.safeMode) rfl
      (fun before d after hsplit hI => ?_) hsplit
    have hd : d ∈ workDeeds env w os := Config.mem_of_split hsplit
    rw [exec_flag env d.state (hpaths d hd).1, hI, List.map_append, List.foldl_append]
    rfl
  have hcurrent := hcurrent d hmem tx htx
  rcases (hpaths d hmem).2 tx htx with hunchecked | ⟨hread, huntampered⟩
  · rw [if_pos hunchecked] at hcurrent
    exact ⟨hfold.symm.trans hcurrent.1, hcurrent.2⟩
  · split at hcurrent
    · exact ⟨hfold.symm.trans hcurrent.1, hcurrent.2⟩
    · exact ⟨hfold.symm.trans (hcurrent false hread), huntampered⟩

/-- A tick, a request to send the row now and a pass of the rebroadcast loop take turns. -/
def sendingOrders : List (Order Activity) :=
  [.start .broadcastLoop, .start (.broadcastNow "id0"), .start .rebroadcastLoop] ++
    (List.replicate 20 [.step 0, .step 1, .step 2]).flatten

theorem safe_mode_halts_sendingOrders :
    (∃ d ∈ workDeeds sampleEnv (servedWorld dueRow) sendingOrders, d.act.handsOver.isSome) ∧
      ∀ before d after,
        workDeeds sampleEnv (servedWorld dueRow) sendingOrders = before ++ d :: after →
        ∀ tx, d.act.handsOver = some tx →
          (before.map (·.act)).foldl flagAfter (servedWorld dueRow).daemon.safeMode = false ∧
            tx.tampered ≠ some true := by
  refine ⟨by decide +kernel,
    safe_mode_halts sampleEnv (servedWorld dueRow) sendingOrders (fun a ha => ?_)
      (by decide +kernel)⟩
  simp only [sendingOrders, List.mem_append, List.mem_cons, Order.start.injEq,
    List.not_mem_nil, or_false] at ha
  rcases ha with (rfl | rfl | rfl) | ha
  · rfl
  · rfl
  · rfl
  · simp at ha

/-- `broadcast_now` finds a tampered row and enters safe mode, and then the rebroadcast loop
hands that row over. -/
def rebroadcastOrders : List (Order Activity) :=
  .start (.broadcastNow "id0") :: .start .rebroadcastLoop ::
    (List.replicate 3 (.step 0) ++ List.replicate 7 (.step 1))

/-- What they do to a served row that has been handed over before and has lost its MAC. -/
def rebroadcastDeeds : List WorkDeed :=
  workDeeds sampleEnv (servedWorld { sampleRow with status := "broadcast", rowMac := none })
    rebroadcastOrders

theorem rebroadcast_ignores_safe_mode :
    ¬ ∀ (env : Env) (w : World) (os : List (Order Activity)),
      (∀ a, Order.start a ∈ os → a.isRestart = false) → ∀ before d after,
        workDeeds env w os = before ++ d :: after →
        ∀ tx, d.act.handsOver = some tx →
          (before.map (·.act)).foldl flagAfter w.daemon.safeMode = false ∧
            tx.tampered ≠ some true := by
  intro h
  have hhalted : ∃ i : Fin rebroadcastDeeds.length,
      (rebroadcastDeeds.get i).act.handsOver.isSome = true ∧
        ((rebroadcastDeeds.take i).map (·.act)).foldl flagAfter false = true := by
    decide +kernel
  obtain ⟨i, hsome, hflag⟩ := hhalted
  obtain ⟨tx, htx⟩ := Option.isSome_iff_exists.1 hsome
  have hsplit : rebroadcastDeeds = rebroadcastDeeds.take i ++
      rebroadcastDeeds.get i :: rebroadcastDeeds.drop (i + 1) := by
    rw [List.get_eq_getElem, ← List.drop_eq_getElem_cons i.isLt, List.take_append_drop]
  have hrestarts : ∀ a, Order.start a ∈ rebroadcastOrders → a.isRestart = false := by
    intro a ha
    simp only [rebroadcastOrders, List.mem_cons, List.mem_append, List.mem_replicate,
      Order.start.injEq, reduceCtorEq, and_false, or_false] at ha
    rcases ha with rfl | rfl
    · rfl
    · rfl
  have hcontra := (h _ _ _ hrestarts _ _ _ hsplit tx htx).1
  rw [show (servedWorld _).daemon.safeMode = false from rfl, hflag] at hcontra
  cases hcontra

end BroadcastPool
