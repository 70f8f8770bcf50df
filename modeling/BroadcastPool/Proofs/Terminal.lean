import BroadcastPool.Proofs.Db.Frame
import BroadcastPool.Proofs.Work
import BroadcastPool.Sample

/-!
# `BroadcastPool.Proofs.Terminal`: broadcast and confirmed rows

Most `UPDATE` statements that make a row wait again name the row by its id only. What keeps
them off a terminal row is a status that the same program read earlier, under another lock
acquisition. `WritesLive` is that discipline on the paths of one program
(`writesLive_activity`): before such a statement, the last query of the program returned the
row with a status that is not terminal. `schedule_at` and `schedule_transaction` have no such
check, and `Update.ignoresStatus` marks their statements.

`terminal_stays` is about interleavings of single statements. It needs that no row became
terminal between the query and the statement (`NoRace`), and that the two functions without a
check meet no terminal row. `scheduleAt_reopens_broadcast` is a run where one does.
-/

set_option autoImplicit false

namespace BroadcastPool

open Effects

/-- `Broadcast` and `Confirmed`. -/
def TxStatus.isTerminal : TxStatus → Bool
  | broadcast | confirmed => true
  | _ => false

/-- The row is stored as `Broadcast` or `Confirmed`. -/
def Row.IsTerminal (r : Row) : Prop := r.status = "broadcast" ∨ r.status = "confirmed"

instance (r : Row) : Decidable r.IsTerminal := inferInstanceAs (Decidable (_ ∨ _))

namespace Update

/-- The statement stores a status that is not terminal, whatever the row's status is. -/
def lowers : Update → Bool
  | txStatus _ status .. => !status.isTerminal
  | reschedule .. | priceSchedule .. | due .. | dueFromPriceTrigger .. | dueWithSchedule ..
  | scheduleRaw .. => true
  | _ => false

/-- The statement of a function that looks at no status: `schedule_at` and
`schedule_transaction`. -/
def ignoresStatus : Update → Bool
  | reschedule .. | scheduleRaw .. => true
  | _ => false

/-- Any other statement keeps a terminal row terminal. -/
theorem set_isTerminal {env : Env} {u : Update} (hu : u.lowers = false) {r : Row}
    (hguard : u.guard r = true) (hr : r.IsTerminal) : (u.set env r).IsTerminal := by
  cases u
  case txStatus id status error now =>
    cases status <;> first | exact Or.inl rfl | exact Or.inr rfl | cases hu
  case failedToScheduled id now =>
    have hfailed : r.status = "failed" := of_decide_eq_true hguard
    rcases hr with hr | hr <;> exact absurd (hfailed.symm.trans hr) (by decide)
  case broadcast id txid fee now => exact Or.inl rfl
  case confirmed id height now => exact Or.inr rfl
  case broadcastMiss | rebroadcastAt | encryptFields => exact hr
  all_goals cases hu

end Update

/-- No row with the id is stored with a status that is not terminal. -/
def TerminalRows (x : String) (w : World) : Prop := ∀ r ∈ w.pool, r.id = x → r.IsTerminal

instance (x : String) (w : World) : Decidable (TerminalRows x w) :=
  inferInstanceAs (Decidable (∀ r ∈ w.pool, r.id = x → r.IsTerminal))

/-- One action keeps terminal rows terminal, if it is no insert, and if it does not lower the
status of such a row. -/
theorem exec_terminalRows {env : Env} {x : String} {a : Act} {w : World}
    (hinsert : ∀ row, a ≠ .insert row)
    (hupdate : ∀ u, a = .update u → u.lowers = true → u.target = x → ∀ r ∈ w.pool, r.id ≠ x)
    (h : TerminalRows x w) : TerminalRows x (World.exec env a w).2 := by
  by_cases hu : ∃ u, a = .update u
  · obtain ⟨u, rfl⟩ := hu
    rcases exec_update env w u with ⟨e, hexec⟩ | hexec
    · rw [hexec]
      exact h
    · rw [hexec]
      intro r hr hid
      obtain ⟨r₀, hr₀, rfl⟩ := List.mem_map.1 hr
      unfold Update.onRow at hid ⊢
      split at hid
      · rename_i hmatch
        rw [if_pos hmatch]
        have hid₀ : r₀.id = x := by
          rw [← hid]
          cases u <;> rfl
        cases hlow : u.lowers with
        | true => exact absurd hid₀ (hupdate u rfl hlow (hmatch.1.symm.trans hid₀) r₀ hr₀)
        | false => exact Update.set_isTerminal hlow hmatch.2 (h r₀ hr₀ hid₀)
      · rename_i hmatch
        rw [if_neg hmatch]
        exact h r₀ hr₀ hid
  · intro r hr hid
    obtain ⟨r₀, hr₀, hserviced⟩ := exec_serviced env hinsert (fun u hau => hu ⟨u, hau⟩) w r hr
    rw [hserviced.eq] at hid ⊢
    exact h r₀ hr₀ hid

/-! ### What a program has read -/

/-- The rows of an answer to a query. -/
def rowsRead : Seen Act Act.Res → Option (List BroadcastTx)
  | ⟨.select _, .ok txs⟩ => some txs
  | ⟨.select _, .error _⟩ => some []
  | _ => none

/-- The rows that the last query of a program returned. -/
def lastRead (seen : List (Seen Act Act.Res)) : List BroadcastTx :=
  ((seen.filterMap rowsRead).getLast?).getD []

theorem lastRead_append (seen : List (Seen Act Act.Res)) (s : Seen Act Act.Res) :
    lastRead (seen ++ [s]) = (rowsRead s).getD (lastRead seen) := by
  unfold lastRead
  rw [List.filterMap_append, List.getLast?_append]
  cases h : rowsRead s <;> simp [h]

/-- The answers that a query can get. -/
def queryAnswers (env : Env) (a : Act) (r : a.Res) : Prop :=
  ∀ q txs, (⟨a, r⟩ : Seen Act Act.Res) = ⟨.select q, .ok txs⟩ →
    ∃ rows, q.Answers env rows txs

theorem queryAnswers_exec (env : Env) (a : Act) (w : World) :
    queryAnswers env a (World.exec env a w).1 := by
  intro q txs heq
  cases a
  case select q' =>
    obtain ⟨hq, hr⟩ := Sigma.mk.inj heq
    cases hq
    have hok := eq_of_heq hr
    rcases exec_select env w q with ⟨e, hexec⟩ | ⟨txs', hmap, hexec⟩
    · rw [hexec] at hok
      cases hok
    · rw [hexec] at hok
      cases hok
      exact ⟨w.pool, answers_of_mapM hmap⟩
  all_goals cases heq

/-- Before a statement that lowers a status, the last query showed the row, and not as
terminal. The program inserts nothing. -/
def WritesLive (seen : List (Seen Act Act.Res)) (a : Act) : Prop :=
  (∀ row, a ≠ .insert row) ∧
    ∀ u, a = .update u → u.lowers = true → u.ignoresStatus = false →
      ∃ tx ∈ lastRead seen, tx.id = u.target ∧ tx.status.isTerminal = false

abbrev liveContract (env : Env) : Contract Act Act.Res (List (Seen Act Act.Res)) :=
  pathContract (queryAnswers env) WritesLive

/-- The statements that need no look at the status. -/
def Update.isFree (u : Update) : Prop := u.lowers = true → u.ignoresStatus = true

/-- The last query returned `txs`, none of them terminal. -/
def Live (txs : List BroadcastTx) (seen : List (Seen Act Act.Res)) : Prop :=
  ∀ tx ∈ txs, tx ∈ lastRead seen ∧ tx.status.isTerminal = false

section
variable {α : Type} {env : Env}

theorem writesLive_of_no_update {seen : List (Seen Act Act.Res)} {a : Act}
    (hinsert : ∀ row, a ≠ .insert row) (hupdate : ∀ u, a ≠ .update u) : WritesLive seen a :=
  ⟨hinsert, fun u hu => absurd hu (hupdate u)⟩

/-- The action is no query, inserts nothing and is no `UPDATE`. -/
def Act.isPlain : Act → Bool
  | select _ | insert _ | update _ => false
  | _ => true

theorem isPlain_of_isClock {a : Act} (h : a.isClock = true) : a.isPlain = true := by
  cases a <;> first | rfl | cases h

theorem writesLive_of_isPlain {seen : List (Seen Act Act.Res)} {a : Act}
    (h : a.isPlain = true) : WritesLive seen a := by
  refine writesLive_of_no_update ?_ ?_
  all_goals
    rintro _ rfl
    cases h

theorem rowsRead_of_isPlain {a : Act} (h : a.isPlain = true) (r : a.Res) :
    rowsRead ⟨a, r⟩ = none := by
  cases a <;> first | rfl | cases h

/-- The actions that need no look at the status. -/
def Act.NeedsNoLook (a : Act) : Prop :=
  (∀ row, a ≠ .insert row) ∧ ∀ u, a = .update u → u.isFree

theorem needsNoLook_update {u : Update} (hu : u.isFree) : (Act.update u).NeedsNoLook := by
  refine ⟨fun row h => ?_, fun u' hu' => ?_⟩
  · cases h
  · cases hu'
    exact hu

theorem needsNoLook_of_isPlain {a : Act} (h : a.isPlain = true) : a.NeedsNoLook := by
  refine ⟨?_, ?_⟩
  all_goals
    rintro _ rfl
    cases h

theorem writesLive_of_work {seen : List (Seen Act Act.Res)} {a : Act}
    (h : a.Work Act.NeedsNoLook) : WritesLive seen a := by
  rcases h with h | ⟨hinsert, hupdate⟩
  · refine writesLive_of_no_update ?_ ?_
    all_goals
      rintro _ rfl
      cases h
  · refine ⟨hinsert, fun u hu hlow hignores => ?_⟩
    rw [hupdate u hu hlow] at hignores
    cases hignores

/-- Work whose statements need no look is fine from everywhere. -/
theorem keeps_free {p : M α} (hp : IsWork Act.NeedsNoLook p) :
    p.Keeps (liveContract env) fun _ => True :=
  Prog.keeps_of_uses
    (fun _ ha _ _ _ => ⟨writesLive_of_work ha, fun _ _ _ => trivial⟩) hp

/-- An action whose answer holds no rows keeps what the last query showed. -/
theorem keeps_live_act {txs : List BroadcastTx} {a : Act} (ha : ∀ r, rowsRead ⟨a, r⟩ = none)
    (hwrites : ∀ seen, Live txs seen → WritesLive seen a) :
    (perform a).Keeps (liveContract env) (Live txs) := by
  refine Prog.keeps_perform a fun seen hseen _ => ⟨hwrites seen hseen, ?_⟩
  rintro r seen' ⟨-, rfl⟩ tx htx
  rw [lastRead_append, ha r]
  exact hseen tx htx

theorem keeps_live_plain {txs : List BroadcastTx} {a : Act} (h : a.isPlain = true) :
    (perform a).Keeps (liveContract env) (Live txs) := by
  exact keeps_live_act (rowsRead_of_isPlain h) fun _ _ => writesLive_of_isPlain h

theorem keeps_live_uses {txs : List BroadcastTx} {p : M α}
    (hp : p.Uses fun a => a.isPlain = true) : p.Keeps (liveContract env) (Live txs) := by
  refine Prog.keeps_of_uses (fun a ha seen hseen _ => ⟨writesLive_of_isPlain ha, ?_⟩) hp
  rintro r seen' ⟨-, rfl⟩ tx htx
  rw [lastRead_append, rowsRead_of_isPlain ha r]
  exact hseen tx htx

theorem keeps_live_clock {txs : List BroadcastTx} {p : M α} (hp : IsClock p) :
    p.Keeps (liveContract env) (Live txs) :=
  keeps_live_uses (Prog.Uses.mono (fun _ => isPlain_of_isClock) hp)

/-- A statement on a row that the last query showed. -/
theorem keeps_live_update {txs : List BroadcastTx} {tx : BroadcastTx} {u : Update}
    (htx : tx ∈ txs) (hu : u.target = tx.id) :
    (perform (.update u)).Keeps (liveContract env) (Live txs) := by
  refine keeps_live_act (fun _ => rfl) fun seen hseen => ⟨fun row h => ?_, fun u' hu' _ _ => ?_⟩
  · cases h
  cases hu'
  exact ⟨tx, (hseen tx htx).1, hu.symm, (hseen tx htx).2⟩

/-- A mutator of a row that the last query showed. -/
theorem keeps_live_clocked {txs : List BroadcastTx} {tx : BroadcastTx} (htx : tx ∈ txs)
    (context : String) {u : String → Update} (hu : ∀ now, (u now).target = tx.id) :
    (do
      let now ← nowText env
      updateAndReseal context (u now) : M Unit).Keeps (liveContract env) (Live txs) :=
  Prog.keeps_bind (keeps_live_clock (clock_nowText env)) fun now =>
    Prog.keeps_bind (keeps_orFail _ (keeps_live_update htx (hu now))) fun _ =>
      keeps_orFail _ (keeps_live_plain rfl)

/-- The rows that the program returns come from its last query, and none is terminal. -/
def ReadsLive (env : Env) (p : M (List BroadcastTx)) : Prop :=
  ∀ seen, p.wp (liveContract env) (fun o seen' => ∀ txs, o = .ok txs → Live txs seen') seen

/-- A query whose `WHERE` clause excludes terminal rows shows none. -/
theorem readsLive_select (context : String) {q : Query}
    (hq : ∀ r, q.selects r = true → (TxStatus.fromStr r.status).isTerminal = false) :
    ReadsLive env (orFail context (perform (.select q))) := by
  intro seen
  refine (wp_orFail _ _ _ _).2 (Prog.wp_perform_path _ _ _
    (writesLive_of_work (Or.inl rfl)) fun r hr => ?_)
  cases r with
  | error e =>
    intro txs h
    cases h
  | ok l =>
    intro txs h
    cases h
    obtain ⟨rows, hanswers⟩ := hr q l rfl
    intro tx htx
    obtain ⟨now, row, -, hsel, hreads⟩ := hanswers tx htx
    rw [lastRead_append]
    refine ⟨htx, ?_⟩
    rw [hreads.status]
    exact hq row hsel

theorem readsLive_getPendingByScheduledTime (network : String) :
    ReadsLive env (getPendingByScheduledTime network) := by
  intro seen
  refine (Prog.wp_bind _ _ _ _).2 (Prog.wp_perform_path _ _ _ (writesLive_of_isPlain rfl)
    fun now _ => ?_)
  refine (Prog.wp_bind _ _ _ _).2 (Prog.wp_mono ?_ _ _ (readsLive_select _ (fun r hr => ?_) _))
  · intro o seen' ho
    cases o with
    | error e =>
      intro txs h
      cases h
    | ok txs =>
      simp only [Prog.pure_eq_ret, Prog.wp_ret]
      intro due hdue
      cases hdue
      exact fun tx htx => ho txs rfl tx (List.mem_of_mem_filter htx)
  · have hstatus : r.status = "pending" := by
      simp only [Query.selects, Bool.and_eq_true, decide_eq_true_eq] at hr
      exact hr.1.1.1
    rw [hstatus]
    rfl

/-- After such a read, the rest of the program works on rows it has seen live. -/
theorem keeps_read_bind {p : M (List BroadcastTx)} {f : List BroadcastTx → M α}
    (hp : ReadsLive env p)
    (hf : ∀ txs seen, Live txs seen →
      (f txs).OnPaths (queryAnswers env) WritesLive seen) :
    (p.bind f).Keeps (liveContract env) fun _ => True := by
  intro seen _
  refine (Prog.wp_bind _ _ _ _).2 (Prog.wp_mono ?_ _ seen (hp seen))
  intro o seen' ho
  cases o with
  | ok txs => exact hf txs seen' (ho txs rfl)
  | error e => trivial

/-- The work on these rows, and then work that needs no look. -/
theorem onPaths_bind {β : Type} {I : List (Seen Act Act.Res) → Prop} {p : M α} {f : α → M β}
    (hp : p.Keeps (liveContract env) I) (hf : ∀ a, (f a).Keeps (liveContract env) fun _ => True)
    {seen : List (Seen Act Act.Res)} (hseen : I seen) :
    (p.bind f).OnPaths (queryAnswers env) WritesLive seen := by
  refine (Prog.wp_bind _ _ _ _).2 (Prog.wp_mono ?_ _ seen (hp seen hseen))
  intro o seen' _
  cases o with
  | ok a => exact hf a seen' trivial
  | error e => trivial

/-- The loop that marks pending rows as due. -/
theorem keeps_live_markPendingLoop (p : Proc) {all txs : List BroadcastTx}
    (hsub : ∀ tx ∈ txs, tx ∈ all) :
    (markPendingLoop env p txs).Keeps (liveContract env) (Live all) := by
  induction txs with
  | nil => exact Prog.keeps_ret _
  | cons tx txs ih =>
    have hrest := ih fun tx' htx' => hsub tx' (List.mem_cons_of_mem _ htx')
    refine Prog.keeps_bind (keeps_live_plain rfl) fun halted => ?_
    split
    · exact Prog.keeps_ret _
    · split
      · exact keeps_live_plain rfl
      · refine Prog.keeps_bind (keeps_logErrorIf _ ?_) fun _ => hrest
        exact keeps_live_clocked (hsub tx (List.mem_cons_self ..)) _ fun _ => rfl

theorem keeps_live_broadcastTransaction (p : Proc) (txs : List BroadcastTx) (tx : BroadcastTx) :
    (broadcastTransaction p tx).Keeps (liveContract env) (Live txs) := by
  refine keeps_live_uses (Prog.Uses.mono (fun a ha => ?_) (uses_broadcastTransaction p tx))
  rcases ha with hclock | rfl | rfl
  · exact isPlain_of_isClock hclock
  · rfl
  · rfl

/-- One due row: a rejection stores `failed` on the row that the query showed. -/
theorem keeps_live_broadcastIfFinal (p : Proc) {all : List BroadcastTx} {tx : BroadcastTx}
    (htx : tx ∈ all) (now : DateTime) :
    (broadcastIfFinal env p tx now).Keeps (liveContract env) (Live all) := by
  refine Prog.keeps_bind (keeps_live_clock (clock_locktimeOrRefuse p _)) fun ok => ?_
  show Prog.Keeps _ _ (if _ then _ else _)
  split
  · refine Prog.keeps_bind
      (keeps_catchErr (keeps_live_broadcastTransaction p all tx)) fun verdict => ?_
    cases verdict with
    | ok txid =>
      refine Prog.keeps_bind (keeps_live_clocked htx _ fun _ => rfl) fun _ => ?_
      exact Prog.keeps_bind (keeps_live_plain rfl) fun _ => Prog.keeps_ret _
    | error e =>
      show Prog.Keeps _ _ (if _ then _ else _)
      split
      · exact Prog.keeps_ret _
      · exact keeps_live_clocked htx _ fun _ => rfl
  · unfold recordMiss
    split
    · refine Prog.keeps_bind (keeps_logErrorIf _ ?_) fun _ =>
        keeps_logErrorIf _ (keeps_live_clock (clock_getMedianTimePastCached p))
      refine Prog.keeps_bind (keeps_live_clock (clock_nowText env)) fun now => ?_
      exact Prog.keeps_bind (keeps_orFail _ (keeps_live_update htx rfl))
        fun _ => Prog.keeps_ret _
    · exact Prog.keeps_ret _

theorem keeps_live_broadcastDueLoop (p : Proc) (now : DateTime) {all txs : List BroadcastTx}
    (hsub : ∀ tx ∈ txs, tx ∈ all) :
    (broadcastDueLoop env p now txs).Keeps (liveContract env) (Live all) := by
  induction txs with
  | nil => exact Prog.keeps_ret _
  | cons tx txs ih =>
    have hrest := ih fun tx' htx' => hsub tx' (List.mem_cons_of_mem _ htx')
    refine Prog.keeps_bind (keeps_live_plain rfl) fun halted => ?_
    split
    · exact Prog.keeps_ret _
    · split
      · exact keeps_live_plain rfl
      · exact Prog.keeps_bind
          (keeps_live_broadcastIfFinal p (hsub tx (List.mem_cons_self ..)) now) fun _ => hrest

/-! ### The functions that look at the status -/

theorem keeps_plain {p : M α} (hp : p.Uses fun a => a.isPlain = true) :
    p.Keeps (liveContract env) fun _ => True :=
  Prog.keeps_of_uses (fun _ ha _ _ _ => ⟨writesLive_of_isPlain ha, fun _ _ _ => trivial⟩) hp

theorem keeps_plain_act {a : Act} (h : a.isPlain = true) :
    (perform a).Keeps (liveContract env) fun _ => True :=
  keeps_plain (uses_act h)

theorem keeps_plain_clock {p : M α} (hp : IsClock p) :
    p.Keeps (liveContract env) fun _ => True :=
  keeps_plain (Prog.Uses.mono (fun _ => isPlain_of_isClock) hp)

theorem keeps_live_broadcastDueTransactions (p : Proc) :
    (broadcastDueTransactions env p).Keeps (liveContract env) fun _ => True := by
  refine Prog.keeps_bind (keeps_plain_act rfl) fun halted => ?_
  split
  · exact Prog.keeps_ret _
  · refine Prog.keeps_bind (keeps_plain_clock (clock_configNetwork p)) fun network => ?_
    refine Prog.keeps_bind (keeps_plain_act rfl) fun now => ?_
    refine keeps_read_bind (readsLive_select _ fun r hr => ?_) fun candidates => ?_
    · have hstatus : r.status = "scheduled" := by
        simp only [Query.selects, Bool.and_eq_true, decide_eq_true_eq] at hr
        exact hr.1
      rw [hstatus]
      rfl
    · refine fun seen => Prog.Keeps.onPaths ?_
      refine (gives_dueTxs p now candidates fun tx =>
        keeps_catchErr (keeps_live_clock (clock_isTxDueForBroadcast p tx now))).keeps_bind
        fun due hdue => ?_
      exact keeps_live_broadcastDueLoop p now hdue

/-- One pass of the broadcast loop: the tick. -/
theorem keeps_live_broadcastLoopPass (p : Proc) :
    (broadcastLoopPass env p).Keeps (liveContract env) fun _ => True := by
  refine Prog.keeps_bind (keeps_plain_act rfl) fun halted => ?_
  split
  · exact Prog.keeps_ret _
  refine Prog.keeps_bind (keeps_plain_act rfl) fun halted => ?_
  split
  · exact Prog.keeps_ret _
  refine Prog.keeps_bind (keeps_plain_act rfl) fun health => ?_
  refine Prog.keeps_bind (keeps_ensure _ _) fun _ => ?_
  refine Prog.keeps_bind (keeps_plain_clock (clock_configNetwork p)) fun network => ?_
  have hrest : (do
      let _ ← catchErr (requeueRetriableFailures env p)
      broadcastDueTransactions env p : M Unit).Keeps (liveContract env) fun _ => True :=
    Prog.keeps_bind
      (keeps_free (uses_catchErr (work_requeueRetriableFailures env p
        fun _ _ => needsNoLook_update fun h => by cases h)))
      fun _ => keeps_live_broadcastDueTransactions p
  refine keeps_read_bind (readsLive_getPendingByScheduledTime network)
    fun txs seen hlive => onPaths_bind ?_ (fun _ => hrest) hlive
  exact keeps_live_markPendingLoop p fun tx htx => htx

theorem keeps_live_blockHeightMonitorPass (p : Proc) :
    (blockHeightMonitorPass env p).Keeps (liveContract env) fun _ => True := by
  refine Prog.keeps_bind (keeps_plain_clock (clock_configNetwork p)) fun network => ?_
  refine Prog.keeps_bind (keeps_plain_act rfl) fun health => ?_
  split
  · refine Prog.keeps_bind (keeps_plain_clock (clock_checkBlockHeight p)) fun height => ?_
    cases height with
    | none => exact Prog.keeps_ret _
    | some height =>
      refine keeps_read_bind (readsLive_select _ fun r hr => ?_) fun txs seen => ?_
      · have hstatus : r.status = "pending" := by
          simp only [Query.selects, Bool.and_eq_true, decide_eq_true_eq] at hr
          exact hr.1.1.1
        rw [hstatus]
        rfl
      · exact Prog.Keeps.onPaths (Prog.keeps_forEach txs fun tx htx =>
          keeps_logErrorIf _ (keeps_live_clocked htx _ fun _ => rfl))
  · exact Prog.keeps_ret _

theorem keeps_live_checkPriceTriggers (p : Proc) (prices : String → Option F64) :
    (checkPriceTriggers env p prices).Keeps (liveContract env) fun _ => True := by
  refine Prog.keeps_bind (keeps_plain_clock (clock_configNetwork p)) fun network => ?_
  refine keeps_read_bind (readsLive_select _ fun r hr => ?_) fun txs seen => ?_
  · have hstatus : r.status = "pending" ∨ r.status = "scheduled" := by
      simp only [Query.selects, Bool.and_eq_true, Bool.or_eq_true, decide_eq_true_eq] at hr
      exact hr.1.1.1
    rcases hstatus with hstatus | hstatus
    all_goals
      rw [hstatus]
      rfl
  · exact Prog.Keeps.onPaths (Prog.keeps_forEach txs fun tx htx =>
      keeps_logErrorIf _ (keeps_live_clocked htx _ fun _ => rfl))

/-- `get_broadcast_tx_by_id` returns a row that its query showed. -/
theorem wp_getBroadcastTxById (id : String) (seen : List (Seen Act Act.Res)) :
    (getBroadcastTxById id).wp (liveContract env)
      (fun o seen' => ∀ tx, o = .ok tx → tx.id = id ∧ tx ∈ lastRead seen') seen := by
  refine (Prog.wp_bind _ _ _ _).2 ((wp_orFail _ _ _ _).2 (Prog.wp_perform_path _ _ _
    (writesLive_of_work (Or.inl rfl)) fun r hr => ?_))
  rcases r with e | (_ | ⟨tx, txs⟩)
  · intro tx h
    cases h
  · simp only [bail, Prog.wp_fail]
    intro tx h
    cases h
  · simp only [Prog.pure_eq_ret, Prog.wp_ret]
    intro tx' h
    cases h
    obtain ⟨rows, hanswers⟩ := hr _ _ rfl
    obtain ⟨now, row, -, hsel, hreads⟩ := hanswers tx (List.mem_cons_self ..)
    refine ⟨?_, ?_⟩
    · rw [hreads.id]
      simpa [Query.selects] using hsel
    · rw [lastRead_append]
      exact List.mem_cons_self ..

/-- `schedule_by_price` refuses a row that is not pending or scheduled. -/
theorem keeps_live_scheduleByPrice (p : Proc) (id : String) (targetPrice : F64)
    (currency condition : String) (feeRate : F64) :
    (scheduleByPrice env p id targetPrice currency condition feeRate).Keeps
      (liveContract env) fun _ => True := by
  refine Prog.keeps_bind (keeps_ensure _ _) fun _ => ?_
  refine Prog.keeps_bind (keeps_ensure _ _) fun _ => ?_
  refine Prog.keeps_bind (keeps_ensure _ _) fun _ => ?_
  intro seen _
  refine (Prog.wp_bind _ _ _ _).2 (Prog.wp_mono ?_ _ seen (wp_getBroadcastTxById id seen))
  intro o seen' ho
  cases o with
  | error e => trivial
  | ok tx =>
    obtain ⟨rfl, hmem⟩ := ho tx rfl
    refine (Prog.wp_bind _ _ _ _).2
      ((Prog.wp_ensure _ _ _ _).2 ⟨fun hstatus => ?_, fun _ => trivial⟩)
    have hlive : Live [tx] seen' := by
      intro tx' htx'
      obtain rfl := List.mem_singleton.1 htx'
      refine ⟨hmem, ?_⟩
      rcases hstatus with hstatus | hstatus <;> rw [hstatus] <;> rfl
    refine (Prog.wp_bind _ _ _ _).2 ((Prog.wp_ensure _ _ _ _).2 ⟨fun _ => ?_, fun _ => trivial⟩)
    refine (Prog.wp_bind _ _ _ _).2 ((Prog.wp_ensure _ _ _ _).2 ⟨fun _ => ?_, fun _ => trivial⟩)
    refine onPaths_bind (keeps_live_clocked (List.mem_singleton_self tx) _ fun _ => rfl)
      (fun _ => ?_) hlive
    refine keeps_free (Prog.uses_bind (quiet_getBroadcastTxById _).work fun updated => ?_)
    exact Prog.uses_bind (clock_enrichTxLocktime p updated).work fun _ => Prog.uses_ret _

/-- The work that inserts rows. -/
def Activity.inserts : Activity → Bool
  | importTx _ | ingest .. => true
  | command _ _ _ (.importTxs _) => true
  | _ => false

theorem isFree_of_not_lowers {u : Update} (h : u.lowers = false) : (Act.update u).NeedsNoLook := by
  refine needsNoLook_update fun hlow => ?_
  rw [h] at hlow
  cases hlow

/-- The start of a process writes `scheduled` only over `failed`. -/
theorem free_startUp (p : Proc) (rpc indexer : Bool) (config : Config) :
    IsWork Act.NeedsNoLook (startUp env p rpc indexer config) :=
  work_startUp env p (needsNoLook_of_isPlain rfl) (fun _ _ _ _ => isFree_of_not_lowers rfl)
    (fun _ _ _ => needsNoLook_of_isPlain rfl) (fun _ _ _ => needsNoLook_of_isPlain rfl)
    fun _ _ => isFree_of_not_lowers rfl

theorem free_command (network : String) {c : Command} (hc : ∀ txs, c ≠ .importTxs txs) :
    IsWork Act.NeedsNoLook (c.prog env network) := by
  cases c with
  | importTxs txs => exact absurd rfl (hc txs)
  | broadcast id =>
    exact Prog.uses_bind (work_broadcastSingle env (fun _ => needsNoLook_of_isPlain rfl)
      (fun _ => needsNoLook_of_isPlain rfl) fun _ _ _ => isFree_of_not_lowers rfl)
      fun _ => Prog.uses_ret _
  | broadcastAll =>
    exact work_broadcastAllPending env network (fun _ => needsNoLook_of_isPlain rfl)
      (fun _ => needsNoLook_of_isPlain rfl) fun _ _ _ _ => isFree_of_not_lowers rfl
  | schedule id minDelay maxDelay minFee maxFee =>
    exact Prog.uses_bind (work_scheduleTransaction env .cli
      fun _ _ _ => needsNoLook_update fun _ => rfl) fun _ => Prog.uses_ret _
  | scheduleAll =>
    exact work_scheduleAllPending env .cli fun _ _ _ _ => needsNoLook_update fun _ => rfl
  | remove id => exact work_removeTransaction env .cli (needsNoLook_of_isPlain rfl)
  | display => exact Prog.uses_ret _

/-- Every piece of work that inserts no row, on each of its paths. -/
theorem writesLive_activity (a : Activity) (ha : a.inserts = false) :
    (a.prog env).OnPaths (queryAnswers env) WritesLive [] := by
  refine Prog.Keeps.onPaths (I := fun _ => True) ?_ trivial
  -- A program that looks before it lowers a status has its own lemma on what it has read. The rest
  -- lowers none, or is one of the two functions without a check.
  cases a with
  | broadcastLoop => exact keeps_live_broadcastLoopPass .daemon
  | blockHeightMonitor => exact keeps_live_blockHeightMonitorPass .daemon
  | priceMonitor prices => exact keeps_live_checkPriceTriggers .daemon prices
  | rebroadcastLoop =>
    refine Prog.keeps_bind (keeps_plain_act rfl) fun health => ?_
    split
    · exact keeps_free (work_rebroadcastPending env .daemon
        (fun _ => needsNoLook_of_isPlain rfl) (fun _ => needsNoLook_of_isPlain rfl)
        fun _ _ => isFree_of_not_lowers rfl)
    · exact Prog.keeps_ret _
  | confirmationChecker =>
    refine Prog.keeps_bind (keeps_plain_act rfl) fun health => ?_
    split
    · exact keeps_free (work_checkConfirmations env .daemon
        fun _ _ _ => isFree_of_not_lowers rfl)
    · exact Prog.keeps_ret _
  | retention key =>
    exact keeps_free (work_retentionPass env .daemon key fun _ _ => needsNoLook_of_isPlain rfl)
  | chainHealthPoll => exact keeps_plain_clock (clock_refreshChainHealth .daemon)
  | scheduleAt id time fee =>
    exact Prog.keeps_bind (keeps_free (work_scheduleAt env .daemon
      fun _ _ _ _ => needsNoLook_update fun _ => rfl)) fun _ => Prog.keeps_ret _
  | scheduleByPrice id target currency condition fee =>
    exact Prog.keeps_bind (keeps_live_scheduleByPrice .daemon id target currency condition fee)
      fun _ => Prog.keeps_ret _
  | scheduleTransaction id minDelay maxDelay minFee maxFee fixedFee =>
    exact Prog.keeps_bind (keeps_free (work_scheduleTransaction env .daemon
      fun _ _ _ => needsNoLook_update fun _ => rfl)) fun _ => Prog.keeps_ret _
  | retry id =>
    exact Prog.keeps_bind (keeps_free (work_retryFailedTransaction env .daemon
      fun _ => isFree_of_not_lowers rfl)) fun _ => Prog.keeps_ret _
  | broadcastNow id =>
    exact Prog.keeps_bind (keeps_free (work_broadcastNow env .daemon
      (needsNoLook_of_isPlain rfl) (fun _ => needsNoLook_of_isPlain rfl)
      (fun _ => needsNoLook_of_isPlain rfl) (fun _ => needsNoLook_of_isPlain rfl)
      fun _ _ _ _ => isFree_of_not_lowers rfl)) fun _ => Prog.keeps_ret _
  | remove id =>
    exact keeps_free (work_removeTransaction env .daemon (needsNoLook_of_isPlain rfl))
  | acknowledge => exact keeps_plain_act rfl
  | archiveFlush key =>
    exact keeps_free (work_archiveFlush env .daemon key fun _ _ => needsNoLook_of_isPlain rfl)
  | saveConfig request => exact keeps_free (work_saveConfig .daemon request)
  | preAck txHex =>
    exact keeps_free (work_preAckStore env .daemon txHex fun _ _ => needsNoLook_of_isPlain rfl)
  | importTx | ingest => cases ha
  | restart rpc indexer config => exact keeps_free (free_startUp .daemon rpc indexer config)
  | command rpc indexer config c =>
    refine Prog.keeps_bind (keeps_free (free_startUp .cli rpc indexer config)) fun _ => ?_
    refine keeps_free (free_command config.network fun txs hc => ?_)
    rw [hc] at ha
    cases ha

end

/-! ### Interleavings -/

/-- The condition on one step. A statement that lowers a status meets a terminal row with its
id only if the row was terminal already when the program read it. The statements of
`schedule_at` and `schedule_transaction`, which read no status, meet none. -/
def NoRace (e : Performed Act Act.Res World) : Prop :=
  match e.act with
  | .update u => u.lowers = true → ∀ r ∈ e.state.pool, r.id = u.target → r.IsTerminal →
      u.ignoresStatus = false ∧
        ∀ tx ∈ lastRead e.seen, tx.id = u.target → tx.status.isTerminal = true
  | _ => True

instance (e : Performed Act Act.Res World) : Decidable (NoRace e) := by
  apply @Act.casesOn (fun a => Decidable (NoRace ⟨e.state, e.seen, a⟩)) e.act
  all_goals
    intros
    dsimp only [NoRace]
    infer_instance

/-- A schedule of work that inserts no row. -/
def InsertsNothing (env : Env) (chs : List (Choice Act Act.Res Failure)) : Prop :=
  ∀ p, Choice.start p ∈ chs → ∃ a : Activity, a.inserts = false ∧ p = a.prog env

/-- In every interleaving of single statements whose steps meet `NoRace`, a row that is terminal
after some of them is terminal after all of them, if it is still in the table. -/
theorem terminal_stays (env : Env) (w : World) (chs chs' : List (Choice Act Act.Res Failure))
    (hschedule : InsertsNothing env (chs ++ chs'))
    (hrace : ∀ e ∈ Config.performed (World.exec env) ⟨w, []⟩ (chs ++ chs'), NoRace e)
    (x : String) (hterminal : TerminalRows x (Config.exec (World.exec env) ⟨w, []⟩ chs).state) :
    TerminalRows x (Config.exec (World.exec env) ⟨w, []⟩ (chs ++ chs')).state := by
  have hpaths : ∀ e ∈ Config.performed (World.exec env) ⟨w, []⟩ (chs ++ chs'),
      WritesLive e.seen e.act := by
    refine Config.performed_of_paths (queryAnswers_exec env) _ _ (fun t ht => by cases ht)
      fun p hp => ?_
    obtain ⟨a, ha, rfl⟩ := hschedule p hp
    exact writesLive_activity a ha
  rw [Config.exec_append]
  rw [Config.performed_append] at hpaths hrace
  refine Config.exec_invariant chs' _ hterminal fun e he hI => ?_
  obtain ⟨hinsert, hlive⟩ := hpaths e (List.mem_append_right _ he)
  have hstep := hrace e (List.mem_append_right _ he)
  refine exec_terminalRows hinsert (fun u hu hlow htarget r hr hid => ?_) hI
  unfold NoRace at hstep
  rw [hu] at hstep
  have hid' : r.id = u.target := hid.trans htarget.symm
  obtain ⟨hlooks, hseen⟩ := hstep hlow r hr hid' (hI r hr hid)
  obtain ⟨tx, hmem, htx, hnot⟩ := hlive u hu hlow hlooks
  rw [hseen tx hmem htx] at hnot
  cases hnot

/-- The tick hands the row over, and then a pass of every other loop looks at it. -/
def afterBroadcastSchedule : List (Choice Act Act.Res Failure) :=
  .start (Activity.blockHeightMonitor.prog sampleEnv) ::
    .start (Activity.confirmationChecker.prog sampleEnv) ::
      .start ((Activity.retry "id0").prog sampleEnv) ::
        (List.replicate 8 (.step 1) ++ List.replicate 8 (.step 2) ++ List.replicate 8 (.step 3))

theorem terminal_stays_tickSchedule :
    TerminalRows "id0" (Config.exec (World.exec sampleEnv) ⟨servedWorld dueRow, []⟩
      (tickSchedule ++ afterBroadcastSchedule)).state := by
  refine terminal_stays sampleEnv (servedWorld dueRow) tickSchedule afterBroadcastSchedule
    ?_ (by decide) "id0" (by decide)
  intro p hp
  simp only [tickSchedule, afterBroadcastSchedule, List.mem_cons, List.mem_append,
    List.mem_replicate] at hp
  rcases hp with (h | ⟨-, h⟩) | h | h | h | (⟨-, h⟩ | ⟨-, h⟩) | ⟨-, h⟩
  · cases h
    exact ⟨.broadcastLoop, rfl, rfl⟩
  · cases h
  · cases h
    exact ⟨.blockHeightMonitor, rfl, rfl⟩
  · cases h
    exact ⟨.confirmationChecker, rfl, rfl⟩
  · cases h
    exact ⟨.retry "id0", rfl, rfl⟩
  all_goals cases h

/-- `schedule_at` on a row that has been broadcast. -/
def reopenSchedule : List (Choice Act Act.Res Failure) :=
  .start ((Activity.scheduleAt "id0" 1000 F64.zero).prog sampleEnv) ::
    List.replicate 4 (.step 0)

theorem scheduleAt_reopens_broadcast :
    ¬ ∀ (env : Env) (w : World) (chs chs' : List (Choice Act Act.Res Failure)),
      InsertsNothing env (chs ++ chs') →
      ∀ x, TerminalRows x (Config.exec (World.exec env) ⟨w, []⟩ chs).state →
        TerminalRows x (Config.exec (World.exec env) ⟨w, []⟩ (chs ++ chs')).state := by
  intro h
  have hschedule : InsertsNothing sampleEnv ([] ++ reopenSchedule) := by
    intro p hp
    rcases List.mem_cons.1 hp with hp | hp
    · cases hp
      exact ⟨.scheduleAt "id0" 1000 F64.zero, rfl, rfl⟩
    · cases List.eq_of_mem_replicate hp
  have hcontra := h sampleEnv (servedWorld { sampleRow with status := "broadcast" }) []
    reopenSchedule hschedule "id0" (by decide)
  revert hcontra
  decide

end BroadcastPool
