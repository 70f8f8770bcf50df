import BroadcastPool.Lib.Sequence
import BroadcastPool.Proofs.Db.Frame
import BroadcastPool.Proofs.Db.Seal
import BroadcastPool.Sample

/-!
# `BroadcastPool.Proofs.TamperEvidence`: a row whose MAC does not match

`Tainted` says that the rows with one id are there and have stale MACs. The scheduler tick,
`broadcast_now` and the retention look at `tampered` before they touch a row, so they leave
such a row alone and do not hand it over. Other functions write a row, and seal it, without
that look: `Rewrites` lists their statements. `keeps_tainted` shows that every other step
keeps the evidence, and `tamper_evidence_kept` is the result over whole sequences of work.
`restart_seals_unsealed_row` is a start of the daemon that seals a row without a MAC.
-/

set_option autoImplicit false

namespace BroadcastPool

open Effects

/-- There are such rows, and none of them has the MAC its columns call for. -/
def Tainted (env : Env) (rows : List Row) : Prop :=
  rows ≠ [] ∧ ∀ r ∈ rows, ¬ r.MacMatches env

/-- A statement on the row with the id by a function that does not look at `tampered` first:
the requeue of a failed row, the block height monitor, the price monitor, the confirmation
checker, the scheduling requests, the encryption of legacy rows, and the migration of an old
import. The last case is a user who removes the row. -/
def Rewrites (x : String) (w : World) : Act → Prop
  | .update (.failedToScheduled id _) =>
      id = x ∧ ∃ r ∈ rowsOf x w.pool, r.status = "failed"
  | .update (.due id _) =>
      id = x ∧ ∃ r ∈ rowsOf x w.pool, r.broadcastMode = some "by_block"
  | .update (.dueFromPriceTrigger id _) | .update (.confirmed id _ _)
  | .update (.reschedule id _ _ _ _) | .update (.priceSchedule id _ _ _ _ _)
  | .update (.scheduleRaw id _ _ _) | .update (.encryptFields id _ _ _) => id = x
  | .migrate =>
      ∃ r ∈ rowsOf x w.pool, r.broadcastMode = some "immediate" ∧ r.status = "pending"
  | .delete id => id = x
  | _ => False

instance (x : String) (w : World) (a : Act) : Decidable (Rewrites x w a) := by
  apply @Act.casesOn (fun a => Decidable (Rewrites x w a)) a
  case update =>
    intro u
    apply @Update.casesOn (fun u => Decidable (Rewrites x w (.update u))) u
    all_goals
      intros
      dsimp only [Rewrites]
      infer_instance
  all_goals
    intros
    dsimp only [Rewrites]
    infer_instance

section
variable {env : Env} {x : String} {I : List Row → Prop}

/-- The contract of the steps: nothing rewrites the row, and no hand-over carries it. -/
abbrev evidenceContract (env : Env) (x : String) : Contract Act Act.Res World :=
  (World.exec env).contract (fun w a => ¬ Rewrites x w a)
    fun _ a => ∀ tx, a.handsOver = some tx → tx.id ≠ x

theorem hands_over_none {a : Act} (h : a.handsOver = none) :
    ∀ tx, a.handsOver = some tx → tx.id ≠ x := by
  intro tx htx
  rw [h] at htx
  cases htx

/-- A property of the rows with the id, as an invariant. -/
abbrev OfRows (x : String) (I : List Row → Prop) (w : World) : Prop := I (rowsOf x w.pool)

/-- A function that acts on another row keeps every property of this one. -/
theorem keeps_actsOn {α : Type} {p : M α} {id : String} (hid : id ≠ x) (hp : ActsOn id p) :
    p.Keeps (evidenceContract env x) (OfRows x I) := by
  refine Prog.keeps_of_uses (fun a ha w hw _ => ⟨fun tx htx => ?_, fun r w' hstep => ?_⟩) hp
  · rw [ha.2 tx htx]
    exact hid
  · have hrows : rowsOf x (World.exec env a w).2.pool = rowsOf x w.pool :=
      exec_rowsOf (ha.1 x hid.symm) w
    rw [show World.exec env a w = (r, w') from hstep] at hrows
    unfold OfRows
    rw [hrows]
    exact hw

/-- So does a function that acts on no row. -/
theorem keeps_memory {α : Type} {p : M α} (hp : IsMemory p) :
    p.Keeps (evidenceContract env x) (OfRows x I) := by
  have hid : x ++ "'" ≠ x := by
    intro h
    have := congrArg String.length h
    simp at this
  exact keeps_actsOn hid (actsOn_memory hp)

theorem keeps_act {a : Act} (hpool : a.writesPool = false) (hsend : a.handsOver = none) :
    (perform a).Keeps (evidenceContract env x) (OfRows x I) := by
  have hid : x ++ "'" ≠ x := by
    intro h
    have := congrArg String.length h
    simp at this
  exact keeps_actsOn hid (actsOn_act hpool hsend)

/-- A mutator that does not look at `tampered`. -/
theorem keeps_mutator (context : String) {u : Update}
    (hu : u.target = x → ∀ w, Rewrites x w (.update u)) :
    (updateAndReseal context u).Keeps (evidenceContract env x) (OfRows x I) := by
  by_cases hx : u.target = x
  · intro w hw
    exact (Prog.wp_bind _ _ _ _).2 ((wp_orFail _ _ _ _).2
      (Prog.wp_perform_excluded fun hnot => hnot (hu hx w)))
  · exact keeps_actsOn hx (actsOn_updateAndReseal context rfl)

/-- Such a mutator, after a look at the clock. -/
theorem keeps_clockedMutator (context : String) {u : String → Update}
    (hu : ∀ now, (u now).target = x → ∀ w, Rewrites x w (.update (u now))) :
    (do
      let now ← nowText env
      updateAndReseal context (u now) : M Unit).Keeps (evidenceContract env x) (OfRows x I) :=
  Prog.keeps_bind (keeps_memory (clock_nowText env).memory) fun now =>
    keeps_mutator context (hu now)

/-- `reset_failed_to_scheduled` rewrites a failed row, and does nothing to any other. -/
theorem keeps_evidence_resetFailedToScheduled (id : String) :
    (resetFailedToScheduled env id).Keeps (evidenceContract env x) (OfRows x I) := by
  by_cases hid : id = x
  · subst hid
    refine Prog.keeps_bind (keeps_memory (clock_nowText env).memory) fun now w hw => ?_
    refine (Prog.wp_bind _ _ _ _).2 ((wp_orFail _ _ _ _).2
      (Prog.wp_perform_handler _ _ _ w fun hnot => ⟨hands_over_none rfl, ?_⟩))
    rcases exec_update env w (.failedToScheduled id now) with ⟨e, hexec⟩ | hexec
    · rw [hexec]
      exact hw
    · rw [hexec]
      -- No row with the id is failed, so the statement counts none and the function ends.
      have hcount : updateCount (.failedToScheduled id now) w.pool = 0 := by
        refine List.countP_eq_zero.2 fun r hr hmatch => hnot ⟨rfl, r, ?_⟩
        obtain ⟨hrid, hfailed⟩ := (Bool.and_eq_true _ _).mp hmatch
        exact ⟨mem_rowsOf.2 ⟨hr, of_decide_eq_true hrid⟩, of_decide_eq_true hfailed⟩
      refine (Prog.wp_bind _ _ _ _).2 ((Prog.wp_ensure _ _ _ _).2 ⟨fun h => ?_, fun _ => ?_⟩)
      · exact absurd hcount h
      · show I (rowsOf id (applyUpdate env (.failedToScheduled id now) w.pool))
        rw [applyUpdate_of_count_zero hcount]
        exact hw
  · exact keeps_actsOn hid (actsOn_resetFailedToScheduled env)

theorem keeps_evidence_requeueRetriableFailures (p : Proc) :
    (requeueRetriableFailures env p).Keeps (evidenceContract env x) (OfRows x I) := by
  refine Prog.keeps_bind (keeps_memory (clock_configNetwork p).memory) fun network => ?_
  refine Prog.keeps_bind (keeps_memory (quiet_select _ _).memory) fun failed => ?_
  refine Prog.keeps_forEach failed fun tx _ => ?_
  unfold requeueFailure
  split
  · exact keeps_evidence_resetFailedToScheduled tx.id
  · exact Prog.keeps_ret _

/-! ### What a look at `tampered` shows -/

/-- What the queries show of a tainted row: it reads back as tampered. -/
abbrev ShowsTaint (x : String) (tx : BroadcastTx) : Prop := tx.id = x → tx.tampered = some true

theorem showsTaint_of_reads {rows : List Row} (hT : Tainted env (rowsOf x rows)) {r : Row}
    (hr : r ∈ rows) {now : DateTime} {tx : BroadcastTx} (hreads : ReadsAs env now r tx) :
    ShowsTaint x tx := by
  intro hid
  have hmem : r ∈ rowsOf x rows := mem_rowsOf.2 ⟨hr, hreads.id.symm.trans hid⟩
  rcases hreads.tampered with ⟨-, hmac⟩ | ⟨htampered, -⟩
  · exact absurd hmac (hT.2 r hmem)
  · exact htampered

theorem ne_of_showsTaint {tx : BroadcastTx} (h : ShowsTaint x tx) (hne : tx.tampered ≠ some true) :
    tx.id ≠ x :=
  fun hid => hne (h hid)

theorem gives_tainted_select (context : String) (q : Query) :
    Prog.Gives (evidenceContract env x) (OfRows x (Tainted env))
      (fun txs => ∀ tx ∈ txs, ShowsTaint x tx) (orFail context (perform (.select q))) := by
  refine gives_select context (fun w hw => ⟨hands_over_none rfl, hw⟩) ?_
  intro w hw txs hanswers tx htx
  obtain ⟨now, r, hr, -, hreads⟩ := hanswers tx htx
  exact showsTaint_of_reads hw hr hreads

theorem gives_tainted_getBroadcastTxById (id : String) :
    Prog.Gives (evidenceContract env x) (OfRows x (Tainted env)) (ShowsTaint x)
      (getBroadcastTxById id) :=
  gives_getBroadcastTxById (fun _ hw => ⟨hands_over_none rfl, hw⟩)
    fun _ hw _ _ _ hr _ hreads => showsTaint_of_reads hw hr hreads

/-- The loop that marks pending rows stops at the tainted row. -/
theorem keeps_tainted_markPendingLoop (p : Proc) (txs : List BroadcastTx)
    (htxs : ∀ tx ∈ txs, ShowsTaint x tx) :
    (markPendingLoop env p txs).Keeps (evidenceContract env x) (OfRows x (Tainted env)) := by
  induction txs with
  | nil => exact Prog.keeps_ret _
  | cons tx txs ih =>
    refine Prog.keeps_bind (keeps_act rfl rfl) fun halted => ?_
    split
    · exact Prog.keeps_ret _
    · split
      · exact keeps_act rfl rfl
      · rename_i huntampered
        have hid : tx.id ≠ x := ne_of_showsTaint (htxs tx (List.mem_cons_self ..)) huntampered
        refine Prog.keeps_bind
          (keeps_logErrorIf _ (keeps_actsOn hid (actsOn_clocked env _ fun _ => rfl))) fun _ => ?_
        exact ih fun tx' htx' => htxs tx' (List.mem_cons_of_mem _ htx')

/-- The batch of due rows stops at the tainted row. -/
theorem keeps_tainted_broadcastDueLoop (p : Proc) (now : DateTime) (txs : List BroadcastTx)
    (htxs : ∀ tx ∈ txs, ShowsTaint x tx) :
    (broadcastDueLoop env p now txs).Keeps (evidenceContract env x)
      (OfRows x (Tainted env)) := by
  induction txs with
  | nil => exact Prog.keeps_ret _
  | cons tx txs ih =>
    refine Prog.keeps_bind (keeps_act rfl rfl) fun halted => ?_
    split
    · exact Prog.keeps_ret _
    · split
      · exact keeps_act rfl rfl
      · rename_i huntampered
        have hid : tx.id ≠ x := ne_of_showsTaint (htxs tx (List.mem_cons_self ..)) huntampered
        refine Prog.keeps_bind (keeps_actsOn hid (actsOn_broadcastIfFinal env p tx now))
          fun _ => ?_
        exact ih fun tx' htx' => htxs tx' (List.mem_cons_of_mem _ htx')

theorem keeps_tainted_broadcastDueTransactions (p : Proc) :
    (broadcastDueTransactions env p).Keeps (evidenceContract env x)
      (OfRows x (Tainted env)) := by
  refine Prog.keeps_bind (keeps_act rfl rfl) fun halted => ?_
  split
  · exact Prog.keeps_ret _
  · refine Prog.keeps_bind (keeps_memory (clock_configNetwork p).memory) fun network => ?_
    refine Prog.keeps_bind (keeps_act rfl rfl) fun now => ?_
    refine Prog.Gives.keeps_bind (gives_tainted_select _ _) fun candidates hcandidates => ?_
    have hdue := gives_dueTxs (c := evidenceContract env x) (I := OfRows x (Tainted env)) p now
      candidates
      fun tx => keeps_memory (uses_catchErr (clock_isTxDueForBroadcast p tx now).memory)
    refine Prog.Gives.keeps_bind hdue fun due hsub => ?_
    exact keeps_tainted_broadcastDueLoop p now due fun tx htx => hcandidates tx (hsub tx htx)

theorem keeps_tainted_runSchedulerTick (p : Proc) :
    (runSchedulerTick env p).Keeps (evidenceContract env x) (OfRows x (Tainted env)) := by
  refine Prog.keeps_bind (keeps_act rfl rfl) fun halted => ?_
  split
  · exact Prog.keeps_ret _
  · refine Prog.keeps_bind (keeps_act rfl rfl) fun health => ?_
    refine Prog.keeps_bind (keeps_ensure _ _) fun _ => ?_
    refine Prog.keeps_bind (keeps_memory (clock_configNetwork p).memory) fun network => ?_
    have hpending : Prog.Gives (evidenceContract env x) (OfRows x (Tainted env))
        (fun txs => ∀ tx ∈ txs, ShowsTaint x tx) (getPendingByScheduledTime network) := by
      refine Prog.gives_bind (keeps_act rfl rfl).gives fun now _ => ?_
      refine Prog.gives_bind (gives_tainted_select _ _) fun txs htxs => ?_
      exact Prog.gives_ret fun tx htx => htxs tx (List.mem_of_mem_filter htx)
    refine Prog.Gives.keeps_bind hpending fun pending htxs => ?_
    refine Prog.keeps_bind (keeps_tainted_markPendingLoop p pending htxs) fun _ => ?_
    refine Prog.keeps_bind (keeps_catchErr (keeps_evidence_requeueRetriableFailures p))
      fun _ => ?_
    exact keeps_tainted_broadcastDueTransactions p

/-- `broadcast_now` refuses the tainted row. -/
theorem keeps_tainted_broadcastNow (p : Proc) (id : String) :
    (broadcastNow env p id).Keeps (evidenceContract env x) (OfRows x (Tainted env)) := by
  refine Prog.keeps_bind (keeps_act rfl rfl) fun halted => ?_
  refine Prog.keeps_bind (keeps_ensure _ _) fun _ => ?_
  refine Prog.Gives.keeps_bind (gives_tainted_getBroadcastTxById id) fun tx htx => ?_
  split
  · exact Prog.keeps_bind (keeps_act rfl rfl) fun _ => Prog.keeps_fail _
  · rename_i huntampered
    have hid : tx.id ≠ x := ne_of_showsTaint htx huntampered
    have hrefuse : IsClock (refuseEmitted tx.status) := by
      unfold refuseEmitted
      split
      · exact Prog.uses_fail _
      · exact Prog.uses_fail _
      · exact Prog.uses_ret _
    refine Prog.keeps_bind (keeps_memory hrefuse.memory) fun _ => ?_
    refine Prog.keeps_bind (keeps_memory (clock_locktimeOrRefuse p _).memory) fun ok => ?_
    split
    · refine Prog.keeps_bind (keeps_actsOn hid (actsOn_broadcastTransaction p tx)) fun txid => ?_
      exact Prog.keeps_bind (keeps_actsOn hid (actsOn_markBroadcast env p txid _))
        fun _ => Prog.keeps_ret _
    · exact keeps_memory (clock_refuseNonFinal p _).memory

/-- The tainted row is not archived. -/
theorem keeps_tainted_archiveTerminalOlderThan (key : Key) (network cutoff : String) :
    (archiveTerminalOlderThan env key network cutoff).Keeps (evidenceContract env x)
      (OfRows x (Tainted env)) := by
  refine Prog.Gives.keeps_bind (gives_tainted_select _ _) fun txs htxs => ?_
  refine Prog.keeps_forEach txs fun tx htx => ?_
  by_cases htampered : tx.tampered = some true
  · unfold archiveTx
    rw [if_pos htampered]
    exact Prog.keeps_ret _
  · exact keeps_actsOn (ne_of_showsTaint (htxs tx htx) htampered) (actsOn_archiveTx env key tx)

/-- The retention leaves the tainted row in the pool. -/
theorem keeps_tainted_retentionPass (p : Proc) (key : Key) :
    (retentionPass env p key).Keeps (evidenceContract env x) (OfRows x (Tainted env)) :=
  Prog.keeps_bind (keeps_orRaise (keeps_act rfl rfl)) fun _ =>
    Prog.keeps_bind (keeps_act rfl rfl) fun _ => keeps_tainted_archiveTerminalOlderThan key _ _

/-- So does a manual flush. -/
theorem keeps_tainted_archiveFlush (p : Proc) (key : Key) :
    (archiveFlush env p key).Keeps (evidenceContract env x) (OfRows x (Tainted env)) :=
  Prog.keeps_bind (keeps_orRaise (keeps_act rfl rfl)) fun _ =>
    Prog.keeps_bind (keeps_act rfl rfl) fun _ => keeps_tainted_archiveTerminalOlderThan key _ _

/-! ### The functions that write without that look -/

theorem keeps_evidence_checkPriceTriggers (p : Proc) (prices : String → Option F64) :
    (checkPriceTriggers env p prices).Keeps (evidenceContract env x) (OfRows x I) := by
  refine Prog.keeps_bind (keeps_memory (clock_configNetwork p).memory) fun network => ?_
  refine Prog.keeps_bind (keeps_memory (quiet_select _ _).memory) fun txs => ?_
  refine Prog.keeps_forEach txs fun tx _ => ?_
  exact keeps_logErrorIf _ (keeps_clockedMutator _ fun _ h _ => h)

theorem keeps_evidence_checkConfirmations (p : Proc) :
    (checkConfirmations env p).Keeps (evidenceContract env x) (OfRows x I) := by
  have hconfirm : ∀ id height,
      (markConfirmed env id height).Keeps (evidenceContract env x) (OfRows x I) := by
    intro id height
    refine Prog.keeps_bind (keeps_memory (clock_nowText env).memory) fun now => ?_
    exact Prog.keeps_bind (keeps_ensure _ _) fun _ => keeps_mutator _ fun h _ => h
  have hcheck : ∀ tx : BroadcastTx,
      (checkConfirmation env tx).Keeps (evidenceContract env x) (OfRows x I) := by
    intro tx
    unfold checkConfirmation
    split
    · exact Prog.keeps_ret _
    · refine Prog.keeps_bind (keeps_act rfl rfl) fun found => ?_
      split
      · refine Prog.keeps_bind (keeps_act rfl rfl) fun height => ?_
        split
        · exact Prog.keeps_bind (keeps_catchErr (hconfirm _ _)) fun _ => Prog.keeps_ret _
        · exact Prog.keeps_ret _
      · exact Prog.keeps_ret _
  refine Prog.keeps_bind (keeps_memory (clock_configNetwork p).memory) fun network => ?_
  refine Prog.keeps_bind (keeps_memory (quiet_select _ _).memory) fun txs => ?_
  refine Prog.keeps_bind (keeps_act rfl rfl) fun rpc => ?_
  split
  · refine Prog.keeps_bind (keeps_act rfl rfl) fun up => ?_
    split
    · exact Prog.keeps_forEach txs fun tx _ => hcheck tx
    · exact Prog.keeps_ret _
  · exact Prog.keeps_ret _

theorem keeps_evidence_scheduleAt (p : Proc) (id : String) (time : DateTime) (fee : F64) :
    (scheduleAt env p id time fee).Keeps (evidenceContract env x) (OfRows x I) := by
  refine Prog.keeps_bind (keeps_memory (quiet_getBroadcastTxById id).memory) fun tx => ?_
  refine Prog.keeps_bind (keeps_act rfl rfl) fun now => ?_
  refine Prog.keeps_bind (keeps_ensure _ _) fun _ => ?_
  refine Prog.keeps_bind (keeps_ensure _ _) fun _ => ?_
  refine Prog.keeps_bind (keeps_clockedMutator _ fun _ h _ => h) fun _ => ?_
  refine Prog.keeps_bind (keeps_memory (quiet_getBroadcastTxById id).memory) fun updated => ?_
  exact Prog.keeps_bind (keeps_memory (clock_enrichTxLocktime p updated).memory)
    fun _ => Prog.keeps_ret _

theorem keeps_evidence_scheduleByPrice (p : Proc) (id : String) (target : F64)
    (currency condition : String) (fee : F64) :
    (scheduleByPrice env p id target currency condition fee).Keeps (evidenceContract env x)
      (OfRows x I) := by
  refine Prog.keeps_bind (keeps_ensure _ _) fun _ => ?_
  refine Prog.keeps_bind (keeps_ensure _ _) fun _ => ?_
  refine Prog.keeps_bind (keeps_ensure _ _) fun _ => ?_
  refine Prog.keeps_bind (keeps_memory (quiet_getBroadcastTxById id).memory) fun tx => ?_
  refine Prog.keeps_bind (keeps_ensure _ _) fun _ => ?_
  refine Prog.keeps_bind (keeps_ensure _ _) fun _ => ?_
  refine Prog.keeps_bind (keeps_ensure _ _) fun _ => ?_
  refine Prog.keeps_bind (keeps_clockedMutator _ fun _ h _ => h) fun _ => ?_
  refine Prog.keeps_bind (keeps_memory (quiet_getBroadcastTxById id).memory) fun updated => ?_
  exact Prog.keeps_bind (keeps_memory (clock_enrichTxLocktime p updated).memory)
    fun _ => Prog.keeps_ret _

theorem keeps_evidence_scheduleTransaction (p : Proc) (id : String)
    (minDelay maxDelay : Option Nat) (minFee maxFee fixedFee : Option F64) :
    (scheduleTransaction env p id minDelay maxDelay minFee maxFee fixedFee).Keeps
      (evidenceContract env x) (OfRows x I) := by
  refine Prog.keeps_bind (keeps_orRaise (keeps_act rfl rfl)) fun config => ?_
  refine Prog.keeps_bind (keeps_memory (clock_genRange _ _).memory) fun delayHours => ?_
  refine Prog.keeps_bind (keeps_memory (clock_chooseFeeRate env _ _ _).memory) fun fee => ?_
  refine Prog.keeps_bind (keeps_act rfl rfl) fun now => ?_
  refine Prog.keeps_bind (keeps_memory (clock_durationHours _).memory) fun delay => ?_
  split
  · exact Prog.keeps_fail _
  · refine Prog.keeps_bind (keeps_memory (clock_nowText env).memory) fun updated => ?_
    refine Prog.keeps_bind (keeps_orFail _ ?_) fun _ =>
      keeps_memory (quiet_getBroadcastTxById id).memory
    by_cases hid : id = x
    · exact fun w _ => Prog.wp_perform_excluded fun hnot => hnot hid
    · exact keeps_actsOn hid (actsOn_update rfl)

theorem keeps_evidence_scheduleAllPending (p : Proc) (network : String) :
    (scheduleAllPending env p network).Keeps (evidenceContract env x) (OfRows x I) := by
  refine Prog.keeps_bind (keeps_memory (quiet_select _ _).memory) fun txs => ?_
  refine Prog.keeps_forEach txs fun tx _ => ?_
  exact Prog.keeps_bind (keeps_evidence_scheduleTransaction p tx.id none none none none none)
    fun _ => Prog.keeps_ret _

theorem keeps_evidence_retryFailedTransaction (p : Proc) (id : String) :
    (retryFailedTransaction env p id).Keeps (evidenceContract env x) (OfRows x I) := by
  refine Prog.keeps_bind (keeps_memory (quiet_getBroadcastTxById id).memory) fun tx => ?_
  refine Prog.keeps_bind (keeps_ensure _ _) fun _ => ?_
  refine Prog.keeps_bind (keeps_evidence_resetFailedToScheduled id) fun _ => ?_
  refine Prog.keeps_bind (keeps_memory (quiet_getBroadcastTxById id).memory) fun updated => ?_
  exact Prog.keeps_bind (keeps_memory (clock_enrichTxLocktime p updated).memory)
    fun _ => Prog.keeps_ret _

theorem keeps_evidence_removeTransaction (p : Proc) (id : String) :
    (removeTransaction env p id).Keeps (evidenceContract env x) (OfRows x I) := by
  refine Prog.keeps_bind (keeps_memory (quiet_getBroadcastTxById id).memory) fun tx => ?_
  have hdelete : (removeBroadcastTx id).Keeps (evidenceContract env x) (OfRows x I) := by
    refine keeps_orFail _ ?_
    by_cases hid : id = x
    · exact fun w _ => Prog.wp_perform_excluded fun hnot => hnot hid
    · refine keeps_actsOn hid (uses_act ⟨fun y hy => ?_, fun tx htx => by cases htx⟩)
      simpa [Act.touches] using hy.symm
  refine Prog.keeps_bind hdelete fun removed => ?_
  refine Prog.keeps_bind (keeps_ensure _ _) fun _ => ?_
  split
  · exact Prog.keeps_bind (keeps_act rfl rfl) fun _ => Prog.keeps_ret _
  · exact Prog.keeps_ret _

/-- The block height monitor writes rows with mode `by_block` only. The mode of the tainted
row does not change while it runs, so either every statement on the row is excluded or there
is none. -/
theorem keeps_tainted_blockHeightMonitorPass (p : Proc) :
    (blockHeightMonitorPass env p).Keeps (evidenceContract env x) (OfRows x (Tainted env)) := by
  intro w hw
  let ByBlock (rows : List Row) : Prop := ∃ r ∈ rows, r.broadcastMode = some "by_block"
  have hloop : (blockHeightMonitorPass env p).Keeps (evidenceContract env x)
      (OfRows x fun rows => Tainted env rows ∧ (ByBlock rows ↔ ByBlock (rowsOf x w.pool))) := by
    refine Prog.keeps_bind (keeps_memory (clock_configNetwork p).memory) fun network => ?_
    refine Prog.keeps_bind (keeps_act rfl rfl) fun health => ?_
    split
    · refine Prog.keeps_bind (keeps_memory (clock_checkBlockHeight p).memory) fun height => ?_
      cases height with
      | none => exact Prog.keeps_ret _
      | some height =>
        have hread : Prog.Gives (evidenceContract env x)
            (OfRows x fun rows => Tainted env rows ∧ (ByBlock rows ↔ ByBlock (rowsOf x w.pool)))
            (fun txs => ∀ tx ∈ txs, tx.id = x → tx.broadcastMode = some "by_block" →
              ByBlock (rowsOf x w.pool)) (getPendingByBlockHeight network) := by
          refine gives_select _ (fun _ hw => ⟨hands_over_none rfl, hw⟩) ?_
          intro w' hw' txs hanswers tx htx hid hmode
          obtain ⟨now, r, hr, -, hreads⟩ := hanswers tx htx
          exact hw'.2.1 ⟨r, mem_rowsOf.2 ⟨hr, hreads.id.symm.trans hid⟩,
            hreads.broadcastMode.symm.trans hmode⟩
        refine Prog.Gives.keeps_bind hread fun txs htxs => ?_
        refine Prog.keeps_forEach txs fun tx htx => ?_
        by_cases hid : tx.id = x
        · unfold markBlockReached logErrorIf
          split
          · rename_i hreached
            have hmode : tx.broadcastMode = some "by_block" := by
              unfold isBlockReached at hreached
              exact of_decide_eq_true ((Bool.and_eq_true _ _).mp hreached).1
            have hblock := htxs tx htx hid hmode
            refine Prog.keeps_bind (keeps_catchErr ?_) fun _ => Prog.keeps_ret _
            refine Prog.keeps_bind (keeps_memory (clock_nowText env).memory) fun now => ?_
            intro w' hw'
            exact (Prog.wp_bind _ _ _ _).2 ((wp_orFail _ _ _ _).2
              (Prog.wp_perform_excluded fun hnot => hnot ⟨hid, hw'.2.2 hblock⟩))
          · exact Prog.keeps_ret _
        · exact keeps_logErrorIf _ (keeps_actsOn hid (actsOn_clocked env _ fun _ => rfl))
    · exact Prog.keeps_ret _
  exact Prog.wp_mono (fun _ _ h => h.1) _ w (hloop w ⟨hw, Iff.rfl⟩)

/-! ### New rows and restarts -/

/-- An insert with the id of a row that is there is refused, so a new row has another id. -/
theorem gives_importTransaction (newTx : NewBroadcastTx) :
    Prog.Gives (evidenceContract env x) (OfRows x (Tainted env)) (fun tx => tx.id ≠ x)
      (importTransaction env newTx) := by
  refine Prog.gives_bind (keeps_act rfl rfl).gives fun id _ => ?_
  refine Prog.gives_bind (keeps_memory (clock_nowText env).memory).gives fun now _ => ?_
  refine Prog.gives_bind (keeps_memory (clock_encode env _ _).memory).gives fun txHex _ => ?_
  refine Prog.gives_bind (keeps_memory (clock_encode? env _ _).memory).gives fun dest _ => ?_
  refine Prog.gives_bind (keeps_memory (clock_encode? env _ _).memory).gives fun source _ => ?_
  refine Prog.gives_bind (keeps_ensure _ _).gives fun _ _ => ?_
  have hinsert : Prog.Gives (evidenceContract env x) (OfRows x (Tainted env))
      (fun _ => id ≠ x) (orFail "Failed to insert broadcast tx"
        (perform (.insert (newRow env newTx id now txHex dest source)))) := by
    intro w hw
    refine (wp_orFail _ _ _ _).2 (Prog.wp_perform_handler _ _ _ w fun _ =>
      ⟨hands_over_none rfl, ?_⟩)
    by_cases hid : id = x
    · rcases exec_insert env w (newRow env newTx id now txHex dest source) with
        ⟨e, hexec⟩ | ⟨pool, hins, hexec⟩
      · rw [hexec]
        exact ⟨hw, fun _ h => by cases h⟩
      · obtain ⟨r, hr⟩ := List.exists_mem_of_ne_nil _ hw.1
        obtain ⟨hmem, hrid⟩ := mem_rowsOf.1 hr
        rw [insertRow_of_mem hmem (hrid.trans hid.symm)] at hins
        cases hins
    · have hrows : rowsOf x
          (World.exec env (.insert (newRow env newTx id now txHex dest source)) w).2.pool =
            rowsOf x w.pool :=
        exec_rowsOf (by simpa [Act.touches, newRow] using hid) w
      have hkeep : OfRows x (Tainted env)
          (World.exec env (.insert (newRow env newTx id now txHex dest source)) w).2 := by
        unfold OfRows
        rw [hrows]
        exact hw
      cases (World.exec env (.insert (newRow env newTx id now txHex dest source)) w).1 with
      | ok u => exact ⟨hkeep, fun _ _ => hid⟩
      | error e => exact ⟨hkeep, fun _ h => by cases h⟩
  refine Prog.gives_bind hinsert fun _ hid => ?_
  refine gives_getBroadcastTxById (fun _ hw => ⟨hands_over_none rfl, hw⟩) ?_
  intro w hw tx now r hr hrid hreads
  rw [hreads.id, hrid]
  exact hid

theorem keeps_tainted_ingestTask (p : Proc) (txHex source : String) :
    (ingestTask env p txHex source).Keeps (evidenceContract env x) (OfRows x (Tainted env)) := by
  have hhandle : (handleBroadcast env p txHex source).Keeps (evidenceContract env x)
      (OfRows x (Tainted env)) := by
    unfold handleBroadcast
    dsimp only
    split
    · exact Prog.keeps_fail _
    · refine Prog.keeps_bind (keeps_memory (clock_configNetwork p).memory) fun network => ?_
      refine Prog.keeps_bind (keeps_act rfl rfl) fun health => ?_
      refine Prog.keeps_bind (keeps_orRaise (keeps_act rfl rfl)) fun config => ?_
      refine Prog.keeps_bind (keeps_memory (clock_resolveIngestPlan env _ _ _ _).memory)
        fun plan => ?_
      refine Prog.keeps_bind (keeps_memory (lookup_captureVirtualBlock p _ _).memory)
        fun target => ?_
      refine Prog.Gives.keeps_bind (gives_importTransaction _) fun imported hid => ?_
      refine Prog.keeps_bind (keeps_act rfl rfl) fun _ => ?_
      refine Prog.keeps_bind
        (keeps_logErrorIf _ (keeps_actsOn hid (actsOn_clocked env _ fun _ => rfl))) fun _ => ?_
      exact Prog.keeps_ret _
  refine Prog.keeps_bind (keeps_act rfl rfl) fun start => ?_
  refine Prog.keeps_bind (Prog.keeps_attempt hhandle) fun outcome => ?_
  refine Prog.keeps_bind (keeps_act rfl rfl) fun finished => ?_
  cases outcome with
  | ok txid =>
    show Prog.Keeps _ _ (if _ then _ else _)
    split
    · exact keeps_memory (lookup_enrichPendingInputScripthashes env p txid _).memory
    · exact Prog.keeps_ret _
  | error e => exact Prog.keeps_ret _

theorem tainted_of_backfill {w : World} (hT : Tainted env (rowsOf x w.pool)) :
    Tainted env (rowsOf x (World.exec env .backfill w).2.pool) := by
  have hid : ∀ r, (backfillRow env r).id = r.id := by
    intro r
    unfold backfillRow
    split
    · split
      · split <;> rfl
      · rfl
    · rfl
  -- No MAC covers the column of the value, so the verdict on a row stays as it was.
  have hmac : ∀ r, (backfillRow env r).MacMatches env ↔ r.MacMatches env := by
    intro r
    unfold backfillRow
    split
    · split
      · split
        · exact macMatches_congr (fun _ => rfl) rfl rfl
        · exact Iff.rfl
      · exact Iff.rfl
    · exact Iff.rfl
  constructor
  · obtain ⟨r₀, hr₀⟩ := List.exists_mem_of_ne_nil _ hT.1
    obtain ⟨hmem, hrid⟩ := mem_rowsOf.1 hr₀
    obtain ⟨r, hr, hcase⟩ := exec_backfill_mem env w r₀ hmem
    refine List.ne_nil_of_mem (mem_rowsOf.2 ⟨hr, ?_⟩)
    rcases hcase with rfl | rfl
    · exact hrid
    · exact (hid r₀).trans hrid
  · intro r hr
    obtain ⟨hmem, hrid⟩ := mem_rowsOf.1 hr
    obtain ⟨r₀, hr₀, hcase⟩ := exec_backfill env w r hmem
    rcases hcase with rfl | rfl
    · exact hT.2 r (mem_rowsOf.2 ⟨hr₀, hrid⟩)
    · rw [hmac]
      exact hT.2 r₀ (mem_rowsOf.2 ⟨hr₀, (hid r₀).symm.trans hrid⟩)

theorem keeps_tainted_startUp (p : Proc) (rpc indexer : Bool) (config : Config) :
    (startUp env p rpc indexer config).Keeps (evidenceContract env x)
      (OfRows x (Tainted env)) := by
  -- The contract excludes that the migration rewrites a row `x`, so these rows come out of it as
  -- they were.
  have hmigrate : runMigrations.Keeps (evidenceContract env x) (OfRows x (Tainted env)) := by
    refine keeps_orFail _ fun w hw => Prog.wp_perform_handler _ _ _ w fun hnot =>
      ⟨hands_over_none rfl, ?_⟩
    rcases exec_migrate env w with ⟨e, hexec⟩ | hexec
    · rw [hexec]
      exact hw
    · rw [hexec]
      have hrows : rowsOf x (w.pool.map migration007) = rowsOf x w.pool := by
        refine rowsOf_map (fun r => ?_) fun r hr hrid => ?_
        · unfold migration007
          split <;> rfl
        · unfold migration007
          rw [if_neg fun h => hnot ⟨r, mem_rowsOf.2 ⟨hr, hrid⟩, h⟩]
      unfold OfRows
      rw [World.ticked_pool]
      split
      · exact hw
      · rw [hrows]
        exact hw
  have hbackfill : backfillOutputValues.Keeps (evidenceContract env x)
      (OfRows x (Tainted env)) :=
    keeps_orRaise fun w hw => Prog.wp_perform_handler _ _ _ w fun _ =>
      ⟨hands_over_none rfl, tainted_of_backfill hw⟩
  have hencrypt : (encryptLegacyRows env).Keeps (evidenceContract env x)
      (OfRows x (Tainted env)) := by
    refine Prog.keeps_bind (keeps_orRaise (keeps_act rfl rfl)) fun rows => ?_
    refine Prog.keeps_forEach rows fun row _ => ?_
    obtain ⟨id, txHex, dest, source⟩ := row
    refine Prog.keeps_bind (keeps_memory (clock_encodeMissing env _ _).memory) fun _ => ?_
    refine Prog.keeps_bind (keeps_memory (clock_encodeMissing? env _ _).memory) fun _ => ?_
    refine Prog.keeps_bind (keeps_memory (clock_encodeMissing? env _ _).memory) fun _ => ?_
    exact keeps_mutator _ fun h _ => h
  have hopen : (openDatabase env).Keeps (evidenceContract env x) (OfRows x (Tainted env)) := by
    refine Prog.keeps_bind hmigrate fun _ => ?_
    refine Prog.keeps_bind (keeps_catchErr hbackfill) fun _ => ?_
    exact Prog.keeps_bind (keeps_catchErr hencrypt) fun _ => Prog.keeps_ret _
  refine Prog.keeps_bind (keeps_act rfl rfl) fun _ => ?_
  refine Prog.keeps_bind hopen fun _ => ?_
  refine Prog.keeps_bind (keeps_memory (clock_refreshChainHealth p).memory) fun _ => ?_
  refine Prog.keeps_bind (keeps_catchErr (keeps_memory (memory_loadPendingFromDb env p)))
    fun _ => ?_
  refine Prog.keeps_bind (keeps_catchErr (keeps_evidence_requeueRetriableFailures p))
    fun _ => ?_
  exact Prog.keeps_ret _

/-- Every piece of work that looks at `tampered` before it hands a row over keeps the
evidence, while nothing rewrites the row. -/
theorem keeps_tainted (a : Activity) (ha : a.handsOverUnchecked = false) :
    (a.prog env).Keeps (evidenceContract env x) (OfRows x (Tainted env)) := by
  -- A piece of work that writes through a mutator keeps the evidence by that mutator's lemma, one
  -- that only reads or sends by the lemma on its reads.
  cases a with
  | broadcastLoop =>
    refine Prog.keeps_bind (keeps_act rfl rfl) fun halted => ?_
    split
    · exact Prog.keeps_ret _
    · exact keeps_tainted_runSchedulerTick .daemon
  | blockHeightMonitor => exact keeps_tainted_blockHeightMonitorPass .daemon
  | priceMonitor prices => exact keeps_evidence_checkPriceTriggers .daemon prices
  | rebroadcastLoop => cases ha
  | confirmationChecker =>
    refine Prog.keeps_bind (keeps_act rfl rfl) fun health => ?_
    split
    · exact keeps_evidence_checkConfirmations .daemon
    · exact Prog.keeps_ret _
  | retention key => exact keeps_tainted_retentionPass .daemon key
  | chainHealthPoll => exact keeps_memory (clock_refreshChainHealth .daemon).memory
  | importTx newTx =>
    exact Prog.keeps_bind (gives_importTransaction newTx).keeps fun _ => Prog.keeps_ret _
  | scheduleAt id time fee =>
    exact Prog.keeps_bind (keeps_evidence_scheduleAt .daemon id time fee)
      fun _ => Prog.keeps_ret _
  | scheduleByPrice id target currency condition fee =>
    exact Prog.keeps_bind
      (keeps_evidence_scheduleByPrice .daemon id target currency condition fee)
      fun _ => Prog.keeps_ret _
  | scheduleTransaction id minDelay maxDelay minFee maxFee fixedFee =>
    exact Prog.keeps_bind
      (keeps_evidence_scheduleTransaction .daemon id minDelay maxDelay minFee maxFee fixedFee)
      fun _ => Prog.keeps_ret _
  | retry id =>
    exact Prog.keeps_bind (keeps_evidence_retryFailedTransaction .daemon id)
      fun _ => Prog.keeps_ret _
  | broadcastNow id =>
    exact Prog.keeps_bind (keeps_tainted_broadcastNow .daemon id) fun _ => Prog.keeps_ret _
  | remove id => exact keeps_evidence_removeTransaction .daemon id
  | acknowledge => exact keeps_act rfl rfl
  | archiveFlush key => exact keeps_tainted_archiveFlush .daemon key
  | saveConfig request =>
    exact Prog.keeps_bind (keeps_act rfl rfl) fun _ => keeps_orRaise (keeps_act rfl rfl)
  | preAck txHex => exact keeps_memory (memory_preAckStore env .daemon txHex)
  | ingest txHex source => exact keeps_tainted_ingestTask .daemon txHex source
  | restart rpc indexer config => exact keeps_tainted_startUp .daemon rpc indexer config
  | command rpc indexer config c =>
    refine Prog.keeps_bind (keeps_tainted_startUp .cli rpc indexer config) fun _ => ?_
    cases c with
    | importTxs txs =>
      refine Prog.keeps_forEach txs fun newTx _ => ?_
      refine Prog.Gives.keeps_bind (gives_importTransaction newTx) fun tx _ => ?_
      split
      · exact Prog.keeps_bind
          (keeps_evidence_scheduleTransaction .cli tx.id none none none none none)
          fun _ => Prog.keeps_ret _
      · exact Prog.keeps_ret _
    | broadcast id => cases ha
    | broadcastAll => cases ha
    | schedule id minDelay maxDelay minFee maxFee =>
      exact Prog.keeps_bind
        (keeps_evidence_scheduleTransaction .cli id minDelay maxDelay minFee maxFee none)
        fun _ => Prog.keeps_ret _
    | scheduleAll => exact keeps_evidence_scheduleAllPending .cli _
    | remove id => exact keeps_evidence_removeTransaction .cli id
    | display => exact Prog.keeps_ret _

end

/-- Take rows with the id `x` whose MAC does not match. In every sequence of work that looks
at `tampered` before it hands a row over, and in which no statement rewrites these rows, they
stay in the table and never read back with `tampered = Some(false)`, and no step hands one of
them to a backend. -/
theorem tamper_evidence_kept (env : Env) (x : String) (work : List Activity) (w : World)
    (hchecked : ∀ a ∈ work, a.handsOverUnchecked = false)
    (htainted : Tainted env (rowsOf x w.pool))
    (hnot : ∀ e ∈ runsTrace (World.exec env) w (work.map (Activity.prog env)),
      ¬ Rewrites x e.1 e.2) :
    (∀ w' ∈ runs (World.exec env) w (work.map (Activity.prog env)),
      (∃ r ∈ w'.pool, r.id = x) ∧ ∀ r ∈ w'.pool, r.id = x → ¬ r.Verifies env) ∧
    ∀ e ∈ runsTrace (World.exec env) w (work.map (Activity.prog env)),
      ∀ tx, e.2.handsOver = some tx → tx.id ≠ x := by
  have hkeeps : ∀ p ∈ work.map (Activity.prog env),
      p.Keeps (evidenceContract env x) (OfRows x (Tainted env)) := by
    intro p hp
    obtain ⟨a, ha, rfl⟩ := List.mem_map.1 hp
    exact keeps_tainted a (hchecked a ha)
  obtain ⟨hstates, hsends⟩ := runs_invariant _ hkeeps w htainted hnot
  refine ⟨fun w' hw' => ⟨?_, fun r hr hid hverifies => ?_⟩, hsends⟩
  · obtain ⟨r, hr⟩ := List.exists_mem_of_ne_nil _ (hstates w' hw').1
    exact ⟨r, mem_rowsOf.1 hr⟩
  · exact (hstates w' hw').2 r (mem_rowsOf.2 ⟨hr, hid⟩) (verifies_iff.1 hverifies).2

/-- A pool whose only row has lost its MAC. -/
def unsealedWorld : World := { sampleWorld with pool := [{ sampleRow with rowMac := none }] }

theorem tainted_unsealedWorld : Tainted sampleEnv (rowsOf "id0" unsealedWorld.pool) := by
  have hrows : rowsOf "id0" unsealedWorld.pool = [{ sampleRow with rowMac := none }] := by
    decide
  rw [hrows]
  refine ⟨List.cons_ne_nil _ _, fun r hr => ?_⟩
  rw [List.mem_singleton.1 hr]
  rintro ⟨n, -, hmac⟩
  cases hmac

theorem tamper_evidence_kept_unsealedWorld :
    (∀ w' ∈ runs (World.exec sampleEnv) unsealedWorld
        ([.chainHealthPoll, .broadcastLoop, .broadcastNow "id0"].map (Activity.prog sampleEnv)),
      (∃ r ∈ w'.pool, r.id = "id0") ∧ ∀ r ∈ w'.pool, r.id = "id0" → ¬ r.Verifies sampleEnv) ∧
    ∀ e ∈ runsTrace (World.exec sampleEnv) unsealedWorld
        ([.chainHealthPoll, .broadcastLoop, .broadcastNow "id0"].map (Activity.prog sampleEnv)),
      ∀ tx, e.2.handsOver = some tx → tx.id ≠ "id0" := by
  refine tamper_evidence_kept sampleEnv "id0" _ unsealedWorld ?_ tainted_unsealedWorld ?_
  · simp [Activity.handsOverUnchecked]
  · decide

/-- A start of the daemon seals a row without a MAC, as a row of an older version. -/
theorem restart_seals_unsealed_row :
    ¬ ∀ (env : Env) (x : String) (work : List Activity) (w : World),
      (∀ a ∈ work, a.handsOverUnchecked = false) → Tainted env (rowsOf x w.pool) →
      ∀ w' ∈ runs (World.exec env) w (work.map (Activity.prog env)),
        ∀ r ∈ w'.pool, r.id = x → ¬ r.Verifies env := by
  intro h
  have hsealed : ∃ w' ∈ runs (World.exec sampleEnv) unsealedWorld
      ([.restart false true sampleConfig].map (Activity.prog sampleEnv)),
      ∃ r ∈ w'.pool, r.id = "id0" ∧ r.nlocktime = some 0 ∧ r.blockHeight = none ∧
        r.targetFeeRate = .null ∧ r.utxoCount = some 1 ∧ r.totalValueBtc ≠ none ∧
        r.retryCount = some 0 ∧ r.rowMac = some (r.expectedMac sampleEnv 0) := by
    decide
  obtain ⟨w', hw', r, hr, hid, hn, hheight, hfee, hcount, htotal, hretry, hmac⟩ := hsealed
  refine h sampleEnv "id0" _ unsealedWorld ?_ tainted_unsealedWorld w' hw' r hr hid ?_
  · simp [Activity.handsOverUnchecked]
  · refine verifies_iff.2 ⟨⟨⟨0, hn⟩, ?_, ?_, ⟨1, hcount⟩, htotal, ⟨0, hretry⟩⟩,
      (macMatches_iff hn).2 hmac⟩
    · intro n hblock
      rw [hheight] at hblock
      cases hblock
    · intro s htext
      rw [hfee] at htext
      cases htext

end BroadcastPool
