import BroadcastPool.Proofs.Db.Frame
import BroadcastPool.Proofs.Db.Seal
import BroadcastPool.Proofs.Work
import BroadcastPool.Sample

/-!
# `BroadcastPool.Proofs.HalfDone`: readers between an update and its reseal

A mutator takes the connection mutex twice, so another task or a crash can come between its own
statement and `reseal_row_mac`. `halfDoneAfter` keeps the ids of the rows that such a statement
has changed and that no reseal has reached yet. A mutator that runs to its end leaves nothing half
done (`settles_of_reseals`), and neither does `encrypt_legacy_rows`.

`ReadsSettled` says of a run that no query selects a half-done row. `no_half_done_read` shows that
in these runs every reader sees `tampered = Some(false)`, and that no process enters safe mode.
-/

set_option autoImplicit false

namespace BroadcastPool

open Effects

/-- The stored MAC is the one of the columns, if `nlocktime` has a value to compute it from. -/
def Row.Sealed (env : Env) (r : Row) : Prop :=
  ∀ n, r.nlocktime = some n → r.rowMac = some (r.expectedMac env n)

/-- The columns that decide whether a row is sealed. -/
def Row.underSeal (env : Env) (r : Row) : String × Option Int × String × Option String :=
  (r.id, r.nlocktime, r.macInput env (r.nlocktime.getD 0), r.rowMac)

/-- The ids of the rows that a statement leaves with other covered columns than before. -/
def rewritten (env : Env) (rows rows' : List Row) : List String :=
  (rows'.filter fun r => r.underSeal env ∉ rows.map (Row.underSeal env)).map (·.id)

/-- The rows that are half done after a step: an `UPDATE` and `MIGRATION_007` add the rows they
rewrite, and a reseal takes its row out. -/
def halfDoneAfter (env : Env) (ids : List String) (e : Performed Act Act.Res World) :
    List String :=
  match e.act with
  | .update u => ids ++ rewritten env e.state.pool (World.exec env (.update u) e.state).2.pool
  | .migrate => ids ++ rewritten env e.state.pool (World.exec env .migrate e.state).2.pool
  | .reseal id =>
      if (World.exec env (.reseal id) e.state).1 = .ok () then ids.filter (· ≠ id) else ids
  | _ => ids

/-- The step is no query that selects a half-done row. -/
def SettledRead (ids : List String) (e : Performed Act Act.Res World) : Prop :=
  match e.act with
  | .select q => ∀ r ∈ selectRows q e.state.pool, r.id ∉ ids
  | _ => True

instance (ids : List String) (e : Performed Act Act.Res World) :
    Decidable (SettledRead ids e) := by
  apply @Act.casesOn (fun a => Decidable (SettledRead ids ⟨e.state, e.seen, a⟩)) e.act
  all_goals
    intros
    dsimp only [SettledRead]
    infer_instance

/-- No query of a run selects a half-done row. -/
def ReadsSettled (env : Env) : List String → List (Performed Act Act.Res World) → Prop
  | _, [] => True
  | ids, e :: es => SettledRead ids e ∧ ReadsSettled env (halfDoneAfter env ids e) es

instance decidableReadsSettled (env : Env) :
    (ids : List String) → (es : List (Performed Act Act.Res World)) →
      Decidable (ReadsSettled env ids es)
  | _, [] => .isTrue trivial
  | ids, e :: es =>
    have := decidableReadsSettled env (halfDoneAfter env ids e) es
    inferInstanceAs (Decidable (_ ∧ _))

theorem ReadsSettled.at {env : Env} {ids : List String}
    {before after : List (Performed Act Act.Res World)} {e : Performed Act Act.Res World}
    (h : ReadsSettled env ids (before ++ e :: after)) :
    SettledRead (before.foldl (halfDoneAfter env) ids) e := by
  induction before generalizing ids with
  | nil => exact h.1
  | cons b before ih => exact ih h.2

/-- Every row that is not half done is sealed. -/
def SealedBut (env : Env) (ids : List String) (rows : List Row) : Prop :=
  ∀ r ∈ rows, r.id ∉ ids → r.Sealed env

section
variable {env : Env} {ids : List String}

theorem Row.Sealed.of_underSeal {r r' : Row} (h : r.underSeal env = r'.underSeal env)
    (hr : r.Sealed env) : r'.Sealed env := by
  unfold Row.underSeal at h
  simp only [Prod.mk.injEq] at h
  obtain ⟨-, hn, hinput, hmac⟩ := h
  intro n hn'
  have hrow := hr n (hn.trans hn')
  rw [hn, hn'] at hinput
  unfold Row.expectedMac at hrow ⊢
  rw [← hmac, hrow]
  exact congrArg (fun s => some (env.mac env.key s)) hinput

theorem Row.MacMatches.sealed {r : Row} (h : r.MacMatches env) : r.Sealed env := by
  obtain ⟨n, hn, hmac⟩ := h
  intro m hm
  rw [hn] at hm
  cases hm
  exact hmac

/-- A row that keeps what is under its seal keeps being sealed. -/
theorem SealedBut.of_underSeal {rows rows' : List Row} (h : SealedBut env ids rows)
    (hrows : ∀ r' ∈ rows', r'.id ∉ ids → ∃ r ∈ rows, r.underSeal env = r'.underSeal env) :
    SealedBut env ids rows' := by
  intro r' hr' hid
  obtain ⟨r, hr, heq⟩ := hrows r' hr' hid
  have hsame : r.id = r'.id := congrArg Prod.fst heq
  exact (h r hr (hsame ▸ hid)).of_underSeal heq

/-- The rows that a statement rewrites are half done, and the others are as they were. -/
theorem SealedBut.rewritten {rows rows' : List Row} (h : SealedBut env ids rows) :
    SealedBut env (ids ++ rewritten env rows rows') rows' := by
  have hall : SealedBut env (ids ++ BroadcastPool.rewritten env rows rows') rows :=
    fun r hr hid => h r hr fun hmem => hid (List.mem_append_left _ hmem)
  refine hall.of_underSeal fun r' hr' hid => ?_
  by_contra hnone
  refine hid (List.mem_append_right _ (List.mem_map_of_mem (List.mem_filter.2 ⟨hr', ?_⟩)))
  refine decide_eq_true fun hmem => hnone ?_
  obtain ⟨r, hr, heq⟩ := List.mem_map.1 hmem
  exact ⟨r, hr, heq⟩

/-- A reseal finishes the rows with its id. -/
theorem SealedBut.reseal {id : String} {rows rows' : List Row} (h : SealedBut env ids rows)
    (hreseal : resealRow env id rows = .ok rows') :
    SealedBut env (ids.filter (· ≠ id)) rows' := by
  unfold resealRow at hreseal
  split at hreseal
  · cases hreseal
  · split at hreseal
    · cases hreseal
    · cases hreseal
      intro r hr hid
      obtain ⟨r₀, hr₀, rfl⟩ := List.mem_map.1 hr
      by_cases hrow : r₀.id = id
      · rw [if_pos hrow]
        unfold resealed
        split
        · rename_i hn
          intro n hn'
          rw [hn] at hn'
          cases hn'
        · rename_i n hn
          intro m hm
          have hnm : n = m := Option.some.inj (hn.symm.trans hm)
          subst hnm
          rfl
      · rw [if_neg hrow] at hid ⊢
        refine h r₀ hr₀ fun hmem => hid (List.mem_filter.2 ⟨hmem, ?_⟩)
        simpa using hrow

/-- One step keeps the rows sealed that are not half done, if it inserts no unsealed row. -/
theorem sealedBut_step {e : Performed Act Act.Res World} (h : SealedBut env ids e.state.pool)
    (hinsert : ∀ row, e.act = .insert row → row.Sealed env) :
    SealedBut env (halfDoneAfter env ids e) (World.exec env e.act e.state).2.pool := by
  obtain ⟨w, seen, a⟩ := e
  dsimp only at h hinsert ⊢
  by_cases hw : a.writesPool = false
  · rw [exec_pool hw]
    have hsame : halfDoneAfter env ids ⟨w, seen, a⟩ = ids := by
      cases a <;> first | rfl | cases hw
    rw [hsame]
    exact h
  · cases a <;> first | exact absurd rfl hw | skip
    -- A rewritten row joins the ids that are half done.
    case update u => exact h.rewritten
    case migrate => exact h.rewritten
    -- The inserted row is sealed by hypothesis, the others are as before.
    case insert row =>
      show SealedBut env ids _
      rcases exec_insert env w row with ⟨e, hexec⟩ | ⟨pool, hins, hexec⟩
      · rw [hexec]
        exact h
      · rw [hexec]
        unfold insertRow at hins
        split at hins
        · cases hins
        · cases hins
          intro r hr hid
          rcases List.mem_append.1 hr with hr | hr
          · exact h r hr hid
          · rw [List.mem_singleton.1 hr]
            exact hinsert row rfl
    -- Fewer rows, each as before.
    case delete id =>
      show SealedBut env ids _
      rcases exec_delete env w id with ⟨e, hexec⟩ | hexec
      · rw [hexec]
        exact h
      · rw [hexec]
        exact fun r hr => h r (List.mem_filter.1 hr).1
    -- An id leaves the half done ones only when its reseal went through, and then its row carries
    -- the seal of what it holds.
    case reseal id =>
      unfold halfDoneAfter
      dsimp only
      rcases exec_reseal env w id with ⟨-, e, hexec⟩ | hexec
      · rw [hexec, if_neg (by simp)]
        exact h
      · rw [hexec]
        cases hr : resealRow env id w.pool with
        | error e =>
          rw [if_neg (by simp)]
          exact h
        | ok pool =>
          rw [if_pos rfl]
          exact h.reseal hr
    -- The backfill writes the total value alone, a column that no seal covers.
    case backfill =>
      show SealedBut env ids _
      refine h.of_underSeal fun r hr _ => ?_
      obtain ⟨r₀, hr₀, rfl | rfl⟩ := exec_backfill env w r hr
      · exact ⟨r, hr₀, rfl⟩
      · refine ⟨r₀, hr₀, ?_⟩
        unfold backfillRow
        split
        · split
          · split <;> rfl
          · rfl
        · rfl
    case archiveRow id entry =>
      show SealedBut env ids _
      rcases exec_archiveRow env w id entry with hpool | hpool
      · rw [hpool]
        exact h
      · rw [hpool]
        exact fun r hr => h r (List.mem_filter.1 hr).1

/-! ### The window of a mutator -/

/-- The handler that also keeps the half-done ids. -/
def withHalfDone (env : Env) : Handler Act Act.Res (World × List String) := fun a (w, ids) =>
  ((World.exec env a w).1, (World.exec env a w).2, halfDoneAfter env ids ⟨w, [], a⟩)

/-- A run that reaches the end leaves no row half done that was not so before it. -/
def Settles {α : Type} (env : Env) (p : M α) : Prop :=
  ∀ w ids a, (p.run (withHalfDone env) (w, ids)).1 = .ok a →
    (p.run (withHalfDone env) (w, ids)).2.2 ⊆ ids

/-- The operation ends with `reseal_row_mac`. -/
def TableOp.reseals : TableOp → Bool
  | scheduleAt .. | scheduleByPrice .. | markDue _ | markDueFromPriceTrigger _
  | markDueWithSchedule .. | markBroadcast .. | markConfirmed .. | updateTxStatus ..
  | resetFailedToScheduled _ => true
  | _ => false

section Window
variable {α β : Type} {p : M α} {f : α → M β}

theorem settles_bind (hp : Settles env p) (hf : ∀ a, Settles env (f a)) :
    Settles env (p.bind f) := by
  intro w ids b hrun
  have hids := hp w ids
  rw [Prog.run_bind] at hrun ⊢
  rcases hpart : p.run (withHalfDone env) (w, ids) with ⟨e | a, w', ids'⟩
  · rw [hpart] at hrun
    cases hrun
  · rw [hpart] at hrun hids
    have hrest := hf a w' ids' b hrun
    exact List.Subset.trans hrest (hids a rfl)

theorem halfDone_of_isQuiet (h : IsQuiet p) (x : World × List String) :
    (p.run (withHalfDone env) x).2.2 = x.2 := by
  induction p generalizing x with
  | ret a => rfl
  | fail e => rfl
  | act a k ih =>
    obtain ⟨hquiet, hrest⟩ := (Prog.uses_act_iff a k).1 h
    have hstep : halfDoneAfter env x.2 ⟨x.1, [], a⟩ = x.2 := by
      cases a <;> first | rfl | cases hquiet
    rw [Prog.run_act, ih _ (hrest _)]
    exact hstep

theorem settles_of_isQuiet (h : IsQuiet p) : Settles env p := by
  intro w ids a _
  rw [halfDone_of_isQuiet h]
  exact List.Subset.refl ids

theorem settles_forEach (xs : List β) {body : β → M Unit} (h : ∀ x ∈ xs, Settles env (body x)) :
    Settles env (Prog.forEach xs body) := by
  induction xs with
  | nil => exact settles_of_isQuiet (Prog.uses_ret _)
  | cons x xs ih =>
    exact settles_bind (h x (List.mem_cons_self ..))
      fun _ => ih fun y hy => h y (List.mem_cons_of_mem _ hy)

/-- An `UPDATE` rewrites rows with its id only. -/
theorem rewritten_update {u : Update} {w : World} {id : String}
    (hid : id ∈ rewritten env w.pool (World.exec env (.update u) w).2.pool) : id = u.target := by
  obtain ⟨r', hr', rfl⟩ := List.mem_map.1 hid
  obtain ⟨hmem, hchanged⟩ := List.mem_filter.1 hr'
  by_contra hne
  refine of_decide_eq_true hchanged (List.mem_map_of_mem ?_)
  rcases exec_update env w u with ⟨e, hexec⟩ | hexec
  · rw [hexec] at hmem
    exact hmem
  · rw [hexec] at hmem
    obtain ⟨r, hr, rfl⟩ := List.mem_map.1 hmem
    rw [Update.onRow_id] at hne
    rw [Update.onRow_of_ne hne]
    exact hr

/-- The statement leaves rows with its id half done. -/
theorem halfDone_update (context : String) (u : Update) (x : World × List String) :
    ((orFail context (perform (.update u))).run (withHalfDone env) x).2.2 ⊆ u.target :: x.2 := by
  have hids : (withHalfDone env (.update u) x).2.2 ⊆ u.target :: x.2 := by
    intro id hid
    rcases List.mem_append.1 hid with hid | hid
    · exact List.mem_cons_of_mem _ hid
    · exact rewritten_update hid ▸ List.mem_cons_self ..
  rw [run_orFail_state]
  exact hids

/-- A reseal that succeeds takes its row out. -/
theorem halfDone_reseal {id : String} {x : World × List String}
    (hrun : ((resealRowMac id).run (withHalfDone env) x).1 = .ok ()) :
    ((resealRowMac id).run (withHalfDone env) x).2.2 = x.2.filter (· ≠ id) := by
  have hok := run_orFail_ok hrun
  have hids : (withHalfDone env (.reseal id) x).2.2 = x.2.filter (· ≠ id) :=
    if_pos (Except.ok.inj hok)
  unfold resealRowMac
  rw [run_orFail_state]
  exact hids

/-- A statement and its reseal, with what is checked in between. -/
theorem settles_resealed (context : String) (u : Update) {check : Nat → M Unit}
    (hcheck : ∀ n, IsQuiet (check n)) :
    Settles env ((orFail context (perform (.update u))).bind fun n =>
      (check n).bind fun _ => resealRowMac u.target) := by
  intro w ids v hrun
  have hupdate : ((orFail context (perform (.update u))).run (withHalfDone env) (w, ids)).2.2 ⊆
      u.target :: ids := halfDone_update context u (w, ids)
  rw [Prog.run_bind] at hrun ⊢
  rcases hpart : (orFail context (perform (.update u))).run (withHalfDone env) (w, ids)
    with ⟨e | n, x⟩
  · rw [hpart] at hrun
    cases hrun
  · rw [hpart] at hrun hupdate
    have hquiet : ((check n).run (withHalfDone env) x).2.2 = x.2 :=
      halfDone_of_isQuiet (hcheck n) x
    dsimp only at hrun hupdate ⊢
    rw [Prog.run_bind] at hrun ⊢
    rcases hchecked : (check n).run (withHalfDone env) x with ⟨e | u', x'⟩
    · rw [hchecked] at hrun
      cases hrun
    · rw [hchecked] at hrun hquiet
      dsimp only at hrun hquiet ⊢
      rw [halfDone_reseal hrun, hquiet]
      intro id hid
      obtain ⟨hmem, hne⟩ := List.mem_filter.1 hid
      rcases List.mem_cons.1 (hupdate hmem) with rfl | hmem
      · exact absurd rfl (of_decide_eq_true hne)
      · exact hmem

theorem settles_updateAndReseal (context : String) (u : Update) :
    Settles env (updateAndReseal context u) :=
  settles_resealed context u fun _ => Prog.uses_ret ()

/-- A mutator whose only preparation is the clock. -/
theorem settles_clocked (context : String) (u : String → Update) :
    Settles env (do
      let now ← nowText env
      updateAndReseal context (u now) : M Unit) :=
  settles_bind (settles_of_isQuiet (clock_nowText env).quiet) fun now =>
    settles_updateAndReseal context (u now)

theorem settles_ensure (c : Prop) [Decidable c] (e : Failure) :
    Settles env (Prog.ensure c e : M Unit) :=
  settles_of_isQuiet (Prog.uses_ensure c e)

/-- The reads of the row before and after a mutator. -/
theorem settles_read (id : String) : Settles env (getBroadcastTxById id) :=
  settles_of_isQuiet (quiet_getBroadcastTxById id)

end Window

theorem settles_encryptLegacyRows : Settles env (encryptLegacyRows env) := by
  refine settles_bind (settles_of_isQuiet (uses_orRaise (uses_act rfl))) fun rows => ?_
  refine settles_forEach rows fun row _ => ?_
  refine settles_bind (settles_of_isQuiet (clock_encodeMissing env _ _).quiet) fun encTxHex => ?_
  refine settles_bind (settles_of_isQuiet (clock_encodeMissing? env _ _).quiet) fun encDest => ?_
  refine settles_bind (settles_of_isQuiet (clock_encodeMissing? env _ _).quiet) fun encSource => ?_
  exact settles_updateAndReseal _ _

/-- A mutator that runs to its end leaves nothing half done: the window is the time between its own
statement and its reseal. -/
theorem settles_of_reseals {op : TableOp} (h : op.reseals = true) : Settles env (op.prog env) := by
  have hquit : Settles env (pure () : M Unit) := settles_of_isQuiet (Prog.uses_ret ())
  -- Each mutator reads and checks first, which leaves nothing half done, then comes its statement
  -- with the reseal of the same row, and reads are all that may follow.
  cases op with
  | scheduleAt p id time fee =>
    refine settles_bind ?_ fun _ => hquit
    refine settles_bind (settles_read id) fun tx => ?_
    refine settles_bind (settles_of_isQuiet (uses_act rfl)) fun now => ?_
    refine settles_bind (settles_ensure _ _) fun _ => settles_bind (settles_ensure _ _) fun _ => ?_
    refine settles_bind (settles_clocked _ _) fun _ => ?_
    refine settles_bind (settles_read id) fun updated => ?_
    exact settles_of_isQuiet
      (Prog.uses_bind (clock_enrichTxLocktime p updated).quiet fun _ => Prog.uses_ret _)
  | scheduleByPrice p id target currency condition fee =>
    refine settles_bind ?_ fun _ => hquit
    refine settles_bind (settles_ensure _ _) fun _ => settles_bind (settles_ensure _ _) fun _ => ?_
    refine settles_bind (settles_ensure _ _) fun _ => settles_bind (settles_read id) fun tx => ?_
    refine settles_bind (settles_ensure _ _) fun _ => settles_bind (settles_ensure _ _) fun _ => ?_
    refine settles_bind (settles_ensure _ _) fun _ => settles_bind (settles_clocked _ _) fun _ => ?_
    refine settles_bind (settles_read id) fun updated => ?_
    exact settles_of_isQuiet
      (Prog.uses_bind (clock_enrichTxLocktime p updated).quiet fun _ => Prog.uses_ret _)
  | markDue id => exact settles_clocked _ _
  | markDueFromPriceTrigger id => exact settles_clocked _ _
  | markDueWithSchedule id time => exact settles_clocked _ _
  | markBroadcast id txid fee => exact settles_clocked _ _
  | markConfirmed id height =>
    refine settles_bind (settles_of_isQuiet (clock_nowText env).quiet) fun now => ?_
    exact settles_bind (settles_ensure _ _) fun _ => settles_updateAndReseal _ _
  | updateTxStatus id status error => exact settles_clocked _ _
  -- `reset_failed_to_scheduled` reseals only after a check of the count of changed rows.
  | resetFailedToScheduled id =>
    refine settles_bind (settles_of_isQuiet (clock_nowText env).quiet) fun now => ?_
    exact settles_resealed _ _ fun n => Prog.uses_ensure _ _
  -- These do not end with a reseal.
  | insert => cases h
  | scheduleTransaction => cases h
  | scheduleAllPending => cases h
  | recordBroadcastMiss => cases h
  | rebroadcastPending => cases h
  | restart => cases h


/-! ### What a reader sees -/

/-- The rows that a step reads. -/
def readTxs (env : Env) (e : Performed Act Act.Res World) : List BroadcastTx :=
  match e.act with
  | .select q =>
      match (World.exec env (.select q) e.state).1 with
      | .ok txs => txs
      | .error _ => []
  | _ => []

/-- A query that selects no half-done row answers with no tampered row. -/
theorem readTxs_of_settled {e : Performed Act Act.Res World}
    (h : SealedBut env ids e.state.pool) (hread : SettledRead ids e) :
    ∀ tx ∈ readTxs env e, tx.tampered ≠ some true := by
  obtain ⟨w, seen, a⟩ := e
  cases a
  case select q =>
    intro tx htx
    unfold readTxs at htx
    dsimp only at htx
    rcases exec_select env w q with ⟨e, hexec⟩ | ⟨txs, hmap, hexec⟩
    · rw [hexec] at htx
      cases htx
    · rw [hexec] at htx
      obtain ⟨r, hr, hreads⟩ := mem_of_mapM_eq_ok hmap tx htx
      have hspec := mapBroadcastRow_spec hreads
      rcases hspec.tampered with ⟨hfalse, -⟩ | ⟨-, hmac⟩
      · rw [hfalse]
        simp
      · -- The row is sealed, so its MAC matches.
        have hsealed := h r (mem_selectRows hr).1 (hread r hr)
        obtain ⟨m, hm⟩ := Option.isSome_iff_exists.1 hspec.nlocktime.2
        have hn : r.nlocktime = some (m : Int) := by
          rw [hspec.nlocktime.1, hm]
          rfl
        exact absurd ⟨m, hn, hsealed m hn⟩ hmac
  all_goals exact fun tx htx => by cases htx

/-! ### What is inserted, and who enters safe mode -/

/-- A piece of work of the program, one of its operations on the table on its own, or any other
function that only reads. -/
def IsWorkOrReader (env : Env) (prog : M Unit) : Prop :=
  (∃ a : Activity, prog = a.prog env) ∨ (∃ op : TableOp, prog = op.prog env) ∨ IsQuiet prog

/-- The step inserts no unsealed row. -/
def InsertsSealed (env : Env) (a : Act) : Prop := ∀ row, a = .insert row → row.Sealed env

/-- The step inserts no row but those that `insert_broadcast_tx` makes. -/
def InsertsNew (env : Env) (a : Act) : Prop :=
  ∀ row, a = .insert row → ∃ newTx, IsNewRow env newTx row

/-- The step raises the flag of a process. -/
def Act.entersSafeMode : Act → Bool
  | enterSafeMode .. => true
  | _ => false

/-- A new row is sealed. -/
theorem IsNewRow.sealed {newTx : NewBroadcastTx} {row : Row} (h : IsNewRow env newTx row) :
    row.Sealed env := by
  obtain ⟨hlt, id, now, encTxHex, encDest, encSource, rfl⟩ := h
  intro n hn
  have hcast : asI64 (newTx.nlocktime.getD 0) = n := (asI64_of_lt hlt).trans (Option.some.inj hn)
  simp only [newRow, hcast]
  rfl

theorem InsertsNew.sealed {a : Act} (h : InsertsNew env a) : InsertsSealed env a := by
  intro row ha
  obtain ⟨newTx, hnew⟩ := h row ha
  exact IsNewRow.sealed hnew

theorem allows_insertsNew (a : Activity) : a.Allows env (InsertsNew env) where
  update _ _ _ _ h := by cases h
  mark _ _ _ _ _ _ h := by cases h
  encrypt _ _ _ _ _ _ h := by cases h
  insert newTx _ row hnew row' h := by cases h; exact ⟨newTx, hnew⟩
  delete _ _ h := by cases h
  archive _ _ _ _ h := by cases h
  storePending _ _ _ _ _ h := by cases h
  mergePending _ _ _ _ _ h := by cases h
  indexerBroadcast _ _ _ h := by cases h
  rpcBroadcast _ _ _ h := by cases h
  clearSafeMode _ h := by cases h
  startProcess _ _ _ _ _ _ h := by cases h

theorem allows_not_entersSafeMode (a : Activity) :
    a.Allows env fun act => act.entersSafeMode = false where
  update _ _ _ := rfl
  mark _ _ _ _ _ := rfl
  encrypt _ _ _ _ _ := rfl
  insert _ _ _ _ := rfl
  delete _ := rfl
  archive _ _ _ := rfl
  storePending _ _ _ _ := rfl
  mergePending _ _ _ _ := rfl
  indexerBroadcast _ _ := rfl
  rpcBroadcast _ _ := rfl
  clearSafeMode := rfl
  startProcess _ _ _ _ _ := rfl

theorem insertsNew_of_work {a : Act} (h : a.Work (InsertsNew env)) : InsertsNew env a := by
  rcases h with h | h
  · rintro row rfl
    cases h
  · exact h

theorem not_entersSafeMode_of_work {a : Act}
    (h : a.Work fun act => act.entersSafeMode = false) : a.entersSafeMode = false := by
  rcases h with h | h
  · cases a <;> first | rfl | cases h
  · exact h

/-- Every program of the run inserts new rows only. -/
theorem uses_insertsNew {prog : M Unit} (h : IsWorkOrReader env prog) :
    prog.Uses (InsertsNew env) := by
  refine Prog.Uses.mono (fun _ => insertsNew_of_work) ?_
  rcases h with ⟨a, rfl⟩ | ⟨op, rfl⟩ | h
  · exact work_everyActivity a (allows_insertsNew a) (fun _ h => by cases h)
      (fun _ _ h => by cases h) fun _ _ h => by cases h
  · exact work_tableOp (fun newTx row hnew row' h => by cases h; exact ⟨newTx, hnew⟩)
      (fun _ _ h => by cases h)
      (fun _ _ h => by cases h) (fun _ _ h => by cases h) op
  · exact h.work

/-- Every step of a run inserts new rows only. -/
theorem performed_insertsNew {w : World} {chs : List (Choice Act Act.Res Failure)}
    (hschedule : ∀ prog, Choice.start prog ∈ chs → IsWorkOrReader env prog) :
    ∀ e ∈ Config.performed (World.exec env) ⟨w, []⟩ chs, InsertsNew env e.act :=
  Config.performed_of_uses chs w fun prog hprog => uses_insertsNew (hschedule prog hprog)

/-- A query answers with no tampered row. -/
def cleanAnswer : (a : Act) → a.Res → Prop
  | .select _, .ok txs => ∀ tx ∈ txs, tx.tampered ≠ some true
  | _, _ => True

theorem cleanAnswer_of_readTxs {e : Performed Act Act.Res World}
    (h : ∀ tx ∈ readTxs env e, tx.tampered ≠ some true) :
    cleanAnswer e.act (World.exec env e.act e.state).1 := by
  obtain ⟨w, seen, a⟩ := e
  cases a
  case select q =>
    unfold readTxs at h
    dsimp only at h ⊢
    revert h
    cases (World.exec env (.select q) w).1 with
    | error e => exact fun _ => trivial
    | ok txs => exact fun h => h
  all_goals trivial

/-- The contract of one program whose queries find no tampered row. -/
abbrev cleanContract : Contract Act Act.Res (List (Seen Act Act.Res)) :=
  pathContract cleanAnswer fun _ a => a.entersSafeMode = false

theorem keeps_clean {α : Type} {p : M α}
    (hp : IsWork (fun a => a.entersSafeMode = false) p) :
    p.Keeps cleanContract fun _ => True :=
  Prog.keeps_of_uses (fun _ ha _ _ _ => ⟨not_entersSafeMode_of_work ha, fun _ _ _ => trivial⟩) hp

theorem keeps_clean_act {a : Act} (h : a.entersSafeMode = false) :
    (perform a).Keeps cleanContract fun _ => True :=
  Prog.keeps_perform a fun _ _ _ => ⟨h, fun _ _ _ => trivial⟩

/-- No row that a query finds is tampered. -/
theorem gives_clean_select (context : String) (q : Query) :
    Prog.Gives cleanContract (fun _ => True) (fun txs => ∀ tx ∈ txs, tx.tampered ≠ some true)
      (orFail context (perform (.select q))) := by
  intro seen _
  refine (wp_orFail _ _ _ _).2 (Prog.wp_perform_path _ _ _ rfl fun r hr => ?_)
  cases r with
  | error e => exact ⟨trivial, fun _ h => by cases h⟩
  | ok txs =>
    refine ⟨trivial, fun l hl => ?_⟩
    cases hl
    exact hr

theorem keeps_clean_markPendingLoop (txs : List BroadcastTx)
    (h : ∀ tx ∈ txs, tx.tampered ≠ some true) :
    (markPendingLoop env .daemon txs).Keeps cleanContract fun _ => True := by
  induction txs with
  | nil => exact Prog.keeps_ret _
  | cons tx txs ih =>
    refine Prog.keeps_bind (keeps_clean_act rfl) fun halted => ?_
    split
    · exact Prog.keeps_ret _
    · rw [if_neg (h tx (List.mem_cons_self ..))]
      exact Prog.keeps_bind (keeps_clean (uses_logErrorIf _ (work_clocked env _ fun _ => rfl)))
        fun _ => ih fun tx' htx' => h tx' (List.mem_cons_of_mem _ htx')

theorem keeps_clean_broadcastDueLoop (now : DateTime) (txs : List BroadcastTx)
    (h : ∀ tx ∈ txs, tx.tampered ≠ some true) :
    (broadcastDueLoop env .daemon now txs).Keeps cleanContract fun _ => True := by
  induction txs with
  | nil => exact Prog.keeps_ret _
  | cons tx txs ih =>
    refine Prog.keeps_bind (keeps_clean_act rfl) fun halted => ?_
    split
    · exact Prog.keeps_ret _
    · rw [if_neg (h tx (List.mem_cons_self ..))]
      exact Prog.keeps_bind (keeps_clean (work_broadcastIfFinal env .daemon now rfl rfl
        (fun _ _ _ => rfl) (fun _ _ => rfl) fun _ _ _ => rfl))
        fun _ => ih fun tx' htx' => h tx' (List.mem_cons_of_mem _ htx')

/-- The tick raises the flag for tampered rows only. -/
theorem keeps_clean_broadcastLoopPass :
    (broadcastLoopPass env .daemon).Keeps cleanContract fun _ => True := by
  have hdue : (broadcastDueTransactions env .daemon).Keeps cleanContract fun _ => True := by
    refine Prog.keeps_bind (keeps_clean_act rfl) fun halted => ?_
    split
    · exact Prog.keeps_ret _
    · refine Prog.keeps_bind (keeps_clean (clock_configNetwork .daemon).work) fun network => ?_
      refine Prog.keeps_bind (keeps_clean_act rfl) fun now => ?_
      refine (gives_clean_select _ _).keeps_bind fun candidates hclean => ?_
      have hsub := gives_dueTxs (p := .daemon) (c := cleanContract) (I := fun _ => True) now
        candidates fun tx =>
          keeps_clean (uses_catchErr (clock_isTxDueForBroadcast .daemon tx now).work)
      exact hsub.keeps_bind fun due hdue =>
        keeps_clean_broadcastDueLoop now due fun tx htx => hclean tx (hdue tx htx)
  refine Prog.keeps_bind (keeps_clean_act rfl) fun halted => ?_
  split
  · exact Prog.keeps_ret _
  · refine Prog.keeps_bind (keeps_clean_act rfl) fun halted => ?_
    split
    · exact Prog.keeps_ret _
    · refine Prog.keeps_bind (keeps_clean_act rfl) fun health => ?_
      refine Prog.keeps_bind (keeps_ensure _ _) fun _ => ?_
      refine Prog.keeps_bind (keeps_clean (clock_configNetwork .daemon).work) fun network => ?_
      have hpending : Prog.Gives cleanContract (fun _ => True)
          (fun txs => ∀ tx ∈ txs, tx.tampered ≠ some true) (getPendingByScheduledTime network) := by
        refine Prog.gives_bind (keeps_clean_act rfl).gives fun now _ => ?_
        refine Prog.gives_bind (gives_clean_select _ _) fun txs htxs => Prog.gives_ret ?_
        exact fun tx htx => htxs tx (List.mem_filter.1 htx).1
      refine hpending.keeps_bind fun pending hclean => ?_
      refine Prog.keeps_bind (keeps_clean_markPendingLoop pending hclean) fun _ => ?_
      refine Prog.keeps_bind (keeps_clean (uses_catchErr
        (work_requeueRetriableFailures env .daemon fun _ _ => rfl))) fun _ => ?_
      exact hdue

/-- `broadcast_now` raises the flag for a tampered row only. -/
theorem keeps_clean_broadcastNow (id : String) :
    (broadcastNow env .daemon id).Keeps cleanContract fun _ => True := by
  refine Prog.keeps_bind (keeps_clean_act rfl) fun halted => ?_
  refine Prog.keeps_bind (keeps_ensure _ _) fun _ => ?_
  have hget : Prog.Gives cleanContract (fun _ => True)
      (fun tx : BroadcastTx => tx.tampered ≠ some true) (getBroadcastTxById id) := by
    refine Prog.gives_bind (gives_clean_select _ _) fun txs htxs => ?_
    cases txs with
    | nil => exact Prog.gives_fail _
    | cons tx txs => exact Prog.gives_ret (htxs tx (List.mem_cons_self ..))
  refine hget.keeps_bind fun tx hclean => ?_
  rw [if_neg hclean]
  have hrefuse : IsClock (refuseEmitted tx.status) := by
    unfold refuseEmitted
    split
    · exact Prog.uses_fail _
    · exact Prog.uses_fail _
    · exact Prog.uses_ret _
  refine Prog.keeps_bind (keeps_clean hrefuse.work) fun _ => ?_
  refine Prog.keeps_bind (keeps_clean (clock_locktimeOrRefuse .daemon _).work) fun ok => ?_
  split
  · refine Prog.keeps_bind (keeps_clean (work_broadcastTransaction .daemon rfl rfl)) fun txid => ?_
    exact Prog.keeps_bind (keeps_clean (work_markBroadcast env .daemon txid _ fun _ => rfl))
      fun _ => Prog.keeps_ret _
  · exact keeps_clean (clock_refuseNonFinal .daemon _).work

/-- On paths without a tampered row, no program of the run enters safe mode. -/
theorem onPaths_clean {prog : M Unit} (h : IsWorkOrReader env prog) :
    prog.OnPaths cleanAnswer (fun _ a => a.entersSafeMode = false) [] := by
  refine Prog.Keeps.onPaths (I := fun _ => True) ?_ trivial
  rcases h with ⟨a, rfl⟩ | ⟨op, rfl⟩ | h
  · by_cases hloop : a = .broadcastLoop
    · subst hloop
      exact keeps_clean_broadcastLoopPass
    · by_cases hnow : ∃ id, a = .broadcastNow id
      · obtain ⟨id, rfl⟩ := hnow
        exact Prog.keeps_bind (keeps_clean_broadcastNow id) fun _ => Prog.keeps_ret _
      · exact keeps_clean (work_activity a (allows_not_entersSafeMode a) hloop
          fun id h => hnow ⟨id, h⟩)
  · exact keeps_clean (work_tableOp (fun _ _ _ => rfl) (fun _ => rfl)
      (fun _ => rfl) (fun _ => rfl) op)
  · exact keeps_clean h.work

/-- A step that does not enter safe mode raises no flag. -/
theorem exec_safeMode_down {a : Act} (h : a.entersSafeMode = false) {w : World}
    (hdown : ∀ p, (w.pm p).safeMode = false) (p : Proc) :
    ((World.exec env a w).2.pm p).safeMode = false := by
  by_cases hw : a.writesSafeMode = false
  · rw [exec_safeMode hw p]
    exact hdown p
  · cases a <;> first | exact absurd rfl hw | skip
    case startProcess q rpc indexer config =>
      cases p <;> cases q <;> first | rfl | exact hdown .daemon | exact hdown .cli
    case enterSafeMode q id => cases h
    case clearSafeMode q =>
      cases p <;> cases q <;> first | rfl | exact hdown .daemon | exact hdown .cli

end

/-! ### Runs -/

/-- In every run of the program's work and of any readers, with crashes and restarts, in which no
query selects a half-done row, every reader sees untampered rows only, and no process is in safe
mode at the end. The run starts with a sealed table and without safe mode. -/
theorem no_half_done_read (env : Env) (w : World) (hsealed : ∀ r ∈ w.pool, r.MacMatches env)
    (hdown : ∀ p, (w.pm p).safeMode = false) (chs : List (Choice Act Act.Res Failure))
    (hschedule : ∀ prog, Choice.start prog ∈ chs → IsWorkOrReader env prog)
    (hreads : ReadsSettled env [] (Config.performed (World.exec env) ⟨w, []⟩ chs)) :
    (∀ e ∈ Config.performed (World.exec env) ⟨w, []⟩ chs,
      ∀ tx ∈ readTxs env e, tx.tampered ≠ some true) ∧
      ∀ p, ((Config.exec (World.exec env) ⟨w, []⟩ chs).state.pm p).safeMode = false := by
  have hinserts : ∀ e ∈ Config.performed (World.exec env) ⟨w, []⟩ chs, InsertsSealed env e.act :=
    fun e he => (performed_insertsNew hschedule e he).sealed
  have hclean : ∀ e ∈ Config.performed (World.exec env) ⟨w, []⟩ chs,
      ∀ tx ∈ readTxs env e, tx.tampered ≠ some true := by
    intro e he
    obtain ⟨before, after, hsplit⟩ := List.append_of_mem he
    have hstart : SealedBut env [] w.pool := fun r hr _ => (hsealed r hr).sealed
    have hbut := Config.performed_history (I := fun ids w => SealedBut env ids w.pool)
      (halfDoneAfter env) chs ⟨w, []⟩ [] hstart
      (fun e' he' ids hids => sealedBut_step hids (hinserts e' he')) hsplit
    rw [hsplit] at hreads
    exact readTxs_of_settled hbut hreads.at
  have hcalm := Config.performed_of_paths_of_answers chs ⟨w, []⟩
    (fun e he => cleanAnswer_of_readTxs (hclean e he)) (fun t ht => by cases ht)
    fun prog hprog => onPaths_clean (hschedule prog hprog)
  exact ⟨hclean, Config.exec_invariant (I := fun w => ∀ p, (w.pm p).safeMode = false) chs _ hdown
    fun e he hI => exec_safeMode_down (hcalm e he) hI⟩

/-- A failed row whose scheduled time has passed. -/
def retriedRow : Row :=
  resealed sampleEnv { sampleRow with status := "failed", scheduledTime := some "0" }

/-- A user's retry, which gets to do `n` steps before the scheduler tick runs. -/
def retrySchedule (n : Nat) : List (Choice Act Act.Res Failure) :=
  .start ((Activity.retry "id0").prog sampleEnv) ::
    .start (Activity.broadcastLoop.prog sampleEnv) ::
      (List.replicate n (.step 0) ++ List.replicate 20 (.step 1))

theorem retrySchedule_isWork (n : Nat) :
    ∀ prog, Choice.start prog ∈ retrySchedule n → IsWorkOrReader sampleEnv prog := by
  intro prog hprog
  simp only [retrySchedule, List.mem_cons, List.mem_append, List.mem_replicate] at hprog
  rcases hprog with h | h | ⟨-, h⟩ | ⟨-, h⟩
  · cases h
    exact Or.inl ⟨.retry "id0", rfl⟩
  · cases h
    exact Or.inl ⟨.broadcastLoop, rfl⟩
  · cases h
  · cases h

theorem retriedRow_macMatches : ∀ r ∈ (servedWorld retriedRow).pool, r.MacMatches sampleEnv := by
  intro r hr
  rw [List.mem_singleton.1 hr]
  exact ⟨0, rfl, rfl⟩

/-- The whole retry, and then the tick. -/
theorem no_half_done_read_retrySchedule :
    (∀ e ∈ Config.performed (World.exec sampleEnv) ⟨servedWorld retriedRow, []⟩ (retrySchedule 10),
      ∀ tx ∈ readTxs sampleEnv e, tx.tampered ≠ some true) ∧
      ∀ p, ((Config.exec (World.exec sampleEnv) ⟨servedWorld retriedRow, []⟩
        (retrySchedule 10)).state.pm p).safeMode = false :=
  no_half_done_read sampleEnv _ retriedRow_macMatches (fun p => by cases p <;> rfl) _
    (retrySchedule_isWork 10) (by decide +kernel)

/-- The tick comes between the `UPDATE` of `reset_failed_to_scheduled` and its reseal. It reads
the row as tampered and halts all broadcasting. -/
theorem retry_read_half_done :
    ¬ ∀ (env : Env) (w : World) (chs : List (Choice Act Act.Res Failure)),
      (∀ r ∈ w.pool, r.MacMatches env) → (∀ p, (w.pm p).safeMode = false) →
      (∀ prog, Choice.start prog ∈ chs → IsWorkOrReader env prog) →
      (∀ e ∈ Config.performed (World.exec env) ⟨w, []⟩ chs,
        ∀ tx ∈ readTxs env e, tx.tampered ≠ some true) ∧
        ∀ p, ((Config.exec (World.exec env) ⟨w, []⟩ chs).state.pm p).safeMode = false := by
  intro h
  have hup : ((Config.exec (World.exec sampleEnv) ⟨servedWorld retriedRow, []⟩
      (retrySchedule 3)).state.pm .daemon).safeMode = true := by decide +kernel
  have hdown := (h sampleEnv _ _ retriedRow_macMatches (fun p => by cases p <;> rfl)
    (retrySchedule_isWork 3)).2 .daemon
  rw [hup] at hdown
  cases hdown

end BroadcastPool
