import BroadcastPool.Lib.Outcome
import BroadcastPool.Proofs.Db.RowMac
import BroadcastPool.Proofs.Rules

/-!
# `BroadcastPool.Proofs.Db.Frame`: one row, and the rows that a query returns

`rowsOf id` are the rows with one id. `Act.touches id` says which action can change them, and
`exec_rowsOf` that no other action does. `ActsOn id` says of a function that it writes and hands
over the row with that id only, and each function that works on one row has a lemma that says
so. `gives_select` and `gives_getBroadcastTxById` say what
a program may use of the rows it has read.
-/

set_option autoImplicit false

namespace BroadcastPool

open Effects

namespace Update
variable {env : Env}

@[simp] theorem set_id (u : Update) (r : Row) : (u.set env r).id = r.id := by
  cases u <;> rfl

@[simp] theorem onRow_id (u : Update) (r : Row) : (u.onRow env r).id = r.id := by
  unfold onRow
  split <;> simp

theorem onRow_of_ne {u : Update} {r : Row} (h : r.id ≠ u.target) : u.onRow env r = r := by
  unfold onRow
  rw [if_neg fun hmatch => h hmatch.1]

end Update

/-- The rows with one id. -/
def rowsOf (id : String) (rows : List Row) : List Row := rows.filter (·.id = id)

@[simp] theorem mem_rowsOf {id : String} {rows : List Row} {r : Row} :
    r ∈ rowsOf id rows ↔ r ∈ rows ∧ r.id = id := by
  simp [rowsOf]

/-- The action can change the rows with the id `x`. -/
def Act.touches (x : String) : Act → Bool
  | insert row => row.id = x
  | update u => u.target = x
  | delete id | reseal id | archiveRow id _ => id = x
  | migrate | backfill => true
  | _ => false

/-- A map that leaves the rows with the id alone, and keeps ids. -/
theorem rowsOf_map {x : String} {f : Row → Row} {rows : List Row}
    (hid : ∀ r, (f r).id = r.id) (hf : ∀ r ∈ rows, r.id = x → f r = r) :
    rowsOf x (rows.map f) = rowsOf x rows := by
  induction rows with
  | nil => rfl
  | cons r rows ih =>
    have ih' := ih fun r' hr' => hf r' (List.mem_cons_of_mem _ hr')
    unfold rowsOf at ih' ⊢
    by_cases hr : r.id = x
    · simp [hr, hf r (List.mem_cons_self ..) hr, ih']
    · simp [hid, hr, ih']

/-- A second row with an id is refused. -/
theorem insertRow_of_mem {row r : Row} {rows : List Row} (hr : r ∈ rows) (hid : r.id = row.id) :
    insertRow row rows = .error "UNIQUE constraint failed: broadcast_pool.id" := by
  unfold insertRow
  rw [if_pos (List.any_eq_true.2 ⟨r, hr, decide_eq_true hid⟩)]

theorem rowsOf_deleteRow {x id : String} (h : id ≠ x) (rows : List Row) :
    rowsOf x (rows.filter (·.id ≠ id)) = rowsOf x rows := by
  unfold rowsOf
  rw [List.filter_filter]
  refine List.filter_congr fun r _ => ?_
  by_cases hr : r.id = x
  · simp [hr]
    exact fun h' => h h'.symm
  · simp [hr]

/-- The archive moves one row, or fails and changes nothing in the table. -/
theorem exec_archiveRow (env : Env) (w : World) (id : String) (entry : ArchiveRow) :
    (World.exec env (.archiveRow id entry) w).2.pool = w.pool ∨
      (World.exec env (.archiveRow id entry) w).2.pool = w.pool.filter (·.id ≠ id) := by
  rcases exec_archive env w id entry with ⟨e, hexec⟩ | hexec
  · rw [hexec]
    exact Or.inl rfl
  · rw [hexec]
    exact Or.inr rfl

/-! ### The steps that are no `INSERT` and no `UPDATE` -/

/-- The row `r'` is `r` as `MIGRATION_007`, the backfill or a reseal leaves it, or `r` itself. -/
def Row.Serviced (env : Env) (r r' : Row) : Prop :=
  r' = r ∨ r' = migration007 r ∨ r' = backfillRow env r ∨ r' = resealed env r

/-- Only the mode, the value and the MAC can differ. -/
theorem Row.Serviced.eq {env : Env} {r r' : Row} (h : r.Serviced env r') :
    r' = { r with
      broadcastMode := r'.broadcastMode, totalValueBtc := r'.totalValueBtc
      rowMac := r'.rowMac } := by
  rcases h with rfl | rfl | rfl | rfl
  · rfl
  · unfold migration007
    split <;> rfl
  · unfold backfillRow
    split
    · split
      · split <;> rfl
      · rfl
    · rfl
  · unfold resealed
    split <;> rfl

/-- A step that is no `INSERT` and no `UPDATE` leaves rows that were there before, serviced at
most. -/
theorem exec_serviced (env : Env) {a : Act} (hinsert : ∀ row, a ≠ .insert row)
    (hupdate : ∀ u, a ≠ .update u) (w : World) :
    ∀ r' ∈ (World.exec env a w).2.pool, ∃ r ∈ w.pool, r.Serviced env r' := by
  intro r' hr'
  by_cases hw : a.writesPool = false
  · rw [exec_pool hw] at hr'
    exact ⟨r', hr', Or.inl rfl⟩
  · cases a <;> first | exact absurd rfl hw | skip
    case insert row => exact absurd rfl (hinsert row)
    case update u => exact absurd rfl (hupdate u)
    case delete id =>
      rcases exec_delete env w id with ⟨e, hexec⟩ | hexec
      · rw [hexec] at hr'
        exact ⟨r', hr', Or.inl rfl⟩
      · rw [hexec] at hr'
        exact ⟨r', (List.mem_filter.1 hr').1, Or.inl rfl⟩
    case reseal id =>
      rcases exec_reseal env w id with ⟨-, e, hexec⟩ | hexec
      · rw [hexec] at hr'
        exact ⟨r', hr', Or.inl rfl⟩
      · rw [hexec] at hr'
        cases hreseal : resealRow env id w.pool with
        | error e =>
          rw [hreseal] at hr'
          exact ⟨r', hr', Or.inl rfl⟩
        | ok rows =>
          rw [hreseal] at hr'
          unfold resealRow at hreseal
          split at hreseal
          · cases hreseal
          · split at hreseal
            · cases hreseal
            · cases hreseal
              obtain ⟨r, hr, rfl⟩ := List.mem_map.1 hr'
              refine ⟨r, hr, ?_⟩
              split
              · exact Or.inr (Or.inr (Or.inr rfl))
              · exact Or.inl rfl
    case migrate =>
      rcases exec_migrate env w with ⟨e, hexec⟩ | hexec
      · rw [hexec] at hr'
        exact ⟨r', hr', Or.inl rfl⟩
      · rw [hexec] at hr'
        simp only [World.ticked_pool] at hr'
        split at hr'
        · exact ⟨r', hr', Or.inl rfl⟩
        · obtain ⟨r, hr, rfl⟩ := List.mem_map.1 hr'
          exact ⟨r, hr, Or.inr (Or.inl rfl)⟩
    case backfill =>
      obtain ⟨r, hr, h | h⟩ := exec_backfill env w r' hr'
      · exact ⟨r, hr, Or.inl h⟩
      · exact ⟨r, hr, Or.inr (Or.inr (Or.inl h))⟩
    case archiveRow id entry =>
      rcases exec_archiveRow env w id entry with hpool | hpool
      · rw [hpool] at hr'
        exact ⟨r', hr', Or.inl rfl⟩
      · rw [hpool] at hr'
        exact ⟨r', (List.mem_filter.1 hr').1, Or.inl rfl⟩

section Frame
variable {env : Env} {x : String}

/-- An action that does not touch the rows with an id leaves them as they are. -/
theorem exec_rowsOf {a : Act} (h : a.touches x = false) (w : World) :
    rowsOf x (World.exec env a w).2.pool = rowsOf x w.pool := by
  by_cases hw : a.writesPool = false
  · rw [exec_pool hw]
  · cases a <;> first | exact absurd rfl hw | skip
    case insert row =>
      have hne : row.id ≠ x := by simpa [Act.touches] using h
      rcases exec_insert env w row with ⟨e, hexec⟩ | ⟨pool, hins, hexec⟩
      · rw [hexec]
        rfl
      · rw [hexec]
        unfold insertRow at hins
        split at hins
        · cases hins
        · cases hins
          simp [rowsOf, World.ticked_pool, hne]
    case update u =>
      have hne : u.target ≠ x := by simpa [Act.touches] using h
      rcases exec_update env w u with ⟨e, hexec⟩ | hexec
      · rw [hexec]
        rfl
      · rw [hexec]
        refine rowsOf_map (fun r => ?_) fun r _ hr => ?_
        · unfold Update.onRow
          split
          · cases u <;> rfl
          · rfl
        · unfold Update.onRow
          rw [if_neg fun hm => hne (hm.1.symm.trans hr)]
    case delete id =>
      have hne : id ≠ x := by simpa [Act.touches] using h
      rcases exec_delete env w id with ⟨e, hexec⟩ | hexec
      · rw [hexec]
        rfl
      · rw [hexec]
        exact rowsOf_deleteRow hne _
    case reseal id =>
      have hne : id ≠ x := by simpa [Act.touches] using h
      rcases exec_reseal env w id with ⟨-, e, hexec⟩ | hexec
      · rw [hexec]
        rfl
      · rw [hexec]
        cases hr : resealRow env id w.pool with
        | error e => rfl
        | ok rows =>
          unfold resealRow at hr
          split at hr
          · cases hr
          · split at hr
            · cases hr
            · cases hr
              refine rowsOf_map (fun r => ?_) fun r _ hrx => ?_
              · split
                · unfold resealed
                  split <;> rfl
                · rfl
              · rw [if_neg fun hm => hne (hm.symm.trans hrx)]
    case archiveRow id entry =>
      have hne : id ≠ x := by simpa [Act.touches] using h
      rcases exec_archiveRow env w id entry with hexec | hexec
      · rw [hexec]
      · rw [hexec]
        exact rowsOf_deleteRow hne _
    case migrate | backfill => cases h

end Frame

/-! ### The primary key -/

/-- The ids of the rows are distinct: the id is the primary key of the table. -/
def World.UniqueIds (w : World) : Prop := (w.pool.map (·.id)).Nodup

instance (w : World) : Decidable w.UniqueIds := inferInstanceAs (Decidable (List.Nodup _))

/-- The row with an id is the only one. -/
theorem rowsOf_of_nodup {rows : List Row} (h : (rows.map (·.id)).Nodup) {r : Row}
    (hr : r ∈ rows) : rowsOf r.id rows = [r] := by
  induction rows with
  | nil => cases hr
  | cons r₀ rows ih =>
    obtain ⟨hfirst, hrest⟩ := List.nodup_cons.1 h
    have hother : ∀ r' ∈ rows, r'.id ≠ r₀.id := fun r' hr' hid =>
      hfirst (List.mem_map.2 ⟨r', hr', hid⟩)
    unfold rowsOf at ih ⊢
    rcases List.mem_cons.1 hr with rfl | hr
    · have hnone : rows.filter (·.id = r.id) = [] :=
        List.filter_eq_nil_iff.2 fun r' hr' hid => hother r' hr' (of_decide_eq_true hid)
      simp [hnone]
    · simp [(hother r hr).symm, ih hrest hr]

/-- A step that is no `INSERT` brings no id. -/
theorem exec_ids (env : Env) {a : Act} (h : ∀ row, a ≠ .insert row) (w : World) :
    List.Sublist ((World.exec env a w).2.pool.map (·.id)) (w.pool.map (·.id)) := by
  have hfilter : ∀ p : Row → Bool,
      List.Sublist ((w.pool.filter p).map (·.id)) (w.pool.map (·.id)) :=
    fun p => List.Sublist.map _ List.filter_sublist
  have hmap : ∀ (f : Row → Row) (rows : List Row), (∀ r, (f r).id = r.id) →
      (rows.map f).map (·.id) = rows.map (·.id) := by
    intro f rows hf
    rw [List.map_map]
    exact List.map_congr_left fun r _ => hf r
  have hserviced : ∀ (f : Row → Row), (∀ r : Row, r.Serviced env (f r)) →
      ∀ r, (f r).id = r.id := by
    intro f hf r
    rw [(hf r).eq]
  by_cases hw : a.writesPool = false
  · rw [exec_pool hw]
  · cases a <;> first | exact absurd rfl hw | skip
    case insert row => exact absurd rfl (h row)
    case update u =>
      rcases exec_update env w u with ⟨e, hexec⟩ | hexec
      · rw [hexec]
        exact List.Sublist.refl _
      · rw [hexec]
        exact (hmap _ _ fun r => Update.onRow_id u r).symm ▸ List.Sublist.refl _
    case delete id =>
      rcases exec_delete env w id with ⟨e, hexec⟩ | hexec
      · rw [hexec]
        exact List.Sublist.refl _
      · rw [hexec]
        exact hfilter _
    case reseal id =>
      rcases exec_reseal env w id with ⟨-, e, hexec⟩ | hexec
      · rw [hexec]
        exact List.Sublist.refl _
      · rw [hexec]
        cases hreseal : resealRow env id w.pool with
        | error e => exact List.Sublist.refl _
        | ok rows =>
          unfold resealRow at hreseal
          split at hreseal
          · cases hreseal
          · split at hreseal
            · cases hreseal
            · cases hreseal
              refine (hmap _ _ fun r => ?_).symm ▸ List.Sublist.refl _
              split
              · rw [Row.Serviced.eq (Or.inr (Or.inr (Or.inr rfl)))]
              · rfl
    case migrate =>
      rcases exec_migrate env w with ⟨e, hexec⟩ | hexec
      · rw [hexec]
        exact List.Sublist.refl _
      · rw [hexec]
        simp only [World.ticked_pool]
        split
        · exact List.Sublist.refl _
        · exact (hmap _ _ (hserviced _ fun r => Or.inr (Or.inl rfl))).symm ▸ List.Sublist.refl _
    case backfill =>
      have hfill := hserviced (backfillRow env) fun r => Or.inr (Or.inr (Or.inl rfl))
      simp only [World.exec, World.effect, World.ticked_pool]
      split
      · rw [List.map_append, hmap _ _ hfill, ← List.map_append, List.take_append_drop]
      · rw [hmap _ _ hfill]
    case archiveRow id entry =>
      rcases exec_archiveRow env w id entry with hpool | hpool
      · rw [hpool]
      · rw [hpool]
        exact hfilter _

/-- No statement stores a second row with an id. -/
theorem exec_uniqueIds (env : Env) {w : World} (h : w.UniqueIds) (a : Act) :
    (World.exec env a w).2.UniqueIds := by
  by_cases hinsert : ∃ row, a = .insert row
  · obtain ⟨row, rfl⟩ := hinsert
    rcases exec_insert env w row with ⟨e, hexec⟩ | ⟨pool, hins, hexec⟩
    · rw [hexec]
      exact h
    · rw [hexec]
      show (pool.map (·.id)).Nodup
      unfold insertRow at hins
      split at hins
      · cases hins
      · rename_i hfresh
        cases hins
        rw [List.map_append, List.nodup_append]
        refine ⟨h, List.nodup_singleton _, fun x hx y hy hxy => hfresh ?_⟩
        obtain ⟨r, hr, rfl⟩ := List.mem_map.1 hx
        rw [List.mem_singleton.1 hy] at hxy
        exact List.any_eq_true.2 ⟨r, hr, decide_eq_true hxy⟩
  · exact h.sublist (exec_ids env (fun row hrow => hinsert ⟨row, hrow⟩) w)

/-! ### The row a function acts on -/

/-- The action changes no row with another id, and hands no row with another id over. -/
def Act.ActsOn (id : String) (a : Act) : Prop :=
  (∀ x, x ≠ id → a.touches x = false) ∧ ∀ tx, a.handsOver = some tx → tx.id = id

/-- Every action of the program acts on the row with the id only. -/
abbrev ActsOn {α : Type} (id : String) (prog : M α) : Prop := prog.Uses (Act.ActsOn id)

section ActsOn
variable {α : Type} {id : String} (env : Env) (p : Proc)

theorem touches_of_no_write {a : Act} (h : a.writesPool = false) (x : String) :
    a.touches x = false := by
  cases a <;> first | rfl | cases h

theorem actsOn_of_isMemory {a : Act} (h : a.isMemory = true) : a.ActsOn id := by
  obtain ⟨hpool, -, hsend⟩ := no_write_of_isMemory h
  refine ⟨fun x _ => touches_of_no_write hpool x, fun tx htx => ?_⟩
  rw [hsend] at htx
  cases htx

theorem actsOn_memory {prog : M α} (h : IsMemory prog) : ActsOn id prog :=
  Prog.Uses.mono (fun _ => actsOn_of_isMemory) h

theorem actsOn_clock {prog : M α} (h : IsClock prog) : ActsOn id prog := actsOn_memory h.memory

/-- An action that writes neither the table nor hands anything over. -/
theorem actsOn_act {a : Act} (hpool : a.writesPool = false) (hsend : a.handsOver = none) :
    ActsOn id (perform a) :=
  uses_act ⟨fun x _ => touches_of_no_write hpool x, fun tx htx => by rw [hsend] at htx; cases htx⟩

theorem actsOn_update {u : Update} (hu : u.target = id) : ActsOn id (perform (.update u)) := by
  refine uses_act ⟨fun x hx => ?_, fun tx htx => by cases htx⟩
  simpa [Act.touches, hu] using hx.symm

theorem actsOn_resealRowMac : ActsOn id (resealRowMac id) := by
  refine uses_orFail _ (uses_act ⟨fun x hx => ?_, fun tx htx => by cases htx⟩)
  simpa [Act.touches] using hx.symm

theorem actsOn_updateAndReseal (context : String) {u : Update} (hu : u.target = id) :
    ActsOn id (updateAndReseal context u) := by
  refine Prog.uses_bind (uses_orFail _ (actsOn_update hu)) fun _ => ?_
  rw [hu]
  exact actsOn_resealRowMac

/-- A mutator whose only preparation is the clock. -/
theorem actsOn_clocked (context : String) {u : String → Update} (hu : ∀ now, (u now).target = id) :
    ActsOn id (do
      let now ← nowText env
      updateAndReseal context (u now) : M Unit) :=
  Prog.uses_bind (actsOn_clock (clock_nowText env)) fun now =>
    actsOn_updateAndReseal context (hu now)

theorem actsOn_resetFailedToScheduled : ActsOn id (resetFailedToScheduled env id) := by
  refine Prog.uses_bind (actsOn_clock (clock_nowText env)) fun now => ?_
  refine Prog.uses_bind (uses_orFail _ (actsOn_update rfl)) fun _ => ?_
  exact Prog.uses_bind (uses_ensure _ _) fun _ => actsOn_resealRowMac

theorem actsOn_recordBroadcastMiss (missedAt : String) (original : Option String) :
    ActsOn id (recordBroadcastMiss env id missedAt original) :=
  Prog.uses_bind (actsOn_clock (clock_nowText env)) fun _ =>
    Prog.uses_bind (uses_orFail _ (actsOn_update rfl)) fun _ => Prog.uses_ret _

theorem actsOn_broadcastTransaction (tx : BroadcastTx) :
    ActsOn tx.id (broadcastTransaction p tx) := by
  refine Prog.Uses.mono (fun a ha => ?_) (uses_broadcastTransaction p tx)
  rcases ha with h | rfl | rfl
  · exact actsOn_of_isMemory (isMemory_of_isQuiet (isQuiet_of_isClock h))
  · exact ⟨fun _ _ => rfl, fun tx' h => by cases h; rfl⟩
  · exact ⟨fun _ _ => rfl, fun tx' h => by cases h; rfl⟩

theorem actsOn_markBroadcast (txid : String) (feeRate : F64) :
    ActsOn id (markBroadcast env p id txid feeRate) :=
  Prog.uses_bind (actsOn_clocked env _ fun _ => rfl) fun _ =>
    Prog.uses_bind (actsOn_act rfl rfl) fun _ => Prog.uses_ret _

theorem actsOn_broadcastDueTx (tx : BroadcastTx) :
    ActsOn tx.id (broadcastDueTx env p tx) := by
  refine Prog.uses_bind (uses_catchErr (actsOn_broadcastTransaction p tx)) fun verdict => ?_
  cases verdict with
  | ok txid => exact actsOn_markBroadcast env p txid _
  | error e =>
    show ActsOn tx.id (if _ then _ else _)
    split
    · exact Prog.uses_ret _
    · exact actsOn_clocked env _ fun _ => rfl

theorem actsOn_recordMiss (tx : BroadcastTx) (now : DateTime) :
    ActsOn tx.id (recordMiss env p tx now) := by
  unfold recordMiss
  split
  · exact Prog.uses_bind (uses_logErrorIf _ (actsOn_recordBroadcastMiss env _ _)) fun _ =>
      uses_logErrorIf _ (actsOn_clock (clock_getMedianTimePastCached p))
  · exact Prog.uses_ret _

/-- One due transaction of the batch: only its own row is written or handed over. -/
theorem actsOn_broadcastIfFinal (tx : BroadcastTx) (now : DateTime) :
    ActsOn tx.id (broadcastIfFinal env p tx now) := by
  refine Prog.uses_bind (actsOn_clock (clock_locktimeOrRefuse p _)) fun ok => ?_
  show ActsOn tx.id (if _ then _ else _)
  split
  · exact actsOn_broadcastDueTx env p tx
  · exact actsOn_recordMiss env p tx now

theorem actsOn_archiveTx (key : Key) (tx : BroadcastTx) : ActsOn tx.id (archiveTx env key tx) := by
  unfold archiveTx
  split
  · exact Prog.uses_ret _
  · refine Prog.uses_bind (actsOn_act rfl rfl) fun archiveId => ?_
    refine Prog.uses_bind (actsOn_act rfl rfl) fun nonce => ?_
    refine Prog.uses_bind (actsOn_clock (clock_nowText env)) fun archivedAt => ?_
    refine uses_orRaise (uses_act ⟨fun x hx => ?_, fun tx htx => by cases htx⟩)
    simpa [Act.touches] using hx.symm

end ActsOn

/-! ### The rows a query returns -/

theorem subperm_selectRows (q : Query) (rows : List Row) :
    (selectRows q rows).Subperm (rows.filter q.selects) := by
  cases q
  case list status network limit =>
    have hperm := (rows.filter (Query.selects (.list status network limit))).perm_insertionSort
      fun a b => b.createdAt ≤ a.createdAt
    unfold selectRows limitRows
    dsimp only
    split
    · exact hperm.subperm
    · exact (List.take_sublist _ _).subperm.trans hperm.subperm
  case byId id => exact (List.take_sublist _ _).subperm
  all_goals exact List.Subperm.refl _

theorem mem_selectRows {q : Query} {rows : List Row} {r : Row}
    (h : r ∈ selectRows q rows) : r ∈ rows ∧ q.selects r = true :=
  List.mem_filter.1 ((subperm_selectRows q rows).subset h)

/-- A query returns a row at most as often as it is stored. -/
theorem count_ids_selectRows (q : Query) (rows : List Row) (x : String) :
    ((selectRows q rows).map (·.id)).count x ≤ (rowsOf x rows).length := by
  have hstored : List.Subperm (selectRows q rows) rows :=
    (subperm_selectRows q rows).trans List.filter_sublist.subperm
  calc ((selectRows q rows).map (·.id)).count x
      = (selectRows q rows).countP fun r => r.id == x := by
        rw [List.count, List.countP_map]
        rfl
    _ ≤ rows.countP fun r => r.id == x := hstored.countP_le _
    _ = (rowsOf x rows).length := by
        rw [List.countP_eq_length_filter]
        rfl

/-- The answer of a query consists of rows of the table that it selects. -/
def Query.Answers (env : Env) (q : Query) (rows : List Row) (txs : List BroadcastTx) : Prop :=
  ∀ tx ∈ txs, ∃ now, ∃ r ∈ rows, q.selects r = true ∧ ReadsAs env now r tx

theorem answers_of_mapM {env : Env} {q : Query} {rows : List Row} {txs : List BroadcastTx}
    {now : DateTime} (h : (selectRows q rows).mapM (mapBroadcastRow env now) = .ok txs) :
    q.Answers env rows txs := by
  intro tx htx
  obtain ⟨r, hr, hmap⟩ := mem_of_mapM_eq_ok h tx htx
  obtain ⟨hmem, hsel⟩ := mem_selectRows hr
  exact ⟨now, r, hmem, hsel, mapBroadcastRow_spec hmap⟩

section Select
variable {env : Env} {assumed required : World → Act → Prop} {I : World → Prop}

/-- A query keeps what does not depend on the count of actions, and its answer can be used. -/
theorem gives_select_read {P : List BroadcastTx → Prop} (context : String) {q : Query}
    (hI : ∀ w, I w → required w (.select q) ∧ I w.ticked)
    (hP : ∀ w, I w → ∀ now txs,
      (selectRows q w.pool).mapM (mapBroadcastRow env now) = .ok txs → P txs) :
    Prog.Gives ((World.exec env).contract assumed required) I P
      (orFail context (perform (.select q))) := by
  intro w hw
  refine (wp_orFail _ _ _ _).2 (Prog.wp_perform_handler _ _ _ w fun _ => ⟨(hI w hw).1, ?_⟩)
  rcases exec_select env w q with ⟨e, hexec⟩ | ⟨txs, hmap, hexec⟩
  · rw [hexec]
    exact ⟨(hI w hw).2, fun _ h => by cases h⟩
  · rw [hexec]
    refine ⟨(hI w hw).2, fun l hl => ?_⟩
    cases hl
    exact hP w hw _ txs hmap

theorem gives_select {P : List BroadcastTx → Prop} (context : String) {q : Query}
    (hI : ∀ w, I w → required w (.select q) ∧ I w.ticked)
    (hP : ∀ w, I w → ∀ txs, q.Answers env w.pool txs → P txs) :
    Prog.Gives ((World.exec env).contract assumed required) I P
      (orFail context (perform (.select q))) :=
  gives_select_read context hI fun w hw _ txs hmap => hP w hw txs (answers_of_mapM hmap)

/-- `get_broadcast_tx_by_id` returns a row with that id. -/
theorem gives_getBroadcastTxById {P : BroadcastTx → Prop} {id : String}
    (hI : ∀ w, I w → required w (.select (.byId id)) ∧ I w.ticked)
    (hP : ∀ w, I w → ∀ tx now, ∀ r ∈ w.pool, r.id = id → ReadsAs env now r tx → P tx) :
    Prog.Gives ((World.exec env).contract assumed required) I P (getBroadcastTxById id) := by
  refine Prog.gives_bind (gives_select (P := fun txs => ∀ tx ∈ txs, P tx) _ hI ?_)
    fun txs htxs => ?_
  · intro w hw txs hanswers tx htx
    obtain ⟨now, r, hr, hsel, hreads⟩ := hanswers tx htx
    exact hP w hw tx now r hr (by simpa [Query.selects] using hsel) hreads
  · cases txs with
    | nil => exact Prog.gives_fail _
    | cons tx txs => exact Prog.gives_ret (htxs tx (List.mem_cons_self ..))

end Select

end BroadcastPool
