import BroadcastPool.Proofs.Db.Frame

/-!
# `BroadcastPool.Proofs.Db.Selection`: which rows a query returns

A query reads every row it selects, and one row that cannot be read makes it fail as a whole.
`chosen_select` and `chosen_pendingByScheduledTime` say when a query of the scheduler returns a
row: the database answers, every selected row can be read, and the row is selected.
-/

set_option autoImplicit false

namespace BroadcastPool

open Effects

/-- The query returns a row with this id. -/
def Chosen (env : Env) (w : World) (query : M (List BroadcastTx)) (id : String) : Prop :=
  ∃ txs, (query.run (World.exec env) w).1 = .ok txs ∧ ∃ tx ∈ txs, tx.id = id

section
variable {env : Env} {w : World}

/-- Rows that can all be read are read. -/
theorem exists_mapM_of_readable (now : DateTime) {rows : List Row}
    (h : ∀ r ∈ rows, r.Readable) : ∃ txs, rows.mapM (mapBroadcastRow env now) = .ok txs :=
  exists_mapM_eq_ok fun r hr => (readable_iff now).1 (h r hr)

/-- A query answers when the database does and every selected row can be read. -/
theorem exec_select_of_ok {q : Query} {txs : List BroadcastTx}
    (hfault : env.dbFault w.tick = none)
    (hmap : (selectRows q w.pool).mapM (mapBroadcastRow env (env.clock w.tick)) = .ok txs) :
    World.exec env (.select q) w = (.ok txs, w.ticked) := by
  simp only [World.exec, World.effect, World.statement, hfault, hmap]
  rfl

theorem exec_select_ok_iff {q : Query} {txs : List BroadcastTx} :
    (World.exec env (.select q) w).1 = .ok txs ↔
      env.dbFault w.tick = none ∧
        (selectRows q w.pool).mapM (mapBroadcastRow env (env.clock w.tick)) = .ok txs := by
  constructor
  · intro h
    have hfault : env.dbFault w.tick = none := by
      cases hf : env.dbFault w.tick with
      | none => rfl
      | some e =>
        simp only [World.exec, World.effect, World.statement, hf] at h
        cases h
    rcases exec_select env w q with ⟨e, hexec⟩ | ⟨txs', hmap, hexec⟩
    · rw [hexec] at h
      cases h
    · rw [hexec] at h
      cases h
      exact ⟨hfault, hmap⟩
  · rintro ⟨hfault, hmap⟩
    rw [exec_select_of_ok hfault hmap]

/-- What a query returns, in terms of the selected rows. -/
theorem exec_select_mem_iff {q : Query} {P : BroadcastTx → Prop} :
    (∃ txs, (World.exec env (.select q) w).1 = .ok txs ∧ ∃ tx ∈ txs, P tx) ↔
      env.dbFault w.tick = none ∧ (∀ r ∈ selectRows q w.pool, r.Readable) ∧
        ∃ r ∈ selectRows q w.pool, ∃ tx,
          mapBroadcastRow env (env.clock w.tick) r = .ok tx ∧ P tx := by
  constructor
  · rintro ⟨txs, hexec, tx, htx, hP⟩
    obtain ⟨hfault, hmap⟩ := exec_select_ok_iff.1 hexec
    have hread : ∀ r ∈ selectRows q w.pool, r.Readable := by
      intro r hr
      obtain ⟨y, -, hy⟩ := exists_mem_of_mapM_eq_ok hmap r hr
      exact (readable_iff _).2 ⟨y, hy⟩
    obtain ⟨r, hr, hf⟩ := mem_of_mapM_eq_ok hmap tx htx
    exact ⟨hfault, hread, r, hr, tx, hf, hP⟩
  · rintro ⟨hfault, hread, r, hr, tx, hf, hP⟩
    obtain ⟨txs, hmap⟩ := exists_mapM_of_readable (env.clock w.tick) hread
    obtain ⟨y, hy, hfy⟩ := exists_mem_of_mapM_eq_ok hmap r hr
    rw [hf] at hfy
    cases hfy
    exact ⟨txs, exec_select_ok_iff.2 ⟨hfault, hmap⟩, tx, hy, hP⟩

/-- A query with a context is the query, with another error text. -/
theorem run_orFail_select (context : String) (q : Query) {txs : List BroadcastTx} :
    ((orFail context (perform (.select q))).run (World.exec env) w).1 = .ok txs ↔
      (World.exec env (.select q) w).1 = .ok txs := by
  rw [run_orFail]
  unfold perform
  rw [Prog.run_perform]
  cases (World.exec env (.select q) w).1 with
  | ok a => simp
  | error e => simp

/-- When a query returns a row. -/
theorem chosen_select (context : String) (q : Query) (id : String) :
    Chosen env w (orFail context (perform (.select q))) id ↔
      env.dbFault w.tick = none ∧ (∀ r ∈ selectRows q w.pool, r.Readable) ∧
        ∃ r ∈ selectRows q w.pool, r.id = id := by
  unfold Chosen
  simp only [run_orFail_select]
  rw [exec_select_mem_iff]
  refine and_congr_right fun _ => and_congr_right fun hread => ?_
  constructor
  · rintro ⟨r, hr, tx, hf, rfl⟩
    exact ⟨r, hr, (mapBroadcastRow_spec hf).id.symm⟩
  · rintro ⟨r, hr, rfl⟩
    obtain ⟨tx, hf⟩ := (readable_iff (env.clock w.tick)).1 (hread r hr)
    exact ⟨r, hr, tx, hf, (mapBroadcastRow_spec hf).id⟩

/-- The row has a scheduled time, and it is not after `now`. The row is read at `readAt`. -/
def Row.TimeReached (env : Env) (readAt now : DateTime) (r : Row) : Prop :=
  ∃ text, r.scheduledTime = some text ∧ parseDatetime env readAt text ≤ now

/-- When `get_pending_by_scheduled_time` returns a row. -/
theorem chosen_pendingByScheduledTime (network id : String) :
    Chosen env w (getPendingByScheduledTime network) id ↔
      env.dbFault (w.tick + 1) = none ∧
        (∀ r ∈ selectRows (.pendingByScheduledTime network) w.pool, r.Readable) ∧
          ∃ r ∈ selectRows (.pendingByScheduledTime network) w.pool, r.id = id ∧
            r.TimeReached env (env.clock (w.tick + 1)) (env.clock w.tick) := by
  have hrun : ∀ txs, ((getPendingByScheduledTime network).run (World.exec env) w).1 = .ok txs ↔
      ∃ all, (World.exec env (.select (.pendingByScheduledTime network)) w.ticked).1 = .ok all ∧
        txs = all.filter fun tx => tx.scheduledTime.any (· ≤ env.clock w.tick) := by
    intro txs
    unfold getPendingByScheduledTime perform
    simp only [Prog.bind_eq, Prog.run_bind, Prog.run_perform, run_orFail]
    have hnow : World.exec env .now w = (env.clock w.tick, w.ticked) := rfl
    rw [hnow]
    cases (World.exec env (.select (.pendingByScheduledTime network)) w.ticked).1 with
    | ok all =>
      simp only [Prog.pure_eq_ret, Prog.run_ret, Except.ok.injEq, exists_eq_left']
      exact eq_comm
    | error e => simp
  have hchosen : Chosen env w (getPendingByScheduledTime network) id ↔
      ∃ all, (World.exec env (.select (.pendingByScheduledTime network)) w.ticked).1 = .ok all ∧
        ∃ tx ∈ all, tx.id = id ∧ tx.scheduledTime.any (· ≤ env.clock w.tick) = true := by
    unfold Chosen
    simp only [hrun]
    constructor
    · rintro ⟨_, ⟨all, hall, rfl⟩, tx, htx, hid⟩
      obtain ⟨hmem, hdue⟩ := List.mem_filter.1 htx
      exact ⟨all, hall, tx, hmem, hid, hdue⟩
    · rintro ⟨all, hall, tx, hmem, hid, hdue⟩
      exact ⟨_, ⟨all, hall, rfl⟩, tx, List.mem_filter.2 ⟨hmem, hdue⟩, hid⟩
  rw [hchosen, exec_select_mem_iff]
  refine and_congr_right fun _ => and_congr_right fun hread => ?_
  constructor
  · rintro ⟨r, hr, tx, hf, rfl, hdue⟩
    have hreads := mapBroadcastRow_spec hf
    refine ⟨r, hr, hreads.id.symm, ?_⟩
    rw [hreads.scheduledTime, Option.any_map, Option.any_eq_true] at hdue
    obtain ⟨text, htext, hle⟩ := hdue
    exact ⟨text, htext, of_decide_eq_true hle⟩
  · rintro ⟨r, hr, rfl, text, htext, hle⟩
    obtain ⟨tx, hf⟩ := (readable_iff (env.clock (w.tick + 1))).1 (hread r hr)
    have hreads := mapBroadcastRow_spec hf
    refine ⟨r, hr, tx, hf, hreads.id, ?_⟩
    rw [hreads.scheduledTime, htext]
    simpa using hle

end

end BroadcastPool
