import BroadcastPool.Lib.Calendar
import BroadcastPool.Proofs.Db.Selection
import BroadcastPool.Sample

/-!
# `BroadcastPool.Proofs.TimeOrder`: stored texts compare like instants

The table stores instants as texts, and two statements compare such a text with a cutoff:
`get_pending_rebroadcast` and `select_terminal_older_than`. `Env.PrintsRfc3339` says how `chrono` is
known to print an instant. The order of the printed texts is the order of the instants
(`compare_toRfc3339`), so both statements return the rows whose instant is before the cutoff
(`text_order_is_time_order`).
-/

set_option autoImplicit false

namespace BroadcastPool

open Effects Calendar

/-! ### The printed instants -/

/-- The start of 1970, from which instants are counted. -/
def epochNanos : Nat := yearStart 1970

/-- An instant in the years 0 to 9999. -/
def InYears (t : DateTime) : Prop :=
  0 ≤ t + epochNanos ∧ t + epochNanos < yearStart 10000

/-- The calendar fields of an instant in these years. -/
def momentOf (t : DateTime) : Moment := ofNanos (t + epochNanos).toNat

/-- `to_rfc3339` prints the calendar fields, and the shortest of the four fractions. -/
def Env.PrintsRfc3339 (env : Env) : Prop :=
  ∀ t, InYears t → env.toRfc3339 t = (momentOf t).rfc3339

section
variable {env : Env} {t t' : DateTime}

theorem toRfc3339_lt_iff (hprints : env.PrintsRfc3339) (ht : InYears t) (ht' : InYears t') :
    env.toRfc3339 t < env.toRfc3339 t' ↔ t < t' := by
  rw [hprints t ht, hprints t' ht']
  unfold momentOf
  rw [rfc3339_ofNanos_lt_iff ((Int.toNat_lt ht.1).2 ht.2) ((Int.toNat_lt ht'.1).2 ht'.2),
    ← Int.ofNat_lt, Int.toNat_of_nonneg ht.1, Int.toNat_of_nonneg ht'.1]
  exact Int.add_lt_add_iff_right _

theorem toRfc3339_eq_iff (hprints : env.PrintsRfc3339) (ht : InYears t) (ht' : InYears t') :
    env.toRfc3339 t = env.toRfc3339 t' ↔ t = t' := by
  refine ⟨fun htext => ?_, fun h => h ▸ rfl⟩
  by_contra hne
  rcases Int.lt_or_gt_of_ne hne with h | h
  · exact absurd htext (String.ne_of_lt ((toRfc3339_lt_iff hprints ht ht').2 h))
  · exact absurd htext.symm (String.ne_of_lt ((toRfc3339_lt_iff hprints ht' ht).2 h))

/-- The comparison of the texts has the result of the comparison of the instants. -/
theorem compare_toRfc3339 (hprints : env.PrintsRfc3339) (ht : InYears t) (ht' : InYears t') :
    compare (env.toRfc3339 t) (env.toRfc3339 t') = compare t t' := by
  show compareOfLessAndEq _ _ = compareOfLessAndEq t t'
  unfold compareOfLessAndEq
  simp only [toRfc3339_lt_iff hprints ht ht', toRfc3339_eq_iff hprints ht ht']

end

/-! ### The rows that are selected -/

/-- A column holds the text of an instant of these years, or NULL. -/
def Stores (env : Env) (column : Option String) (time : Option DateTime) : Prop :=
  column = time.map env.toRfc3339 ∧ ∀ t ∈ time, InYears t

/-- The row was sent to the network and is not confirmed, and it was sent before the cutoff if the
table knows when. -/
def sentBefore (sentAt : Row → Option DateTime) (cutoff : DateTime) (network : String) (r : Row) :
    Bool :=
  r.status = "broadcast" && r.confirmedAt.isNone && (sentAt r).all (· < cutoff) &&
    r.network = network

/-- The row is terminal, and was last changed before the cutoff. -/
def terminalBefore (changedAt : Row → DateTime) (cutoff : DateTime) (network : String) (r : Row) :
    Bool :=
  (r.status = "confirmed" || r.status = "failed" || r.status = "broadcast") &&
    changedAt r < cutoff && r.network = network

section
variable {env : Env} {w : World} {cutoff : DateTime} {rows : List Row} {network : String}
  {sentAt : Row → Option DateTime} {changedAt : Row → DateTime} {txs : List BroadcastTx}

theorem selectRows_pendingRebroadcast (hprints : env.PrintsRfc3339) (hcutoff : InYears cutoff)
    (hstored : ∀ r ∈ rows, Stores env r.broadcastAt (sentAt r)) :
    selectRows (.pendingRebroadcast (env.toRfc3339 cutoff) network) rows =
      rows.filter (sentBefore sentAt cutoff network) := by
  refine List.filter_congr fun r hr => ?_
  obtain ⟨hcolumn, htime⟩ := hstored r hr
  simp only [Query.selects, sentBefore]
  rw [hcolumn]
  cases htimes : sentAt r with
  | none => rfl
  | some t =>
    have hlt := toRfc3339_lt_iff hprints (htime t htimes) hcutoff
    simp only [Option.map_some, Option.all_some, hlt]

theorem selectRows_terminalOlderThan (hprints : env.PrintsRfc3339) (hcutoff : InYears cutoff)
    (hstored : ∀ r ∈ rows, Stores env (some r.updatedAt) (some (changedAt r))) :
    selectRows (.terminalOlderThan network (env.toRfc3339 cutoff)) rows =
      rows.filter (terminalBefore changedAt cutoff network) := by
  refine List.filter_congr fun r hr => ?_
  obtain ⟨hcolumn, htime⟩ := hstored r hr
  have hlt := toRfc3339_lt_iff hprints (htime _ rfl) hcutoff
  rw [← Option.some.inj hcolumn] at hlt
  simp only [Query.selects, terminalBefore, hlt]

/-- `select_terminal_older_than` returns the terminal rows that were changed before the cutoff. -/
theorem run_selectTerminalOlderThan (hprints : env.PrintsRfc3339) (hcutoff : InYears cutoff)
    (hstored : ∀ r ∈ w.pool, Stores env (some r.updatedAt) (some (changedAt r))) :
    ((selectTerminalOlderThan network (env.toRfc3339 cutoff)).run (World.exec env) w).1 = .ok txs ↔
      env.dbFault w.tick = none ∧ (w.pool.filter (terminalBefore changedAt cutoff network)).mapM
        (mapBroadcastRow env (env.clock w.tick)) = .ok txs := by
  unfold selectTerminalOlderThan
  rw [run_orFail_select, exec_select_ok_iff, selectRows_terminalOlderThan hprints hcutoff hstored]

/-- `get_pending_rebroadcast` returns the rows that were sent before the cutoff, or at no known
time. The cutoff is some minutes before the first reading of the clock. -/
theorem run_getPendingRebroadcast (hprints : env.PrintsRfc3339) {minutes : Int}
    (hcutoff : InYears (env.clock w.tick - minutes * 60 * 1000000000))
    (hstored : ∀ r ∈ w.pool, Stores env r.broadcastAt (sentAt r)) :
    ((getPendingRebroadcast env minutes network).run (World.exec env) w).1 = .ok txs ↔
      env.dbFault (w.tick + 1) = none ∧
        (w.pool.filter (sentBefore sentAt (env.clock w.tick - minutes * 60 * 1000000000)
          network)).mapM (mapBroadcastRow env (env.clock (w.tick + 1))) = .ok txs := by
  have hnow : World.exec env .now w = (env.clock w.tick, w.ticked) := rfl
  unfold getPendingRebroadcast
  rw [Prog.bind_eq, Prog.run_bind, show (perform Act.now).run (World.exec env) w =
    (.ok (env.clock w.tick), w.ticked) from congrArg (fun r => (Except.ok r.1, r.2)) hnow]
  dsimp only
  rw [run_orFail_select, exec_select_ok_iff, World.ticked_pool,
    selectRows_pendingRebroadcast hprints hcutoff hstored]
  rfl

/-- Text order is time order, and the two statements with a cutoff select by the instants. -/
theorem text_order_is_time_order (hprints : env.PrintsRfc3339) :
    (∀ t t', InYears t → InYears t' →
      compare (env.toRfc3339 t) (env.toRfc3339 t') = compare t t') ∧
    (∀ (w : World) (network : String) (minutes : Int) (sentAt : Row → Option DateTime) txs,
      InYears (env.clock w.tick - minutes * 60 * 1000000000) →
      (∀ r ∈ w.pool, Stores env r.broadcastAt (sentAt r)) →
      (((getPendingRebroadcast env minutes network).run (World.exec env) w).1 = .ok txs ↔
        env.dbFault (w.tick + 1) = none ∧
          (w.pool.filter (sentBefore sentAt (env.clock w.tick - minutes * 60 * 1000000000)
            network)).mapM (mapBroadcastRow env (env.clock (w.tick + 1))) = .ok txs)) ∧
    ∀ (w : World) (network : String) (cutoff : DateTime) (changedAt : Row → DateTime) txs,
      InYears cutoff →
      (∀ r ∈ w.pool, Stores env (some r.updatedAt) (some (changedAt r))) →
      (((selectTerminalOlderThan network (env.toRfc3339 cutoff)).run (World.exec env) w).1 =
          .ok txs ↔
        env.dbFault w.tick = none ∧ (w.pool.filter (terminalBefore changedAt cutoff network)).mapM
          (mapBroadcastRow env (env.clock w.tick)) = .ok txs) :=
  ⟨fun _ _ => compare_toRfc3339 hprints,
    fun _ _ _ _ _ => run_getPendingRebroadcast hprints,
    fun _ _ _ _ _ => run_selectTerminalOlderThan hprints⟩

end

/-- A world that prints instants as the library does. -/
def printingEnv : Env := { sampleEnv with toRfc3339 := fun t => (momentOf t).rfc3339 }

example : printingEnv.toRfc3339 1772323199120000000 = "2026-02-28T23:59:59.120+00:00" := by
  decide +kernel

/-- A row that was sent, and last changed, at this instant. -/
def postedRow (id : String) (t : DateTime) : Row :=
  resealed printingEnv { sampleRow with
    id, status := "broadcast", broadcastAt := some (printingEnv.toRfc3339 t)
    updatedAt := printingEnv.toRfc3339 t }

/-- One row from two minutes ago, and one that was sent just now. -/
def sentWorld : World :=
  { sampleWorld with pool := [postedRow "id0" (-120000000000), postedRow "id1" (-1)] }

/-- The instants of the two rows. -/
def sentWhen (r : Row) : DateTime := if r.id = "id0" then -120000000000 else -1

theorem stores_sentWorld : ∀ r ∈ sentWorld.pool,
    Stores printingEnv r.broadcastAt (some (sentWhen r)) ∧
      Stores printingEnv (some r.updatedAt) (some (sentWhen r)) := by
  intro r hr
  rcases List.mem_cons.1 hr with rfl | hr
  · refine ⟨⟨rfl, fun t ht => ?_⟩, rfl, fun t ht => ?_⟩ <;> cases ht <;>
      exact ⟨by decide, by decide⟩
  · cases List.mem_singleton.1 hr
    refine ⟨⟨rfl, fun t ht => ?_⟩, rfl, fun t ht => ?_⟩ <;> cases ht <;>
      exact ⟨by decide, by decide⟩

theorem text_order_is_time_order_sample :
    compare (printingEnv.toRfc3339 1500000000) (printingEnv.toRfc3339 1000000000) = .gt ∧
      (∃ txs, ((getPendingRebroadcast printingEnv 1 "testnet4").run (World.exec printingEnv)
        sentWorld).1 = .ok txs ∧ txs.map (·.id) = ["id0"]) ∧
      ∃ txs, ((selectTerminalOlderThan "testnet4" (printingEnv.toRfc3339 (-60000000000))).run
        (World.exec printingEnv) sentWorld).1 = .ok txs ∧ txs.map (·.id) = ["id0"] := by
  obtain ⟨hcompare, hpending, hterminal⟩ := @text_order_is_time_order printingEnv fun _ _ => rfl
  refine ⟨?_, ?_, ?_⟩
  · rw [hcompare _ _ ⟨by decide, by decide⟩ ⟨by decide, by decide⟩]
    decide
  · exact ⟨_, (hpending sentWorld "testnet4" 1 (some ∘ sentWhen) _ ⟨by decide, by decide⟩
      fun r hr => (stores_sentWorld r hr).1).2 ⟨rfl, rfl⟩, rfl⟩
  · exact ⟨_, (hterminal sentWorld "testnet4" (-60000000000) sentWhen _ ⟨by decide, by decide⟩
      fun r hr => (stores_sentWorld r hr).2).2 ⟨rfl, rfl⟩, rfl⟩

end BroadcastPool
