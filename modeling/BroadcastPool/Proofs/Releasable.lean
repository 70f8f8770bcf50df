import BroadcastPool.Proofs.Serving
import BroadcastPool.Proofs.Db.Selection

/-!
# `BroadcastPool.Proofs.Releasable`: rows that the scheduler can release

A row is releasable if the scheduler can bring it to a hand-over without a user: it is due at
some height and time (`Row.DueSomeday`), or the block-height monitor or the tick selects it at
some height and time and it is due some day after they marked it. `releasable_pending_iff` says
which pending rows are releasable, and `dueSomeday_marked` that a marked row is.
-/

set_option autoImplicit false

namespace BroadcastPool

open Effects

/-- `get_due_transactions` selects the row, and `is_tx_due_for_broadcast` returns true for it on
every daemon that reaches a chain of this height at this time. -/
def Row.DueAt (env : Env) (height : Nat) (now : DateTime) (r : Row) : Prop :=
  (Query.due r.network).selects r = true ∧
    ∃ tx, mapBroadcastRow env now r = .ok tx ∧
      ∀ pool network rpc indexer w, Serving pool network rpc indexer height w →
        ((isTxDueForBroadcast .daemon tx now).run (World.exec (env.serving now height)) w).1 =
          .ok true

/-- The row is due at some height and time. -/
def Row.DueSomeday (env : Env) (r : Row) : Prop := ∃ height now, r.DueAt env height now

/-- The row as `mark_due` leaves it. -/
def Row.marked (env : Env) (now : String) (r : Row) : Row := (Update.due r.id now).set env r

/-- The block-height monitor marks the row. -/
def Row.ReachedAt (env : Env) (height : Nat) (now : DateTime) (r : Row) : Prop :=
  (Query.pendingByBlockHeight r.network).selects r = true ∧
    ∃ tx, mapBroadcastRow env now r = .ok tx ∧ isBlockReached height tx = true

/-- The tick marks the row. -/
def Row.TickedAt (env : Env) (now : DateTime) (r : Row) : Prop :=
  (Query.pendingByScheduledTime r.network).selects r = true ∧ r.TimeReached env now now ∧
    ∃ tx, mapBroadcastRow env now r = .ok tx ∧ isTickMode tx = true

/-- The scheduler can release the row without a user. -/
def Row.Releasable (env : Env) (r : Row) : Prop :=
  r.DueSomeday env ∨
    ∃ height now, (r.ReachedAt env height now ∨ r.TickedAt env now) ∧
      (r.marked env (env.toRfc3339 now)).DueSomeday env

section
variable {env : Env} {r : Row}

/-- A scheduled row that can be read is due some day: at a height that its locktime has reached
and a time after its scheduled time. -/
theorem dueSomeday_of_scheduled {text : String} (hread : r.Readable)
    (hstatus : r.status = "scheduled") (htime : r.scheduledTime = some text)
    (hdefer : r.deferUntil = none) : r.DueSomeday env := by
  obtain ⟨n, hn⟩ := hread.nlocktime
  -- A text that does not parse is read as the present instant, which is not later than itself.
  obtain ⟨now, hnow⟩ : ∃ now, parseDatetime env now text ≤ now := by
    cases hparse : env.parseRfc3339 text with
    | some t => exact ⟨t, by simp [parseDatetime, hparse]⟩
    | none => exact ⟨0, by simp [parseDatetime, hparse]⟩
  obtain ⟨tx, htx⟩ := (readable_iff now).1 hread
  have hreads := mapBroadcastRow_spec htx
  refine ⟨n, now, ?_, tx, htx, fun pool network rpc indexer w hw => ?_⟩
  · simp [Query.selects, hstatus]
  · obtain ⟨hstanding, hup⟩ := hw.steady env now
    have hreturns : Prog.Returns (servedContract (env.serving now n) fun _ _ => True)
        (Steady (env.serving now n) pool network rpc indexer w.daemon.asksIndexer n) _
        (isTxDueForBroadcast .daemon tx now) :=
      returns_isTxDueForBroadcast (standsStill_serving env now n rpc _) hup tx
    obtain ⟨-, due, hrun, hdue⟩ :=
      (Prog.run_trace_of_wp _ _ w (hreturns w hstanding) fun _ _ => trivial).1
    rw [hrun, (hdue ?_).2 ⟨?_, ?_⟩]
    · rw [hreads.status, hstatus]
      rfl
    · unfold ReleaseReached
      rw [hreads.deferUntil, hdefer, hreads.scheduledTime, htime]
      exact ⟨_, rfl, hnow⟩
    · have hlock := hreads.nlocktime.1
      rw [hn] at hlock
      have hle : tx.nlocktime.getD 0 ≤ n := by
        cases htxn : tx.nlocktime with
        | none => exact Nat.zero_le n
        | some m =>
          rw [htxn] at hlock
          have : (n : Int) = m := Option.some.inj hlock
          show m ≤ n
          omega
      unfold gateOpen
      repeat' split
      all_goals first | rfl | exact decide_eq_true hle

/-- A row that was marked is due some day. -/
theorem dueSomeday_marked {now : String} (hread : r.Readable) (hdefer : r.deferUntil = none) :
    (r.marked env now).DueSomeday env :=
  dueSomeday_of_scheduled
    ⟨hread.nlocktime, hread.blockHeight, hread.targetFeeRate, hread.utxoCount,
      hread.totalValueBtc, hread.retryCount⟩ rfl rfl hdefer

/-- A pending row is releasable exactly if it waits for a block that can be reached, or if the
tick looks at its mode and it has a scheduled time. -/
theorem releasable_pending_iff (hread : r.Readable) (hstatus : r.status = "pending")
    (hdefer : r.deferUntil = none) (htrigger : r.scheduleTrigger = some "datetime") :
    r.Releasable env ↔
      (r.broadcastMode = some "by_block" ∧ ∃ n, r.nlocktime = some n ∧ 0 < n ∧ n < 500000000) ∨
        (r.broadcastMode = some "scheduled" ∨ r.broadcastMode = some "manual" ∨
          r.broadcastMode = some "imported") ∧ r.scheduledTime.isSome := by
  constructor
  · -- A row that a query has selected meets its `WHERE` clause, which names mode, lock and time.
    rintro (⟨height, now, hdue, -⟩ | ⟨height, now, hsel | hsel, -⟩)
    · simp [Query.selects, hstatus] at hdue
    · left
      have hquery := hsel.1
      simp only [Query.selects, Bool.and_eq_true, decide_eq_true_eq] at hquery
      obtain ⟨⟨⟨-, hmode⟩, hlock⟩, -⟩ := hquery
      refine ⟨hmode, ?_⟩
      cases hn : r.nlocktime with
      | none =>
        rw [hn] at hlock
        cases hlock
      | some n =>
        rw [hn] at hlock
        exact ⟨n, rfl, by simpa using hlock⟩
    · right
      have hquery := hsel.1
      simp only [Query.selects, Bool.and_eq_true, Bool.or_eq_true, decide_eq_true_eq] at hquery
      obtain ⟨⟨⟨-, hmode⟩, htime⟩, -⟩ := hquery
      refine ⟨?_, htime⟩
      rcases hmode with (h | h) | h
      · exact Or.inl h
      · exact Or.inr (Or.inl h)
      · exact Or.inr (Or.inr h)
  · rintro (⟨hmode, n, hn, hpos, hlt⟩ | ⟨hmode, htime⟩)
    · -- Waiting for a block: the tick at the height of the lock finds it.
      obtain ⟨tx, htx⟩ : ∃ tx, mapBroadcastRow env 0 r = .ok tx := (readable_iff 0).1 hread
      have hreads := mapBroadcastRow_spec htx
      have hlock := hreads.nlocktime.1
      refine Or.inr ⟨n.toNat, 0, Or.inl ⟨?_, tx, htx, ?_⟩, dueSomeday_marked hread hdefer⟩
      · simp [Query.selects, hstatus, hmode, hn, hpos, hlt]
      · rw [hn] at hlock
        cases htxn : tx.nlocktime with
        | none =>
          rw [htxn] at hlock
          cases hlock
        | some m =>
          rw [htxn] at hlock
          have hm : n = (m : Int) := Option.some.inj hlock
          unfold isBlockReached
          rw [hreads.broadcastMode, hmode, htxn]
          simp only [decide_true, Bool.true_and, Bool.and_eq_true, decide_eq_true_eq]
          omega
    · -- With a scheduled time: the tick at that time does, and a text that cannot be read counts as
      -- now.
      obtain ⟨text, htext⟩ := Option.isSome_iff_exists.1 htime
      obtain ⟨now, hnow⟩ : ∃ now, parseDatetime env now text ≤ now := by
        cases hparse : env.parseRfc3339 text with
        | some t => exact ⟨t, by simp [parseDatetime, hparse]⟩
        | none => exact ⟨0, by simp [parseDatetime, hparse]⟩
      obtain ⟨tx, htx⟩ : ∃ tx, mapBroadcastRow env now r = .ok tx := (readable_iff now).1 hread
      have hreads := mapBroadcastRow_spec htx
      refine Or.inr ⟨0, now, Or.inr ⟨?_, ⟨text, htext, hnow⟩, tx, htx, ?_⟩,
        dueSomeday_marked hread hdefer⟩
      · rcases hmode with h | h | h <;> simp [Query.selects, hstatus, h, htext]
      · unfold isTickMode isUserScheduledMode
        rw [hreads.broadcastMode, hreads.scheduleTrigger, htrigger]
        rcases hmode with h | h | h <;> rw [h] <;> decide

end

end BroadcastPool
