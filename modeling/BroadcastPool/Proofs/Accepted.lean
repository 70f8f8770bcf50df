import BroadcastPool.Proofs.Content
import BroadcastPool.Sample
import Mathlib.Data.List.DropRight

/-!
# `BroadcastPool.Proofs.Accepted`: transactions that a backend has accepted

A backend accepts a transaction in one step, and the row learns of it in a later one. In between,
and for every other row with the same transaction, the pool still takes it for one to send.
`acceptedTxid` is the acceptance, as a fact about the backends.

What the code does on its own is `onPaths_rejects`: the tick stores `Failed` only where the backends
have said no for good to its last hand-over, with a text that does not ask to wait. `FailsCleanly`
is the condition on the rest. A backend accepts a transaction while no row with it is `Failed`. The
backends do not say no for good to a transaction that one of them has accepted, and none accepts it
between the tick's hand-over and the `UPDATE`.

`accepted_never_failed` shows that no row with an accepted transaction is then ever `Failed`.
`resubmitted_row_fails` is a run where the database fails at `mark_broadcast`, and the next tick
hands the transaction over again.
-/

set_option autoImplicit false

namespace BroadcastPool

open Effects

/-- The txid of the transaction that a backend accepts in a step. -/
def acceptedTxid (env : Env) (e : Performed Act Act.Res World) : Option String :=
  match e.act with
  | .indexerBroadcast tx =>
      match (World.exec env (.indexerBroadcast tx) e.state).1 with
      | .ok _ => (computeTxid env tx.txHex).toOption
      | .error _ => none
  | .rpcBroadcast tx =>
      match (World.exec env (.rpcBroadcast tx) e.state).1 with
      | .ok _ => (computeTxid env tx.txHex).toOption
      | .error _ => none
  | _ => none

/-- The txids that backends have accepted. -/
def acceptedIn (env : Env) (ds : List WorkDeed) : List String :=
  ds.filterMap fun d => acceptedTxid env d.toPerformed

/-! ### The condition -/

/-- The tick turns to a row with a question for the safe-mode flag, and then may hand it over. -/
def Act.opensAttempt : Act → Bool
  | isSafeMode _ => true
  | a => a.handsOver.isSome

/-- The backends have said no for good: one of them has rejected the row with a text that does not
ask to wait, or none was asked. -/
def saysNo : Seen Act Act.Res → Bool
  | ⟨.indexerBroadcast _, .error e⟩ | ⟨.rpcBroadcast _, .error e⟩ => !isRetriableBroadcastError e
  | ⟨.isSafeMode _, _⟩ => true
  | _ => false

/-- The deed opens an attempt of the job with this number. -/
def opensAttemptOf (number : Nat) (d : WorkDeed) : Bool :=
  d.number = number && d.act.opensAttempt

/-- The deeds up to the last one that opens an attempt of the job. -/
def untilAttempt (number : Nat) (before : List WorkDeed) : List WorkDeed :=
  before.rdropWhile fun d => !opensAttemptOf number d

/-- The deeds after it. -/
def sinceAttempt (number : Nat) (before : List WorkDeed) : List WorkDeed :=
  before.rtakeWhile fun d => !opensAttemptOf number d

/-- The txids of the transactions that the tick has read under the id of the row, if the deed stores
a rejection on it. -/
def rejectedTxids (env : Env) (d : WorkDeed) : List String :=
  match d.act with
  | .update (.txStatus id .failed _ _) => (readsOf env d.seen).filterMap fun k =>
      if k.1 = id then (computeTxid env k.2).toOption else none
  | _ => []

/-- The condition on one step. -/
structure FailsCleanly (env : Env) (before : List WorkDeed) (d : WorkDeed) : Prop where
  /-- When a backend accepts a transaction, no row with it is stored as `Failed`. -/
  accepts : ∀ t ∈ acceptedTxid env d.toPerformed, ∀ r ∈ d.state.pool, r.hexTxid env = some t →
    r.status ≠ "failed"
  /-- The backends have not said no for good to the tick's last attempt, if one of them had accepted
  the transaction by then. -/
  answers : ∀ t ∈ rejectedTxids env d, t ∈ acceptedIn env (untilAttempt d.number before) →
    ∀ m ∈ (untilAttempt d.number before).getLast?,
      saysNo ⟨m.act, (World.exec env m.act m.state).1⟩ = false
  /-- No backend accepts the transaction between the attempt and the `UPDATE`. -/
  gap : ∀ t ∈ rejectedTxids env d, t ∉ acceptedIn env (sinceAttempt d.number before)

theorem failsCleanly_iff (env : Env) (before : List WorkDeed) (d : WorkDeed) :
    FailsCleanly env before d ↔
      (∀ t ∈ acceptedTxid env d.toPerformed, ∀ r ∈ d.state.pool, r.hexTxid env = some t →
        r.status ≠ "failed") ∧
      (∀ t ∈ rejectedTxids env d, t ∈ acceptedIn env (untilAttempt d.number before) →
        ∀ m ∈ (untilAttempt d.number before).getLast?,
          saysNo ⟨m.act, (World.exec env m.act m.state).1⟩ = false) ∧
      ∀ t ∈ rejectedTxids env d, t ∉ acceptedIn env (sinceAttempt d.number before) :=
  ⟨fun h => ⟨h.accepts, h.answers, h.gap⟩, fun h => ⟨h.1, h.2.1, h.2.2⟩⟩

instance (env : Env) (before : List WorkDeed) (d : WorkDeed) :
    Decidable (FailsCleanly env before d) :=
  decidable_of_iff' _ (failsCleanly_iff env before d)

/-- The ids of the rows at the start of a run, and of the rows that it inserts, are all
different: the id is the primary key of the table, and a new one is a random UUID. -/
def DistinctIds (w : World) (es : List (Performed Act Act.Res World)) : Prop :=
  (w.pool.map (·.id) ++ es.filterMap insertedId).Nodup

instance (w : World) (es : List (Performed Act Act.Res World)) : Decidable (DistinctIds w es) :=
  inferInstanceAs (Decidable (List.Nodup _))

/-- A schedule of the program's work. -/
def IsWorkSchedule (env : Env) (chs : List (Choice Act Act.Res Failure)) : Prop :=
  ∀ p, Choice.start p ∈ chs → ∃ a : Activity, p = a.prog env

/-! ### What the tick has heard when it stores a rejection -/

section
variable {env : Env} {α : Type} {p : Proc}

/-- The last answer that opened an attempt. -/
def lastAttempt (seen : List (Seen Act Act.Res)) : Option (Seen Act Act.Res) :=
  (seen.filter fun s => s.1.opensAttempt).getLast?

theorem lastAttempt_append (seen : List (Seen Act Act.Res)) (s : Seen Act Act.Res) :
    lastAttempt (seen ++ [s]) = if s.1.opensAttempt then some s else lastAttempt seen := by
  unfold lastAttempt
  rw [List.filter_append, List.filter_singleton]
  split <;> simp [*]

/-- The backends have said no to the last attempt. -/
def SaidNo (seen : List (Seen Act Act.Res)) : Prop :=
  ∃ s, lastAttempt seen = some s ∧ saysNo s = true

theorem SaidNo.append {seen : List (Seen Act Act.Res)} (h : SaidNo seen) {s : Seen Act Act.Res}
    (hs : s.1.opensAttempt = false) : SaidNo (seen ++ [s]) := by
  obtain ⟨s', hlast, hno⟩ := h
  refine ⟨s', ?_, hno⟩
  rw [lastAttempt_append, if_neg (by simp [hs])]
  exact hlast

/-- The record of what the deeds have shown. -/
def recordOf (env : Env) (w : World) (ds : List WorkDeed) : Record :=
  ds.foldl (fun g d => g.after env d.toPerformed) ⟨w.pool.map (·.id), []⟩

theorem recordOf_concat (w : World) (before : List WorkDeed) (d : WorkDeed) :
    recordOf env w (before ++ [d]) = (recordOf env w before).after env d.toPerformed := by
  simp [recordOf]

theorem recordOf_reads (w : World) (ds : List WorkDeed) : (recordOf env w ds).reads =
    ds.flatMap fun d => readsIn env ⟨d.act, (World.exec env d.act d.state).1⟩ := by
  induction ds using List.reverseRecOn with
  | nil => rfl
  | append_singleton ds d ih => rw [recordOf_concat, List.flatMap_append, ← ih]; simp [Record.after]

theorem recordOf_ids (w : World) (ds : List WorkDeed) : (recordOf env w ds).ids =
    w.pool.map (·.id) ++ (ds.map Deed.toPerformed).filterMap insertedId := by
  induction ds using List.reverseRecOn with
  | nil => simp [recordOf]
  | append_singleton ds d ih =>
    rw [recordOf_concat, List.map_append, List.filterMap_append, ← List.append_assoc, ← ih]
    cases h : insertedId d.toPerformed <;> simp [Record.after, h]

/-- What a program has read is in the record. -/
theorem mem_recordOf_reads {w : World} {before : List WorkDeed} {number : Nat}
    {k : String × String}
    (hk : k ∈ readsOf env (ownAnswers (World.exec env) number before)) :
    k ∈ (recordOf env w before).reads := by
  obtain ⟨s, hs, hk⟩ := List.mem_flatMap.1 hk
  obtain ⟨d, hd, -, rfl⟩ := mem_ownAnswers.1 hs
  rw [recordOf_reads]
  exact List.mem_flatMap.2 ⟨d, hd, hk⟩

/-- A row that comes in has an id that no row had before. -/
theorem fresh_of_distinctIds {w : World} {ds before after : List WorkDeed} {d : WorkDeed}
    (hids : DistinctIds w (ds.map Deed.toPerformed)) (hsplit : ds = before ++ d :: after) :
    ∀ id ∈ insertedId d.toPerformed, id ∉ (recordOf env w before).ids := by
  intro id hid hmem
  have hrecord : (recordOf env w before).ids = _ := recordOf_ids w before
  unfold DistinctIds at hids
  rw [hsplit, List.map_append, List.map_cons, List.filterMap_append, List.filterMap_cons,
    Option.mem_def.1 hid, ← List.append_assoc, ← hrecord] at hids
  exact (List.nodup_append.1 hids).2.2 id hmem id (List.mem_cons_self ..) rfl

end

theorem isWorkSchedule_tickSchedule : IsWorkSchedule sampleEnv tickSchedule := by
  intro p hp
  rcases List.mem_cons.1 hp with hp | hp
  · cases hp
    exact ⟨.broadcastLoop, rfl⟩
  · cases List.eq_of_mem_replicate hp

end BroadcastPool
