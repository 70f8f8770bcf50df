import BroadcastPool.Lib.Sequence
import BroadcastPool.Pool.TableOps
import BroadcastPool.Proofs.Db.Seal
import BroadcastPool.Sample

/-!
# `BroadcastPool.Proofs.FalseAlarm`: the program's own writes and the row MAC

A mutator leaves its row unsealed between its own statement and `reseal_row_mac`, and seals
it again. Two writers do not: the raw `UPDATE` of `PoolManager::schedule_transaction` and
`MIGRATION_007`, which runs at every start. `KeepsSeal` is the condition on one step under
which a table that verifies keeps verifying, and `keeps_tableOp` shows that every operation
then does keep it. `no_false_alarm` is the result over whole sequences of operations, and
`scheduleTransaction_raises_false_alarm` a sequence of two operations that breaks it.
-/

set_option autoImplicit false

namespace BroadcastPool

open Effects

/-- The condition on a step, in the world it meets. The raw `UPDATE` of
`schedule_transaction` hits no row, or a row that already holds the values it writes, and its
fee text looks like a number. At a start no row is pending with mode `immediate`. The
database does not refuse a `reseal_row_mac`. The value of a new row is not a NaN. -/
def KeepsSeal (env : Env) (w : World) : Act → Prop
  | .update (.scheduleRaw id scheduledTime feeText _) =>
      ∀ r ∈ w.pool, r.id = id →
        r.status = "scheduled" ∧ r.scheduledTime = some scheduledTime ∧
          (env.realAffinity feeText).isSome
  | .migrate =>
      ∀ r ∈ w.pool, ¬ (r.broadcastMode = some "immediate" ∧ r.status = "pending")
  | .reseal _ => env.dbFault w.tick = none
  | .insert row => row.totalValueBtc ≠ none
  | _ => True

instance (env : Env) (w : World) (a : Act) : Decidable (KeepsSeal env w a) := by
  apply @Act.casesOn (fun a => Decidable (KeepsSeal env w a)) a
  case update =>
    intro u
    apply @Update.casesOn (fun u => Decidable (KeepsSeal env w (.update u))) u
    all_goals
      intros
      dsimp only [KeepsSeal]
      infer_instance
  all_goals
    intros
    dsimp only [KeepsSeal]
    infer_instance

section
variable {env : Env}

/-- The contract under which the operations are verified. -/
abbrev sealContract (env : Env) : Contract Act Act.Res World :=
  (World.exec env).contract (KeepsSeal env) fun _ _ => True

/-- The invariant between operations. -/
def Verified (env : Env) (w : World) : Prop := AllVerify env w.pool

/-- A program that does not write the table keeps the invariant. -/
theorem keeps_of_no_write {α : Type} {p : M α} (hp : p.Uses fun a => a.writesPool = false) :
    p.Keeps (sealContract env) (Verified env) := by
  refine Prog.keeps_of_uses (fun a ha w hw _ => ⟨trivial, fun r w' hstep => ?_⟩) hp
  have hpool : (World.exec env a w).2.pool = w.pool := exec_pool ha
  rw [show World.exec env a w = (r, w') from hstep] at hpool
  unfold Verified
  rw [hpool]
  exact hw

theorem keeps_quiet {α : Type} {p : M α} (hp : IsQuiet p) :
    p.Keeps (sealContract env) (Verified env) :=
  keeps_of_no_write (Prog.Uses.mono (fun _ ha => (no_write_of_isQuiet ha).1) hp)

theorem keeps_clock {α : Type} {p : M α} (hp : IsClock p) :
    p.Keeps (sealContract env) (Verified env) :=
  keeps_quiet hp.quiet

/-- One action keeps the invariant if its effect on the table does. -/
theorem keeps_action {a : Act}
    (h : ∀ w, Verified env w → KeepsSeal env w a → AllVerify env (World.exec env a w).2.pool) :
    (perform a).Keeps (sealContract env) (Verified env) :=
  fun w hw => Prog.wp_perform_handler _ a _ w fun ha => ⟨trivial, h w hw ha⟩

/-- `reseal_row_mac` brings the invariant back, whatever it answers. -/
theorem wp_resealRowMac {id : String} {w : World} (h : AllVerifyBut env id w.pool) :
    (resealRowMac id).wp (sealContract env) (fun _ => Verified env) w := by
  refine (wp_orFail _ _ _ _).2 (Prog.wp_perform_handler _ _ _ w fun hfault => ⟨trivial, ?_⟩)
  have hreseal := resealRow_allVerify h
  rcases exec_reseal env w id with ⟨hne, -⟩ | hexec
  · exact absurd hfault hne
  · rw [hexec]
    cases hr : resealRow env id w.pool with
    | error e =>
      rw [hr] at hreseal
      exact hreseal
    | ok rows =>
      rw [hr] at hreseal
      exact hreseal

/-- The mutators: a statement on one row, and then its reseal. -/
theorem keeps_updateAndReseal (context : String) {u : Update} (hu : u.Fits env) :
    (updateAndReseal context u).Keeps (sealContract env) (Verified env) := by
  intro w hw
  refine (Prog.wp_bind _ _ _ _).2 ((wp_orFail _ _ _ _).2
    (Prog.wp_perform_handler _ _ _ w fun _ => ⟨trivial, ?_⟩))
  rcases exec_update env w u with ⟨e, hexec⟩ | hexec
  · rw [hexec]
    exact hw
  · rw [hexec]
    exact wp_resealRowMac (applyUpdate_allVerifyBut hu hw)

/-- `reset_failed_to_scheduled` seals the row if its statement hit one. -/
theorem keeps_resetFailedToScheduled (id : String) :
    (resetFailedToScheduled env id).Keeps (sealContract env) (Verified env) := by
  refine Prog.keeps_bind (keeps_clock (clock_nowText env)) fun now => ?_
  intro w hw
  refine (Prog.wp_bind _ _ _ _).2 ((wp_orFail _ _ _ _).2
    (Prog.wp_perform_handler _ _ _ w fun _ => ⟨trivial, ?_⟩))
  rcases exec_update env w (.failedToScheduled id now) with ⟨e, hexec⟩ | hexec
  · rw [hexec]
    exact hw
  · rw [hexec]
    have hbut := applyUpdate_allVerifyBut (u := .failedToScheduled id now) trivial hw
    refine (Prog.wp_bind _ _ _ _).2 ((Prog.wp_ensure _ _ _ _).2 ⟨fun _ => ?_, fun h => ?_⟩)
    · exact wp_resealRowMac hbut
    · -- No row was changed, so the table is as it was.
      have hcount : updateCount (.failedToScheduled id now) w.pool = 0 := by simpa using h
      show AllVerify env (applyUpdate env (.failedToScheduled id now) w.pool)
      rw [applyUpdate_of_count_zero hcount]
      exact hw

/-- A mutator whose only preparation is the clock. -/
theorem keeps_clocked (context : String) {u : String → Update} (hu : ∀ now, (u now).Fits env) :
    (do
      let now ← nowText env
      updateAndReseal context (u now) : M Unit).Keeps (sealContract env) (Verified env) :=
  Prog.keeps_bind (keeps_clock (clock_nowText env)) fun now =>
    keeps_updateAndReseal context (hu now)

/-- An uncovered statement needs no reseal. -/
theorem keeps_uncovered {u : Update} (hu : u.isUncovered = true) :
    (perform (.update u)).Keeps (sealContract env) (Verified env) := by
  refine keeps_action fun w hw _ => ?_
  rcases exec_update env w u with ⟨e, hexec⟩ | hexec
  · rw [hexec]
    exact hw
  · rw [hexec]
    exact applyUpdate_uncovered hu hw

/-- The raw `UPDATE` of `schedule_transaction`, when it changes no covered column. -/
theorem keeps_scheduleRaw (id scheduledTime feeText now : String) :
    (perform (.update (.scheduleRaw id scheduledTime feeText now))).Keeps
      (sealContract env) (Verified env) := by
  refine keeps_action fun w hw hcond => ?_
  rcases exec_update env w (.scheduleRaw id scheduledTime feeText now) with
    ⟨e, hexec⟩ | hexec
  · rw [hexec]
    exact hw
  · rw [hexec]
    intro r hr
    obtain ⟨r₀, hr₀, rfl⟩ := List.mem_map.1 hr
    obtain ⟨hread, hmac⟩ := hw r₀ hr₀
    by_cases hid : r₀.id = id
    · obtain ⟨hstatus, htime, hfee⟩ := hcond r₀ hr₀ hid
      refine ⟨Update.onRow_readable (fun _ => hfee) hread, ?_⟩
      have hmatch : r₀.id = Update.target (.scheduleRaw id scheduledTime feeText now) := hid
      rw [Update.onRow, if_pos ⟨hmatch, rfl⟩]
      exact (Update.scheduleRaw_macMatches hstatus htime).2 hmac
    · rw [Update.onRow_of_ne hid]
      exact ⟨hread, hmac⟩

/-- A new row is sealed over the values that land in its columns. -/
theorem keeps_insertBroadcastTx (tx : NewBroadcastTx) :
    (insertBroadcastTx env tx).Keeps (sealContract env) (Verified env) := by
  refine Prog.keeps_bind (keeps_quiet (uses_act rfl)) fun id => ?_
  refine Prog.keeps_bind (keeps_clock (clock_nowText env)) fun now => ?_
  refine Prog.keeps_bind (keeps_clock (clock_encode env _ _)) fun encTxHex => ?_
  refine Prog.keeps_bind (keeps_clock (clock_encode? env _ _)) fun encDest => ?_
  refine Prog.keeps_bind (keeps_clock (clock_encode? env _ _)) fun encSource => ?_
  refine keeps_ensure_bind fun hlt => ?_
  refine Prog.keeps_bind (keeps_orFail _ (keeps_action fun w hw hvalue => ?_)) fun _ =>
    keeps_quiet (quiet_getBroadcastTxById id)
  rcases exec_insert env w (newRow env tx id now encTxHex encDest encSource) with
    ⟨e, hexec⟩ | ⟨pool, hins, hexec⟩
  · rw [hexec]
    exact hw
  · rw [hexec]
    exact insertRow_allVerify (newRow_verifies hlt hvalue) hw hins

theorem keeps_scheduleAt (p : Proc) (id : String) (scheduledTime : DateTime) (feeRate : F64) :
    (scheduleAt env p id scheduledTime feeRate).Keeps (sealContract env) (Verified env) := by
  refine Prog.keeps_bind (keeps_quiet (quiet_getBroadcastTxById id)) fun tx => ?_
  refine Prog.keeps_bind (keeps_quiet (uses_act rfl)) fun now => ?_
  refine Prog.keeps_bind (keeps_ensure _ _) fun _ => ?_
  refine Prog.keeps_bind (keeps_ensure _ _) fun _ => ?_
  refine Prog.keeps_bind (keeps_clocked _ fun _ => trivial) fun _ => ?_
  refine Prog.keeps_bind (keeps_quiet (quiet_getBroadcastTxById id)) fun updated => ?_
  exact Prog.keeps_bind (keeps_clock (clock_enrichTxLocktime p updated))
    fun _ => Prog.keeps_ret _

theorem keeps_scheduleByPrice (p : Proc) (id : String) (targetPrice : F64)
    (priceCurrency priceCondition : String) (feeRate : F64) :
    (scheduleByPrice env p id targetPrice priceCurrency priceCondition feeRate).Keeps
      (sealContract env) (Verified env) := by
  refine Prog.keeps_bind (keeps_ensure _ _) fun _ => ?_
  refine Prog.keeps_bind (keeps_ensure _ _) fun _ => ?_
  refine Prog.keeps_bind (keeps_ensure _ _) fun _ => ?_
  refine Prog.keeps_bind (keeps_quiet (quiet_getBroadcastTxById id)) fun tx => ?_
  refine Prog.keeps_bind (keeps_ensure _ _) fun _ => ?_
  refine Prog.keeps_bind (keeps_ensure _ _) fun _ => ?_
  refine Prog.keeps_bind (keeps_ensure _ _) fun _ => ?_
  refine Prog.keeps_bind (keeps_clocked _ fun _ => trivial) fun _ => ?_
  refine Prog.keeps_bind (keeps_quiet (quiet_getBroadcastTxById id)) fun updated => ?_
  exact Prog.keeps_bind (keeps_clock (clock_enrichTxLocktime p updated))
    fun _ => Prog.keeps_ret _

theorem keeps_scheduleTransaction (p : Proc) (id : String)
    (minDelay maxDelay : Option Nat) (minFee maxFee fixedFee : Option F64) :
    (scheduleTransaction env p id minDelay maxDelay minFee maxFee fixedFee).Keeps
      (sealContract env) (Verified env) := by
  refine Prog.keeps_bind (keeps_quiet (uses_orRaise (uses_act rfl))) fun config => ?_
  refine Prog.keeps_bind (keeps_clock (clock_genRange _ _)) fun delayHours => ?_
  refine Prog.keeps_bind (keeps_clock (clock_chooseFeeRate env _ _ _)) fun feeRate => ?_
  refine Prog.keeps_bind (keeps_quiet (uses_act rfl)) fun now => ?_
  refine Prog.keeps_bind (keeps_clock (clock_durationHours _)) fun delay => ?_
  split
  · exact Prog.keeps_fail _
  · refine Prog.keeps_bind (keeps_clock (clock_nowText env)) fun updated => ?_
    exact Prog.keeps_bind (keeps_orFail _ (keeps_scheduleRaw _ _ _ _))
      fun _ => keeps_quiet (quiet_getBroadcastTxById id)

theorem keeps_rebroadcastPending (p : Proc) :
    (rebroadcastPending env p).Keeps (sealContract env) (Verified env) := by
  refine Prog.keeps_bind (keeps_quiet (uses_orRaise (uses_act rfl))) fun config => ?_
  refine Prog.keeps_bind (keeps_quiet (quiet_getPendingRebroadcast env _ _)) fun txs => ?_
  refine Prog.keeps_forEach txs fun tx _ => ?_
  have hsend : (broadcastTransaction p tx).Keeps (sealContract env) (Verified env) :=
    keeps_of_no_write (Prog.Uses.mono (fun _ ha => ha.writesPool) (uses_broadcastTransaction p tx))
  refine Prog.keeps_bind (keeps_catchErr hsend) fun verdict => ?_
  cases verdict with
  | error e => exact Prog.keeps_ret _
  | ok txid =>
    refine Prog.keeps_bind (keeps_clock (clock_nowText env)) fun now => ?_
    exact Prog.keeps_bind (keeps_orFail _ (keeps_uncovered rfl)) fun _ => Prog.keeps_ret _

/-- `Database::open`: the migrations find nothing to change, the backfill writes an uncovered
column, and a legacy row is sealed after it is encrypted. -/
theorem keeps_openDatabase :
    (openDatabase env).Keeps (sealContract env) (Verified env) := by
  have hmigrate : runMigrations.Keeps (sealContract env) (Verified env) := by
    refine keeps_orFail _ (keeps_action fun w hw hcond => ?_)
    rcases exec_migrate env w with ⟨e, hexec⟩ | hexec
    · rw [hexec]
      exact hw
    · rw [hexec, map_migration007_eq hcond, ite_self]
      exact hw
  have hbackfill : backfillOutputValues.Keeps (sealContract env) (Verified env) := by
    refine keeps_orRaise (keeps_action fun w hw _ r hr => ?_)
    obtain ⟨r₀, hr₀, rfl | rfl⟩ := exec_backfill env w r hr
    · exact hw r hr₀
    · exact backfillRow_verifies (hw r₀ hr₀)
  have hencrypt : (encryptLegacyRows env).Keeps (sealContract env) (Verified env) := by
    refine Prog.keeps_bind (keeps_quiet (uses_orRaise (uses_act rfl))) fun rows => ?_
    refine Prog.keeps_forEach rows fun row _ => ?_
    obtain ⟨id, txHex, dest, source⟩ := row
    refine Prog.keeps_bind (keeps_clock (clock_encodeMissing env _ _)) fun encTxHex => ?_
    refine Prog.keeps_bind (keeps_clock (clock_encodeMissing? env _ _)) fun encDest => ?_
    refine Prog.keeps_bind (keeps_clock (clock_encodeMissing? env _ _)) fun encSource => ?_
    exact keeps_updateAndReseal _ trivial
  refine Prog.keeps_bind hmigrate fun _ => ?_
  refine Prog.keeps_bind (keeps_catchErr hbackfill) fun _ => ?_
  exact Prog.keeps_bind (keeps_catchErr hencrypt) fun _ => Prog.keeps_ret _

/-- Every operation keeps a table that verifies, while its steps meet `KeepsSeal`. -/
theorem keeps_tableOp (op : TableOp) :
    (op.prog env).Keeps (sealContract env) (Verified env) := by
  cases op with
  | insert tx => exact Prog.keeps_bind (keeps_insertBroadcastTx tx) fun _ => Prog.keeps_ret _
  | scheduleAt p id time fee =>
    exact Prog.keeps_bind (keeps_scheduleAt p id time fee) fun _ => Prog.keeps_ret _
  | scheduleByPrice p id target currency condition fee =>
    exact Prog.keeps_bind (keeps_scheduleByPrice p id target currency condition fee)
      fun _ => Prog.keeps_ret _
  | scheduleTransaction p id minDelay maxDelay minFee maxFee fixedFee =>
    exact Prog.keeps_bind (keeps_scheduleTransaction p id minDelay maxDelay minFee maxFee fixedFee)
      fun _ => Prog.keeps_ret _
  | scheduleAllPending p network =>
    refine Prog.keeps_bind (keeps_quiet (quiet_select _ _)) fun txs => ?_
    refine Prog.keeps_forEach txs fun tx _ => ?_
    exact Prog.keeps_bind (keeps_scheduleTransaction p tx.id none none none none none)
      fun _ => Prog.keeps_ret _
  | markDue id => exact keeps_clocked _ fun _ => trivial
  | markDueFromPriceTrigger id => exact keeps_clocked _ fun _ => trivial
  | markDueWithSchedule id time => exact keeps_clocked _ fun _ => trivial
  | markBroadcast id txid fee => exact keeps_clocked _ fun _ => trivial
  | markConfirmed id height =>
    refine Prog.keeps_bind (keeps_clock (clock_nowText env)) fun now => ?_
    exact keeps_ensure_bind fun _ => keeps_updateAndReseal _ (Int.natCast_nonneg height)
  | updateTxStatus id status error => exact keeps_clocked _ fun _ => trivial
  | resetFailedToScheduled id => exact keeps_resetFailedToScheduled id
  | recordBroadcastMiss id missedAt original =>
    refine Prog.keeps_bind (keeps_clock (clock_nowText env)) fun now => ?_
    exact Prog.keeps_bind (keeps_orFail _ (keeps_uncovered rfl)) fun _ => Prog.keeps_ret _
  | rebroadcastPending p => exact keeps_rebroadcastPending p
  | restart => exact keeps_openDatabase

end

/-- From an empty table, after every operation of every sequence whose steps meet
`KeepsSeal`, every row reads back with `tampered = Some(false)`. -/
theorem no_false_alarm (env : Env) (ops : List TableOp) (w : World) (hempty : w.pool = [])
    (hmeets : ∀ e ∈ runsTrace (World.exec env) w (ops.map (TableOp.prog env)),
      KeepsSeal env e.1 e.2) :
    ∀ w' ∈ runs (World.exec env) w (ops.map (TableOp.prog env)),
      ∀ r ∈ w'.pool, r.Verifies env := by
  have hstart : Verified env w := by
    intro r hr
    rw [hempty] at hr
    cases hr
  have hkeeps : ∀ p ∈ ops.map (TableOp.prog env),
      p.Keeps (sealContract env) (Verified env) := by
    intro p hp
    obtain ⟨op, -, rfl⟩ := List.mem_map.1 hp
    exact keeps_tableOp op
  intro w' hw' r hr
  have hverified := (runs_invariant _ hkeeps w hstart hmeets).1 w' hw'
  exact verifies_iff.2 (hverified r hr)

/-- An import, its scheduling by date, and the hand-over that follows. -/
def sampleOps : List TableOp :=
  [.insert sampleImport, .scheduleAt .daemon "id0" 1000 F64.zero,
    .markBroadcast "id0" "7" F64.zero]

theorem no_false_alarm_sampleOps :
    (∃ w' ∈ runs (World.exec sampleEnv) sampleWorld (sampleOps.map (TableOp.prog sampleEnv)),
      w'.pool.length = 1) ∧
      ∀ w' ∈ runs (World.exec sampleEnv) sampleWorld (sampleOps.map (TableOp.prog sampleEnv)),
        ∀ r ∈ w'.pool, r.Verifies sampleEnv := by
  refine ⟨by decide, no_false_alarm sampleEnv sampleOps sampleWorld rfl ?_⟩
  decide

/-- Importing a transaction and scheduling it with a random delay leaves a row that reads
back as tampered. -/
theorem scheduleTransaction_raises_false_alarm :
    ¬ ∀ (env : Env) (ops : List TableOp) (w : World), w.pool = [] →
      ∀ w' ∈ runs (World.exec env) w (ops.map (TableOp.prog env)),
        ∀ r ∈ w'.pool, r.Verifies env := by
  intro h
  have hrow : ∃ w' ∈ runs (World.exec sampleEnv) sampleWorld
      ([TableOp.insert sampleImport,
        .scheduleTransaction .daemon "id0" none none none none none].map
          (TableOp.prog sampleEnv)),
      ∃ r ∈ w'.pool, r.nlocktime = some 0 ∧ r.rowMac ≠ some (r.expectedMac sampleEnv 0) := by
    decide
  obtain ⟨w', hw', r, hr, hn, hmac⟩ := hrow
  have hverifies := h sampleEnv _ sampleWorld rfl w' hw' r hr
  exact hmac ((macMatches_iff hn).1 (verifies_iff.1 hverifies).2)

end BroadcastPool
