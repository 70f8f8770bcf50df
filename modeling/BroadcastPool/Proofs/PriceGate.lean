import BroadcastPool.Activity
import BroadcastPool.Proofs.SparedRow
import BroadcastPool.Sample

/-!
# `BroadcastPool.Proofs.PriceGate`: a row that waits for a price is released by its price only

Four queries can bring a pending row into the hands of a loop, and each excludes a waiting row by
another column. `Row.PriceGated` ties these columns together: the row is pending, it has no date,
its mode is one of the user's, it has no locktime, and it has the target it was given.

`schedule_by_price` leaves the row so (`wp_scheduleByPrice_gated`). Every step of the scheduler
keeps it so, unless the step is a pass of the price monitor whose prices meet the target
(`keeps_step_gated`). A start of the daemon writes the row, but none of these columns.
-/

set_option autoImplicit false

namespace BroadcastPool

open Effects

/-- One pass of a loop of the daemon, or a start of the daemon. -/
def Activity.isSchedulerStep : Activity → Bool
  | broadcastLoop | blockHeightMonitor | priceMonitor _ | rebroadcastLoop => true
  | confirmationChecker | retention _ | chainHealthPoll | restart .. => true
  | _ => false

/-- The step is a pass of the price monitor that sees a price in the currency, on the side of the
target that the condition names. -/
def Activity.SeesPrice (target : F64) (currency condition : String) : Activity → Prop
  | priceMonitor prices => ∃ current, prices currency = some current ∧
      (condition = "above" ∧ target.le current = true ∨
        condition = "below" ∧ current.le target = true)
  | _ => False

/-- Steps one after the other, each run to its end. A step that fails does not end the others. -/
def schedulerSteps (env : Env) (steps : List Activity) : M Unit :=
  Prog.forEach steps fun a => do
    let _ ← (a.prog env).attempt

/-- No query for due rows returns a row with the id, and the action hands none over. -/
structure NotSelected (id : String) (w : World) (a : Act) : Prop where
  due : ∀ network, ∀ r ∈ selectRows (.due network) w.pool, r.id ≠ id
  handsOver : ∀ tx ∈ a.handsOver, tx.id ≠ id

/-- The row waits for the target, and no other column can release it. -/
structure Row.PriceGated (target : F64) (currency condition : String) (r : Row) : Prop where
  status : r.status = "pending"
  scheduledTime : r.scheduledTime = none
  mode : r.broadcastMode = some "manual" ∨ r.broadcastMode = some "imported"
  nlocktime : r.nlocktime = some 0
  targetPrice : r.targetPrice = target.toSql
  priceCurrency : r.priceCurrency = some currency
  priceCondition : r.priceCondition = some condition

/-- Every row with the id waits for the target. -/
def Gated (x : String) (target : F64) (currency condition : String) (w : World) : Prop :=
  ∀ r ∈ w.pool, r.id = x → r.PriceGated target currency condition

/-! ### What a step can do to a waiting row -/

/-- The statement leaves the columns of a waiting row alone, or its `WHERE` clause does. -/
def Update.isService : Update → Bool
  | encryptFields .. | failedToScheduled .. => true
  | _ => false

/-- The action is no `INSERT`, and no `UPDATE` that could release a waiting row. -/
def Act.isService : Act → Bool
  | insert _ => false
  | update u => u.isService
  | _ => true

/-- The action leaves a row with the id waiting, and hands none over. -/
structure Act.LeavesGate (x : String) (a : Act) : Prop where
  row : a.touches x = false ∨ a.isService = true
  handsOver : ∀ tx ∈ a.handsOver, tx.id ≠ x

/-- The handler, where no row with the id is selected. -/
abbrev gateContract (env : Env) (x : String) : Contract Act Act.Res World :=
  (World.exec env).contract (fun _ _ => True) (NotSelected x)

section Steps
variable {env : Env} {x : String} {target : F64} {currency condition : String} {w : World}
  {r : Row}

theorem Row.PriceGated.serviced (h : r.PriceGated target currency condition) {r' : Row}
    (hserviced : r.Serviced env r') : r'.PriceGated target currency condition := by
  have hmode : r'.broadcastMode = r.broadcastMode := by
    rcases hserviced with rfl | rfl | rfl | rfl
    · rfl
    · unfold migration007
      split
      · rename_i himmediate
        rcases h.mode with hmode | hmode <;>
          exact absurd (hmode.symm.trans himmediate.1) (by decide)
      · rfl
    · unfold backfillRow
      split
      · split
        · split <;> rfl
        · rfl
      · rfl
    · unfold resealed
      split <;> rfl
  have heq := hserviced.eq
  rw [hmode] at heq
  rw [heq]
  exact ⟨h.status, h.scheduledTime, h.mode, h.nlocktime, h.targetPrice, h.priceCurrency,
    h.priceCondition⟩

/-- A statement that services leaves a waiting row waiting. -/
theorem Row.PriceGated.onRow (h : r.PriceGated target currency condition) {u : Update}
    (hu : u.isService = true) : (u.onRow env r).PriceGated target currency condition := by
  unfold Update.onRow
  split
  · rename_i hmatch
    cases u
    case encryptFields id txHex dest source =>
      exact ⟨h.status, h.scheduledTime, h.mode, h.nlocktime, h.targetPrice, h.priceCurrency,
        h.priceCondition⟩
    case failedToScheduled id now =>
      -- The guard asks for a failed row.
      have hfailed : r.status = "failed" := by simpa [Update.guard] using hmatch.2
      exact absurd (h.status.symm.trans hfailed) (by decide)
    all_goals cases hu
  · exact h

theorem gated_step {a : Act} (ha : a.LeavesGate x) (h : Gated x target currency condition w) :
    Gated x target currency condition (World.exec env a w).2 := by
  rcases ha.row with htouches | hservice
  · intro r hr hid
    have hmem : r ∈ rowsOf x (World.exec env a w).2.pool := mem_rowsOf.2 ⟨hr, hid⟩
    rw [exec_rowsOf htouches] at hmem
    exact h r (mem_rowsOf.1 hmem).1 hid
  · intro r' hr' hid
    by_cases hupdate : ∃ u, a = .update u
    · obtain ⟨u, rfl⟩ := hupdate
      rcases exec_update env w u with ⟨e, hexec⟩ | hexec
      · rw [hexec] at hr'
        exact h r' hr' hid
      · rw [hexec] at hr'
        obtain ⟨r, hr, rfl⟩ := List.mem_map.1 hr'
        rw [Update.onRow_id] at hid
        exact (h r hr hid).onRow hservice
    · have hinsert : ∀ row, a ≠ .insert row := by
        rintro row rfl
        cases hservice
      obtain ⟨r, hr, hserviced⟩ :=
        exec_serviced env hinsert (fun u hu => hupdate ⟨u, hu⟩) w r' hr'
      refine (h r hr ?_).serviced hserviced
      rw [hserviced.eq] at hid
      exact hid

/-- A waiting row is not due. -/
theorem Gated.notSelected (h : Gated x target currency condition w) {a : Act}
    (ha : ∀ tx ∈ a.handsOver, tx.id ≠ x) : NotSelected x w a where
  due network r hr hid := by
    obtain ⟨hmem, hselects⟩ := mem_selectRows hr
    have hpending := (h r hmem hid).status
    simp [Query.selects, hpending] at hselects
  handsOver := ha

theorem keeps_gated_of_uses {required : World → Act → Prop} {α : Type} {prog : M α}
    (hreq : ∀ w a, Gated x target currency condition w → a.LeavesGate x → required w a)
    (h : prog.Uses (Act.LeavesGate x)) :
    prog.Keeps ((World.exec env).contract (fun _ _ => True) required)
      (Gated x target currency condition) := by
  refine Prog.keeps_of_uses (fun a ha w hw _ => ⟨hreq w a hw ha, ?_⟩) h
  intro r w' hstep
  have hnext : w' = (World.exec env a w).2 := (congrArg Prod.snd hstep).symm
  rw [hnext]
  exact gated_step ha hw

theorem keeps_leavesGate {α : Type} {prog : M α} (h : prog.Uses (Act.LeavesGate x)) :
    prog.Keeps (gateContract env x) (Gated x target currency condition) :=
  keeps_gated_of_uses (fun _ _ hw ha => hw.notSelected ha.handsOver) h

/-- The columns that the price monitor decides on are read as they are. -/
theorem mapBroadcastRow_price {now : DateTime} {tx : BroadcastTx}
    (h : mapBroadcastRow env now r = .ok tx) : tx.targetPrice = r.targetPrice ∧
      tx.priceCurrency = r.priceCurrency ∧ tx.priceCondition = r.priceCondition := by
  obtain ⟨n, nlocktime, blockHeight, fee, count, total, retries, -, -, -, -, -, -, -, rfl⟩ :=
    mapBroadcastRow_eq_ok.1 h
  exact ⟨rfl, rfl, rfl⟩

/-- What a query can show of a waiting row. -/
def ShowsGated (env : Env) (target : F64) (currency condition : String) (q : Query)
    (tx : BroadcastTx) : Prop :=
  ∃ r : Row, r.PriceGated target currency condition ∧ q.selects r = true ∧
    ∃ now, mapBroadcastRow env now r = .ok tx

theorem sparesRow_gated : SparesRow (gateContract env x) (Gated x target currency condition) x
    (ShowsGated env target currency condition) where
  keeps h := by
    refine keeps_leavesGate (Prog.Uses.mono (fun a ha => ?_) h)
    exact ⟨Or.inl ha.touches, ha.handsOver⟩
  shows context q := by
    refine gives_select_read context (fun w hw => ⟨hw.notSelected ?_, hw⟩)
      fun w hw now txs hmap tx htx hid => ?_
    · intro tx htx
      cases htx
    · obtain ⟨r, hr, hread⟩ := mem_of_mapM_eq_ok hmap tx htx
      obtain ⟨hmem, hselects⟩ := mem_selectRows hr
      exact ⟨r, hw r hmem ((mapBroadcastRow_spec hread).id.symm.trans hid), hselects, now, hread⟩

/-- A program whose work leaves the row waiting. -/
theorem leavesGate_of_work {α : Type} {prog : M α} (h : IsWork (Act.LeavesGate x) prog) :
    prog.Uses (Act.LeavesGate x) := by
  refine Prog.Uses.mono (fun a ha => ?_) h
  rcases ha with hbasic | ha
  · cases a
    case insert | update | indexerBroadcast | rpcBroadcast => cases hbasic
    all_goals exact ⟨Or.inr rfl, fun tx h => by cases h⟩
  · exact ha

/-! ### The steps of the scheduler -/

/-- A target that no price meets releases nothing. -/
theorem priceTriggerMet_eq_false {now : DateTime} {tx : BroadcastTx}
    {prices : String → Option F64} (hr : r.PriceGated target currency condition)
    (hread : mapBroadcastRow env now r = .ok tx)
    (hcondition : condition = "above" ∨ condition = "below")
    (hunmet : ¬ (Activity.priceMonitor prices).SeesPrice target currency condition) :
    priceTriggerMet prices tx = false := by
  obtain ⟨htarget, hcurrency, hcond⟩ := mapBroadcastRow_price hread
  rw [Bool.eq_false_iff]
  intro hmet
  unfold priceTriggerMet at hmet
  rw [htarget, hcurrency, hcond, hr.targetPrice, hr.priceCurrency, hr.priceCondition] at hmet
  dsimp only [Option.getD_some] at hmet
  split at hmet
  · rename_i bound current hbound hcurrent
    have hsame : target = bound := by
      unfold F64.toSql at hbound
      split at hbound
      · cases hbound
      · exact Option.some.inj hbound
    rw [← hsame] at hmet
    refine hunmet ⟨current, hcurrent, ?_⟩
    unfold priceConditionMet at hmet
    rcases hcondition with rfl | rfl
    · exact Or.inl ⟨rfl, hmet⟩
    · exact Or.inr ⟨rfl, hmet⟩
  · cases hmet

/-- One step of the scheduler keeps the row waiting, unless it sees its price. -/
theorem keeps_step_gated (hcondition : condition = "above" ∨ condition = "below") {a : Activity}
    (hstep : a.isSchedulerStep = true) (hunmet : ¬ a.SeesPrice target currency condition) :
    (a.prog env).Keeps (gateContract env x) (Gated x target currency condition) := by
  -- A gated row is pending, without a scheduled time and without a lock: no query of the scheduler
  -- but that of the price monitor selects it, and that one finds the price not met.
  have hspares : SparesRow (gateContract env x) (Gated x target currency condition) x
      (ShowsGated env target currency condition) := sparesRow_gated
  cases a
  case broadcastLoop =>
    refine Prog.keeps_bind (hspares.keeps (uses_act (spares_isSafeMode _ x))) fun halted => ?_
    split
    · exact Prog.keeps_ret _
    · refine hspares.runSchedulerTick env _ ?_ ?_ ?_
      · rintro network tx ⟨r, hr, hselects, -⟩
        simp [Query.selects, hr.scheduledTime] at hselects
      · rintro network tx ⟨r, hr, hselects, -⟩
        simp [Query.selects, hr.status] at hselects
      · rintro network tx ⟨r, hr, hselects, -⟩
        simp [Query.selects, hr.status] at hselects
  case blockHeightMonitor =>
    refine hspares.blockHeightMonitorPass env _ ?_
    rintro network tx ⟨r, hr, hselects, -⟩
    simp [Query.selects, hr.nlocktime] at hselects
  case priceMonitor prices =>
    refine hspares.priceMonitorPass env _ prices ?_
    rintro network tx ⟨r, hr, -, now, hread⟩
    exact priceTriggerMet_eq_false hr hread hcondition hunmet
  case rebroadcastLoop =>
    refine hspares.rebroadcastLoopPass env _ ?_
    rintro cutoff network tx ⟨r, hr, hselects, -⟩
    simp [Query.selects, hr.status] at hselects
  case confirmationChecker =>
    refine hspares.confirmationCheckerPass env _ ?_
    rintro network tx ⟨r, hr, hselects, -⟩
    simp [Query.selects, hr.status] at hselects
  case retention key =>
    exact keeps_leavesGate (leavesGate_of_work (work_retentionPass env _ key fun id entry =>
      ⟨Or.inr rfl, fun tx h => by cases h⟩))
  case chainHealthPoll => exact hspares.lookup (clock_refreshChainHealth _).lookup
  case restart rpc indexer config =>
    refine keeps_leavesGate (leavesGate_of_work (work_startUp env _ ?_ ?_ ?_ ?_ ?_))
    · exact ⟨Or.inl rfl, fun tx h => by cases h⟩
    · exact fun id t d s => ⟨Or.inr rfl, fun tx h => by cases h⟩
    · exact fun q txid info => ⟨Or.inl rfl, fun tx h => by cases h⟩
    · exact fun q txid extra => ⟨Or.inl rfl, fun tx h => by cases h⟩
    · exact fun id now => ⟨Or.inr rfl, fun tx h => by cases h⟩
  all_goals cases hstep

/-- A run of the scheduler keeps the row waiting, if no step sees its price. -/
theorem keeps_schedulerSteps_gated (hcondition : condition = "above" ∨ condition = "below")
    {steps : List Activity} (hsteps : ∀ a ∈ steps, a.isSchedulerStep = true)
    (hunmet : ∀ a ∈ steps, ¬ a.SeesPrice target currency condition) :
    (schedulerSteps env steps).Keeps (gateContract env x) (Gated x target currency condition) :=
  Prog.keeps_forEach steps fun a ha =>
    Prog.keeps_bind (Prog.keeps_attempt (keeps_step_gated hcondition (hsteps a ha) (hunmet a ha)))
      fun _ => Prog.keeps_ret _

end Steps

/-! ### The request that sets the target -/

section Request
variable {env : Env} {p : Proc} {id : String} {target : F64} {currency condition : String}
  {fee : F64} {w : World} {α β : Type}

/-- The rest of a program that has to succeed. -/
theorem wp_succeeds_bind {c : Contract Act Act.Res World} {I Q : World → Prop} {P : α → Prop}
    {prog : M α} {f : α → M β} (hprog : Prog.Gives c I P prog) (hw : I w)
    (hf : ∀ a w', P a → I w' → (f a).wp c (fun o w'' => ∀ b, o = .ok b → Q w'') w') :
    (prog.bind f).wp c (fun o w' => ∀ b, o = .ok b → Q w') w := by
  refine (Prog.wp_bind _ _ _ w).2 (Prog.wp_mono ?_ _ w (hprog w hw))
  rintro (e | a) w' ⟨hI, hP⟩
  · intro b hb
    cases hb
  · exact hf a w' (hP a rfl) hI

theorem wp_succeeds_ensure {c : Contract Act Act.Res World} {Q : World → Prop} {g : Prop}
    [Decidable g] {text : String} {f : Unit → M β}
    (hf : g → (f ()).wp c (fun o w' => ∀ b, o = .ok b → Q w') w) :
    ((ensure g text : M Unit).bind f).wp c (fun o w' => ∀ b, o = .ok b → Q w') w := by
  refine (Prog.wp_bind _ _ _ w).2 ((Prog.wp_ensure g _ _ w).2 ⟨hf, fun _ b hb => ?_⟩)
  cases hb

variable (env p id target currency condition fee)

/-- `update_price_schedule` that succeeds leaves the row waiting, if the row is a user's and has no
locktime. -/
theorem wp_updatePriceSchedule_gated
    (hrow : ∀ r ∈ w.pool, r.id = id → r.nlocktime = some 0 ∧
      (r.broadcastMode = some "manual" ∨ r.broadcastMode = some "imported")) :
    (updatePriceSchedule env id target currency condition fee).wp (plainContract env)
      (fun o w' => ∀ u, o = .ok u → Gated id target currency condition w') w := by
  have hclock : (nowText env).Keeps (plainContract env) fun w' => w'.pool = w.pool := by
    refine Prog.keeps_bind (fun w' hw' => ?_) fun _ => Prog.keeps_ret _
    exact Prog.wp_perform_handler _ _ _ w' fun _ => ⟨trivial, hw'⟩
  refine wp_succeeds_bind hclock.gives rfl fun now w₁ _ hpool => ?_
  refine (Prog.wp_bind _ _ _ w₁).2 ((wp_orFail _ _ _ _).2 (Prog.wp_perform_handler _ _ _ w₁
    fun _ => ⟨trivial, ?_⟩))
  rcases exec_update env w₁ (.priceSchedule id target currency condition fee now) with
    ⟨e, hexec⟩ | hexec
  · rw [hexec]
    intro u hu
    cases hu
  · rw [hexec]
    have hgated : Gated id target currency condition { w₁ with
        pool := applyUpdate env (.priceSchedule id target currency condition fee now)
          w₁.pool }.ticked := by
      intro r' hr' hid
      obtain ⟨r, hr, rfl⟩ := List.mem_map.1 hr'
      rw [Update.onRow_id] at hid
      obtain ⟨hlock, hmode⟩ := hrow r (hpool ▸ hr) hid
      unfold Update.onRow
      rw [if_pos ⟨hid, rfl⟩]
      exact ⟨rfl, rfl, hmode, hlock, rfl, rfl, rfl⟩
    have hreseal : (resealRowMac id).Keeps (plainContract env)
        (Gated id target currency condition) :=
      keeps_gated_of_uses (fun _ _ _ _ => trivial)
        (uses_orFail _ (uses_act ⟨Or.inr rfl, fun tx h => by cases h⟩))
    refine Prog.wp_mono ?_ _ _ (hreseal _ hgated)
    intro o w' hw' u _
    exact hw'

/-- A successful `schedule_by_price` leaves the row waiting. -/
theorem wp_scheduleByPrice_gated (hids : w.UniqueIds) :
    (scheduleByPrice env p id target currency condition fee).wp (plainContract env)
      (fun o w' => ∀ tx, o = .ok tx →
        (Text.lowercase condition = "above" ∨ Text.lowercase condition = "below") ∧
          Gated id target (Text.lowercase currency) (Text.lowercase condition) w') w := by
  refine wp_succeeds_ensure fun _ => ?_
  refine wp_succeeds_ensure fun _ => ?_
  refine wp_succeeds_ensure fun hcondition => ?_
  have hread : Prog.Gives (plainContract env) (fun w' => w'.pool = w.pool)
      (fun tx => ∃ now, ∃ r ∈ w.pool, r.id = id ∧ ReadsAs env now r tx)
      (getBroadcastTxById id) := by
    refine gives_getBroadcastTxById (fun w' hw' => ⟨trivial, hw'⟩) ?_
    intro w' hw' tx now r hr hid hreads
    exact ⟨now, r, hw' ▸ hr, hid, hreads⟩
  refine wp_succeeds_bind hread rfl fun tx w₁ htx hpool => ?_
  refine wp_succeeds_ensure fun _ => ?_
  refine wp_succeeds_ensure fun hmode => ?_
  refine wp_succeeds_ensure fun hlock => ?_
  obtain ⟨now, r, hr, hid, hreads⟩ := htx
  -- The row is the only one with its id, so the checks on what was read are checks on it.
  have hrow : ∀ r' ∈ w₁.pool, r'.id = id → r'.nlocktime = some 0 ∧
      (r'.broadcastMode = some "manual" ∨ r'.broadcastMode = some "imported") := by
    intro r' hr' hid'
    have hsame : r' = r := by
      have hmem : r' ∈ rowsOf r.id w.pool := mem_rowsOf.2 ⟨hpool ▸ hr', hid'.trans hid.symm⟩
      rw [rowsOf_of_nodup hids hr, List.mem_singleton] at hmem
      exact hmem
    rw [hsame, ← hreads.broadcastMode]
    refine ⟨?_, by simpa [isUserScheduledMode] using hmode⟩
    obtain ⟨n, hn⟩ := Option.isSome_iff_exists.1 hreads.nlocktime.2
    rw [hn] at hlock
    rw [hreads.nlocktime.1, hn, show n = 0 from hlock]
    rfl
  have hwp := wp_updatePriceSchedule_gated env id target (Text.lowercase currency)
    (Text.lowercase condition) fee hrow
  refine (Prog.wp_bind _ _ _ w₁).2 (Prog.wp_mono ?_ _ w₁ hwp)
  rintro (e | u) w₂ hgated
  · intro b hb
    cases hb
  · -- The gate is up: what follows is a read of the row.
    have hrest : (do
        let updated ← getBroadcastTxById id
        enrichTxLocktime p updated
        return updated : M BroadcastTx).Keeps (plainContract env)
          (Gated id target (Text.lowercase currency) (Text.lowercase condition)) := by
      refine keeps_gated_of_uses (fun _ _ _ _ => trivial) (leavesGate_of_work ?_)
      refine Prog.uses_bind (quiet_getBroadcastTxById id).work fun updated => ?_
      exact Prog.uses_bind (clock_enrichTxLocktime p updated).work fun _ => Prog.uses_ret _
    refine Prog.wp_mono ?_ _ w₂ (hrest w₂ (hgated u rfl))
    intro o w' hw' tx _
    exact ⟨hcondition, hw'⟩

variable {env p id target currency condition fee}

/-- A row that a successful `schedule_by_price` put into waiting is selected by no step of the
scheduler, unless a pass of the price monitor saw its price. -/
theorem price_gated_release {tx : BroadcastTx} {w' : World} {steps : List Activity}
    (hids : w.UniqueIds)
    (hset : (scheduleByPrice env p id target currency condition fee).run (World.exec env) w =
      (.ok tx, w'))
    (hsteps : ∀ a ∈ steps, a.isSchedulerStep = true) :
    (∃ a ∈ steps, a.SeesPrice target (Text.lowercase currency) (Text.lowercase condition)) ∨
      ∀ e ∈ (schedulerSteps env steps).trace (World.exec env) w', NotSelected id e.1 e.2 := by
  have hwp := wp_scheduleByPrice_gated env p id target currency condition fee hids
  have hpost := (Prog.run_trace_of_wp _ _ _ hwp fun _ _ => trivial).1
  rw [hset] at hpost
  obtain ⟨hcondition, hgated⟩ := hpost tx rfl
  refine or_iff_not_imp_left.2 fun hunmet => ?_
  have hkeeps : (schedulerSteps env steps).Keeps (gateContract env id)
      (Gated id target (Text.lowercase currency) (Text.lowercase condition)) :=
    keeps_schedulerSteps_gated hcondition hsteps fun a ha hsees => hunmet ⟨a, ha, hsees⟩
  exact (Prog.run_trace_of_wp _ _ _ (hkeeps w' hgated) fun _ _ => trivial).2

end Request

/-- Every loop has a pass and the daemon starts again, and the row with the target 1 is not
selected, as no pass sees a price. -/
theorem price_gated_release_unseen :
    ∃ tx w', (scheduleByPrice sampleEnv .daemon sampleRow.id ⟨0x3FF0000000000000⟩ "USD" "above"
        F64.zero).run (World.exec sampleEnv) (servedWorld sampleRow) = (.ok tx, w') ∧
      ∀ e ∈ (schedulerSteps sampleEnv [.broadcastLoop, .blockHeightMonitor, .rebroadcastLoop,
          .restart false true sampleConfig, .priceMonitor fun _ => none]).trace
            (World.exec sampleEnv) w', NotSelected sampleRow.id e.1 e.2 := by
  have hok : ((scheduleByPrice sampleEnv .daemon sampleRow.id ⟨0x3FF0000000000000⟩ "USD" "above"
      F64.zero).run (World.exec sampleEnv) (servedWorld sampleRow)).1.isOk = true := by
    decide +kernel
  rcases hrun : (scheduleByPrice sampleEnv .daemon sampleRow.id ⟨0x3FF0000000000000⟩ "USD"
      "above" F64.zero).run (World.exec sampleEnv) (servedWorld sampleRow) with ⟨e | tx, w'⟩
  · rw [hrun] at hok
    cases hok
  · refine ⟨tx, w', rfl, (price_gated_release (by decide) hrun
      (by simp [Activity.isSchedulerStep])).resolve_left ?_⟩
    simp [Activity.SeesPrice]

end BroadcastPool
