import BroadcastPool.Proofs.Terminal

/-!
# `BroadcastPool.Proofs.UserDecision`: the loops that mark rows, and the user's last decision

The price monitor, the block-height monitor and the first part of the tick each read a list,
decide, and then mark rows by their id. A user's request can come between the read and the mark.
`Ruling` is the last decision of the user on one row, and whether its price target was met since: a
pass of the price monitor has marked the row after the decision, and its prices meet the target.
`Decision.Honoured` says what a decision promises: the row is not due before its date, not due
unless its target was met, or gone.

`MarksCurrent` is the condition on a mark, in the table it meets: it takes no date away that has
not come, and a row that waits for a price still has the target that the pass has read.
`user_decision_stands` shows that the last decision is then honoured after every run.
`mark_due_overrides_date` is a run where the block-height monitor takes a date away.
-/

set_option autoImplicit false

namespace BroadcastPool

open Effects

/-- What a user wants of a row: a date, as the text that was stored for it, a price target, or
its removal. -/
inductive Decision
  | date (text : String)
  | price (target : F64) (currency condition : String)
  | removed
deriving DecidableEq, Repr

/-- The decision on the rows with the id `x` that a statement of a request makes. -/
def Act.decides (x : String) : Act → Option Decision
  | update (.reschedule id text ..) => if id = x then some (.date text) else none
  | update (.priceSchedule id target currency condition ..) =>
      if id = x then some (.price target currency condition) else none
  | delete id => if id = x then some .removed else none
  | _ => none

/-- A pass of one of the loops, a request of a user on a row, or a function that only reads. -/
inductive PoolJob
  | priceMonitor (prices : String → Option F64)
  | blockHeightMonitor
  | pendingDue
  | scheduleAt (id : String) (time : DateTime) (feeRate : F64)
  | scheduleByPrice (id : String) (target : F64) (currency condition : String) (feeRate : F64)
  | remove (id : String)
  | reads (prog : M Unit) (quiet : IsQuiet prog)

/-- The function that does the job. -/
def PoolJob.prog (env : Env) : PoolJob → M Unit
  | priceMonitor prices => priceMonitorPass env .daemon prices
  | blockHeightMonitor => blockHeightMonitorPass env .daemon
  | pendingDue => (pendingDuePart env .daemon).bind fun _ => pure ()
  | scheduleAt id time feeRate => (Activity.scheduleAt id time feeRate).prog env
  | scheduleByPrice id target currency condition feeRate =>
      (Activity.scheduleByPrice id target currency condition feeRate).prog env
  | remove id => (Activity.remove id).prog env
  | reads prog _ => prog

/-- A performed action, and the pass or the request that has performed it. -/
abbrev PoolDeed : Type := Deed PoolJob Act Act.Res World

/-- The step is a statement that goes through. -/
def goesThrough (env : Env) (e : Performed Act Act.Res World) : Bool :=
  match e.act with
  | .update u => (World.exec env (.update u) e.state).1.isOk
  | .delete id => (World.exec env (.delete id) e.state).1.isOk
  | _ => false

/-- The prices meet the target. -/
def meetsTarget (prices : String → Option F64) (target : F64) (currency condition : String) :
    Bool :=
  (prices currency).any fun current => priceConditionMet current target condition

/-- The user's last decision on a row, and whether its target was met since. -/
structure Ruling where
  decision : Option Decision := none
  met : Bool := false

/-- The price monitor marks the rows with the id `x`, and its prices meet the target of the
decision. -/
def marksMet (x : String) (decision : Option Decision) (d : PoolDeed) : Bool :=
  match d.job, d.act, decision with
  | .priceMonitor prices, .update (.dueFromPriceTrigger id _),
    some (.price target currency condition) =>
      id = x && meetsTarget prices target currency condition
  | _, _, _ => false

/-- The ruling on the rows with the id `x`, after a step. -/
def rulingAfter (env : Env) (x : String) (g : Ruling) (d : PoolDeed) : Ruling :=
  if goesThrough env d.toPerformed then
    match d.act.decides x with
    | some decision => { decision := some decision }
    | none => { g with met := g.met || marksMet x g.decision d }
  else g

/-- `is_tx_due_for_broadcast` does not return true for the row at this time. -/
def Row.NotDueAt (env : Env) (now : DateTime) (r : Row) : Prop :=
  ∀ tx, mapBroadcastRow env now r = .ok tx → ∀ p w,
    ((isTxDueForBroadcast p tx now).run (World.exec env) w).1 ≠ .ok true

/-- The rows with the id `x` are governed by the decision. `met` says whether its target was met. -/
def Decision.Honoured (env : Env) (met : Bool) (x : String) (rows : List Row) : Decision → Prop
  | date text => ∀ r ∈ rows, r.id = x → ∀ time, env.parseRfc3339 text = some time →
      ∀ now, now < time → r.NotDueAt env now
  | price .. => met = true ∨ ∀ r ∈ rows, r.id = x → ∀ now, r.NotDueAt env now
  | removed => ∀ r ∈ rows, r.id ≠ x

/-- The instant `s` is no earlier than the instant `text`. -/
def Env.noEarlier (env : Env) (s text : String) : Bool :=
  (env.parseRfc3339 text).all fun time => (env.parseRfc3339 s).any fun t => time ≤ t

/-- A statement that sets `scheduled_time` to `now` takes no date away: the row is not scheduled,
or `defer_until` holds it back, or its date has come. -/
def Row.KeepsDate (env : Env) (now : String) (r : Row) : Prop :=
  r.status = "scheduled" → r.deferUntil = none → ∀ s ∈ r.scheduledTime, env.noEarlier now s

instance (env : Env) (now : String) (r : Row) : Decidable (r.KeepsDate env now) := by
  unfold Row.KeepsDate
  infer_instance

/-- The row waits for a price. -/
def Row.WaitsForPrice (r : Row) : Prop :=
  r.status = "pending" ∧ r.scheduleTrigger = some "price"

instance (r : Row) : Decidable r.WaitsForPrice := inferInstanceAs (Decidable (_ ∧ _))

/-- The row has the target that a pass has read. -/
def Row.TargetRead (seen : List (Seen Act Act.Res)) (r : Row) : Prop :=
  ∀ tx ∈ lastRead seen, tx.id = r.id → tx.targetPrice = r.targetPrice ∧
    tx.priceCurrency = r.priceCurrency ∧ tx.priceCondition = r.priceCondition

instance (seen : List (Seen Act Act.Res)) (r : Row) : Decidable (r.TargetRead seen) := by
  unfold Row.TargetRead
  infer_instance

/-- The condition on a mark. It takes no date away. A row that waits for a price is marked by the
price monitor only, and still has the target that the pass has read. -/
def MarksCurrent (env : Env) (e : Performed Act Act.Res World) : Prop :=
  match e.act with
  | .update (.due id now) => ∀ r ∈ e.state.pool, r.id = id →
      r.KeepsDate env now ∧ ¬ r.WaitsForPrice
  | .update (.dueFromPriceTrigger id now) => ∀ r ∈ e.state.pool, r.id = id →
      r.KeepsDate env now ∧ (r.WaitsForPrice → r.TargetRead e.seen)
  | _ => True

instance (env : Env) (e : Performed Act Act.Res World) : Decidable (MarksCurrent env e) := by
  apply @Act.casesOn (fun a => Decidable (MarksCurrent env ⟨e.state, e.seen, a⟩)) e.act
  case update =>
    intro u
    apply @Update.casesOn (fun u => Decidable (MarksCurrent env ⟨e.state, e.seen, .update u⟩)) u
    all_goals
      intros
      dsimp only [MarksCurrent]
      infer_instance
  all_goals
    intros
    dsimp only [MarksCurrent]
    infer_instance

/-! ### What the columns promise -/

section
variable {env : Env} {r : Row}

theorem noEarlier_refl (text : String) : env.noEarlier text text = true := by
  unfold Env.noEarlier
  cases env.parseRfc3339 text <;> simp

theorem noEarlier_iff {s text : String} : env.noEarlier s text = true ↔
    ∀ time ∈ env.parseRfc3339 text, ∃ t ∈ env.parseRfc3339 s, time ≤ t := by
  simp [Env.noEarlier, Option.all_eq_true, Option.any_eq_true]

theorem noEarlier_trans {a b c : String} (hab : env.noEarlier a b = true)
    (hbc : env.noEarlier b c = true) : env.noEarlier a c = true := by
  rw [noEarlier_iff] at hab hbc ⊢
  intro time htime
  obtain ⟨t, ht, hle⟩ := hbc time htime
  obtain ⟨t', ht', hle'⟩ := hab t ht
  exact ⟨t', ht', hle.trans hle'⟩

/-- The date that holds a row back. -/
def Row.releaseText (r : Row) : Option String := r.deferUntil.or r.scheduledTime

/-- A row is not due before the date that holds it back. -/
theorem notDueAt_of_releaseText {s : String} {time now : DateTime}
    (htext : r.releaseText = some s) (hparse : env.parseRfc3339 s = some time)
    (hnow : now < time) : r.NotDueAt env now := by
  intro tx htx p w hrun
  have hreads := mapBroadcastRow_spec htx
  have hread : parseDatetime env now s = time := by simp [parseDatetime, hparse]
  unfold isTxDueForBroadcast at hrun
  split at hrun
  · cases hrun
  · rw [Prog.bind_eq, Prog.run_bind] at hrun
    generalize (isLocktimeSatisfied p tx.nlocktime).run (World.exec env) w = out at hrun
    obtain ⟨e | ok, w'⟩ := out
    · cases hrun
    · cases hdefer : r.deferUntil with
      | none =>
        have htime : r.scheduledTime = some s := by simpa [Row.releaseText, hdefer] using htext
        have hnone : tx.deferUntil = none := by rw [hreads.deferUntil, hdefer]; rfl
        have hlate : tx.scheduledTime = some time := by
          rw [hreads.scheduledTime, htime, Option.map_some, hread]
        simp only [hnone, hlate, Option.any_some] at hrun
        rw [if_neg (by simpa using hnow)] at hrun
        cases hrun
      | some s' =>
        have hsame : s' = s := by simpa [Row.releaseText, hdefer] using htext
        have hsome : tx.deferUntil = some time := by
          rw [hreads.deferUntil, hdefer, hsame, Option.map_some, hread]
        simp only [hsome] at hrun
        rw [if_pos hnow] at hrun
        cases hrun

/-- A pending row that waits for a price is not due. -/
theorem notDueAt_of_price {now : DateTime} (h : r.WaitsForPrice) : r.NotDueAt env now := by
  intro tx htx p w hrun
  have hreads := mapBroadcastRow_spec htx
  have htxTrigger : tx.scheduleTrigger = some "price" := hreads.scheduleTrigger.trans h.2
  have htxStatus : tx.status = .pending := by
    rw [hreads.status, h.1]
    rfl
  unfold isTxDueForBroadcast at hrun
  rw [if_pos ⟨htxTrigger, htxStatus⟩] at hrun
  cases hrun

/-- The columns of the rows with the id `x` are as the decision left them. -/
def Decision.Stands (env : Env) (met : Bool) (x : String) (rows : List Row) : Decision → Prop
  | date text => ∀ r ∈ rows, r.id = x → r.status = "scheduled" ∧
      ∃ s, r.releaseText = some s ∧ env.noEarlier s text = true
  | price target currency condition => met = true ∨
      ∀ r ∈ rows, r.id = x → r.WaitsForPrice ∧ r.targetPrice = target.toSql ∧
        r.priceCurrency = some currency ∧ r.priceCondition = some condition
  | removed => ∀ r ∈ rows, r.id ≠ x

theorem Decision.Stands.honoured {met : Bool} {x : String}
    {rows : List Row} {d : Decision} (h : d.Stands env met x rows) : d.Honoured env met x rows := by
  cases d with
  | date text =>
    intro r hr hid time hparse now hnow
    obtain ⟨-, s, htext, hs⟩ := h r hr hid
    obtain ⟨t, ht, hle⟩ := noEarlier_iff.1 hs time hparse
    exact notDueAt_of_releaseText htext ht (lt_of_lt_of_le hnow hle)
  | price target currency condition =>
    rcases h with hmet | h
    · exact Or.inl hmet
    · refine Or.inr fun r hr hid now => ?_
      exact notDueAt_of_price (h r hr hid).1
  | removed => exact h

/-! ### One step -/

/-- The statements of the passes and of the requests. -/
def Update.isPassOrRequest : Update → Prop
  | due .. | dueFromPriceTrigger .. | priceSchedule .. => True
  | reschedule _ text defer _ _ => defer = none ∨ defer = some text
  | _ => False

/-- The step inserts nothing, and an `UPDATE` is one of a pass or of a request. -/
def Act.IsPassOrRequest (a : Act) : Prop :=
  (∀ row, a ≠ .insert row) ∧ ∀ u, a = .update u → u.isPassOrRequest

/-- The mark of the price monitor is made for a row that the pass has read with a target which
its prices meet. -/
def MarkedByPrice (job : PoolJob) (seen : List (Seen Act Act.Res)) (a : Act) : Prop :=
  ∀ id now, a = .update (.dueFromPriceTrigger id now) →
    ∃ prices, job = .priceMonitor prices ∧
      ∃ tx ∈ lastRead seen, tx.id = id ∧ ∃ target, tx.targetPrice = some target ∧
        meetsTarget prices target (tx.priceCurrency.getD "usd")
          (tx.priceCondition.getD "above") = true

/-- A step that serves rows at most leaves every decision standing. -/
theorem Decision.Stands.of_serviced {met : Bool} {x : String}
    {rows rows' : List Row} {d : Decision} (h : d.Stands env met x rows)
    (hrows : ∀ r' ∈ rows', ∃ r ∈ rows, r.Serviced env r') : d.Stands env met x rows' := by
  cases d with
  | date text =>
    intro r' hr' hid
    obtain ⟨r, hr, hserviced⟩ := hrows r' hr'
    rw [hserviced.eq] at hid ⊢
    exact h r hr hid
  | price target currency condition =>
    refine h.imp (fun hmet => hmet) fun h r' hr' hid => ?_
    obtain ⟨r, hr, hserviced⟩ := hrows r' hr'
    rw [hserviced.eq] at hid ⊢
    exact h r hr hid
  | removed =>
    intro r' hr' hid
    obtain ⟨r, hr, hserviced⟩ := hrows r' hr'
    rw [hserviced.eq] at hid
    exact h r hr hid

/-- A decision stands as long as no row with its id is changed or comes in. -/
theorem Decision.Stands.of_subset {met : Bool} {x : String}
    {rows rows' : List Row} {d : Decision} (h : d.Stands env met x rows)
    (hrows : ∀ r' ∈ rows', r'.id = x → r' ∈ rows) : d.Stands env met x rows' := by
  cases d with
  | date text => exact fun r hr hid => h r (hrows r hr hid) hid
  | price target currency condition =>
    exact h.imp (fun hmet => hmet) fun h r hr hid => h r (hrows r hr hid) hid
  | removed => exact fun r hr hid => h r (hrows r hr hid) hid

/-- A target that was met stays met. -/
theorem Decision.Stands.mono {met met' : Bool} {x : String} {rows : List Row} {d : Decision}
    (h : d.Stands env met x rows) (hmet : met = true → met' = true) :
    d.Stands env met' x rows := by
  cases d with
  | date text => exact h
  | price target currency condition => exact h.imp hmet fun h => h
  | removed => exact h

/-- The last decision stands, if there is one. -/
def Standing (env : Env) (x : String) (g : Ruling) (w : World) : Prop :=
  ∀ d ∈ g.decision, d.Stands env g.met x w.pool

variable {met : Bool} {x : String} {d : Decision} {job : PoolJob}

/-- An `UPDATE` that misses the rows with the id `x`. -/
theorem Decision.Stands.of_miss {rows : List Row} {u : Update} (h : d.Stands env met x rows)
    (hmiss : ∀ r ∈ rows, r.id = x → r.id ≠ u.target) :
    d.Stands env met x (applyUpdate env u rows) := by
  refine h.of_subset fun r' hr' hid => ?_
  obtain ⟨r, hr, rfl⟩ := List.mem_map.1 hr'
  rw [Update.onRow_id] at hid
  rw [Update.onRow_of_ne (hmiss r hr hid)]
  exact hr

/-- A statement that sets `scheduled_time`, on rows whose date it does not take away. -/
theorem stands_date_of_keepsDate {rows : List Row} {u : Update} {now text : String}
    (h : (Decision.date text).Stands env met x rows)
    (hmark : ∀ r ∈ rows, r.id = u.target → r.KeepsDate env now)
    (hset : ∀ r, (u.set env r).status = "scheduled" ∧
      (u.set env r).releaseText = r.deferUntil.or (some now)) :
    (Decision.date text).Stands env met x (applyUpdate env u rows) := by
  intro r' hr' hid
  obtain ⟨r, hr, rfl⟩ := List.mem_map.1 hr'
  rw [Update.onRow_id] at hid
  obtain ⟨hstatus, s, htext, hs⟩ := h r hr hid
  unfold Update.onRow
  split
  · rename_i hmatch
    obtain ⟨hstatus', htext'⟩ := hset r
    refine ⟨hstatus', ?_⟩
    rw [htext']
    cases hdefer : r.deferUntil with
    | some d =>
      refine ⟨d, rfl, ?_⟩
      have hsame : d = s := by simpa [Row.releaseText, hdefer] using htext
      exact hsame ▸ hs
    | none =>
      refine ⟨now, rfl, ?_⟩
      have htime : r.scheduledTime = some s := by simpa [Row.releaseText, hdefer] using htext
      exact noEarlier_trans (hmark r hr hmatch.1 hstatus hdefer s htime) hs
  · exact ⟨hstatus, s, htext, hs⟩

/-- A statement that meets no row that waits for a price. -/
theorem stands_price_of_not_waits {rows : List Row} {u : Update} {target : F64}
    {currency condition : String}
    (h : (Decision.price target currency condition).Stands env met x rows)
    (hmark : ∀ r ∈ rows, r.id = u.target → ¬ r.WaitsForPrice) :
    (Decision.price target currency condition).Stands env met x (applyUpdate env u rows) := by
  rcases h with hmet | hwaits
  · exact Or.inl hmet
  · have hstands : (Decision.price target currency condition).Stands env met x rows :=
      Or.inr hwaits
    exact hstands.of_miss fun r hr hid hmatch => hmark r hr hmatch (hwaits r hr hid).1

/-- The prices of a pass meet the target of the decision, if the row still has the target that the
pass has read. -/
theorem meetsTarget_of_targetRead {r : Row} {seen : List (Seen Act Act.Res)} {now : String}
    {target : F64} {currency condition : String}
    (hprice : MarkedByPrice job seen (.update (.dueFromPriceTrigger r.id now)))
    (hread : r.TargetRead seen) (htarget : r.targetPrice = target.toSql)
    (hcurrency : r.priceCurrency = some currency) (hcondition : r.priceCondition = some condition) :
    ∃ prices, job = .priceMonitor prices ∧ meetsTarget prices target currency condition = true := by
  obtain ⟨prices, hjob, tx, htx, htxid, target', htarget', hmeets⟩ := hprice r.id now rfl
  obtain ⟨hsame, hsameCurrency, hsameCondition⟩ := hread tx htx htxid
  have hsql : target.toSql = some target' := by
    rw [← htarget, ← hsame, htarget']
  have heq : target' = target := by
    unfold F64.toSql at hsql
    split at hsql
    · cases hsql
    · exact (Option.some.inj hsql).symm
  rw [hsameCurrency, hsameCondition, hcurrency, hcondition, heq] at hmeets
  exact ⟨prices, hjob, hmeets⟩

/-- The mark of the price monitor takes a row from the price target only where its prices meet the
target. -/
theorem stands_price_of_trigger {w : World} {seen : List (Seen Act Act.Res)} {id now : String}
    {number : Nat} {target : F64} {currency condition : String}
    (h : (Decision.price target currency condition).Stands env met x w.pool)
    (hmark : MarksCurrent env ⟨w, seen, .update (.dueFromPriceTrigger id now)⟩)
    (hprice : MarkedByPrice job seen (.update (.dueFromPriceTrigger id now))) :
    (Decision.price target currency condition).Stands env
      (met || marksMet x (some (.price target currency condition))
        ⟨⟨w, seen, .update (.dueFromPriceTrigger id now)⟩, number, job⟩) x
      (applyUpdate env (.dueFromPriceTrigger id now) w.pool) := by
  rcases h with hmet | hwaits
  · exact Or.inl (by rw [hmet, Bool.true_or])
  · by_cases hhit : ∃ r ∈ w.pool, r.id = x ∧ r.id = id
    · obtain ⟨r, hr, rfl, rfl⟩ := hhit
      obtain ⟨hprices, htarget, hcurrency, hcondition⟩ := hwaits r hr rfl
      obtain ⟨prices, rfl, hmeets⟩ := meetsTarget_of_targetRead hprice
        ((hmark r hr rfl).2 hprices) htarget hcurrency hcondition
      refine Or.inl ?_
      simp [marksMet, hmeets]
    · have hstands : (Decision.price target currency condition).Stands env met x w.pool :=
        Or.inr hwaits
      have hafter := hstands.of_miss (u := .dueFromPriceTrigger id now)
        fun r hr hid hmatch => hhit ⟨r, hr, hid, hmatch⟩
      exact hafter.mono fun hmet => by rw [hmet, Bool.true_or]

/-- The rows that an `UPDATE` with this id has matched. -/
theorem exists_onRow {rows : List Row} {u : Update} {r' : Row} (hguard : ∀ r, u.guard r = true)
    (hr' : r' ∈ applyUpdate env u rows) (hid : r'.id = u.target) :
    ∃ r ∈ rows, r' = u.set env r := by
  obtain ⟨r, hr, rfl⟩ := List.mem_map.1 hr'
  rw [Update.onRow_id] at hid
  exact ⟨r, hr, if_pos ⟨hid, hguard r⟩⟩

/-- The statement of a request leaves its own decision standing. -/
theorem stands_of_decides {rows : List Row} {u : Update} (hkind : u.isPassOrRequest)
    (h : (Act.update u).decides x = some d) : d.Stands env met x (applyUpdate env u rows) := by
  cases u
  case reschedule id text defer fee now =>
    have hdecides : (if id = x then some (Decision.date text) else none) = some d := h
    split at hdecides
    · rename_i hid
      cases hdecides
      intro r' hr' hx
      obtain ⟨r, hr, rfl⟩ := exists_onRow (fun _ => rfl) hr' (hx.trans hid.symm)
      refine ⟨rfl, text, ?_, noEarlier_refl text⟩
      rcases hkind with rfl | rfl <;> rfl
    · cases hdecides
  case priceSchedule id target currency condition fee now =>
    have hdecides :
        (if id = x then some (Decision.price target currency condition) else none) = some d := h
    split at hdecides
    · rename_i hid
      cases hdecides
      refine Or.inr fun r' hr' hx => ?_
      obtain ⟨r, hr, rfl⟩ := exists_onRow (fun _ => rfl) hr' (hx.trans hid.symm)
      exact ⟨⟨rfl, rfl⟩, rfl, rfl, rfl⟩
    · cases hdecides
  all_goals
    have hdecides : none = some d := h
    cases hdecides

/-- A statement that decides nothing about the rows with the id `x` leaves the decision about
them standing. -/
theorem Decision.Stands.update {u : Update} {w : World} {number : Nat}
    {seen : List (Seen Act Act.Res)} (h : d.Stands env met x w.pool) (hkind : u.isPassOrRequest)
    (hnone : (Act.update u).decides x = none) (hmark : MarksCurrent env ⟨w, seen, .update u⟩)
    (hprice : MarkedByPrice job seen (.update u)) :
    d.Stands env (met || marksMet x (some d) ⟨⟨w, seen, .update u⟩, number, job⟩) x
      (applyUpdate env u w.pool) := by
  have hmono : ∀ {rows : List Row}, d.Stands env met x rows →
      d.Stands env (met || marksMet x (some d) ⟨⟨w, seen, .update u⟩, number, job⟩) x rows :=
    fun hstands => hstands.mono fun hmet => by rw [hmet, Bool.true_or]
  cases u
  case due id now =>
    refine hmono ?_
    cases d with
    | date text =>
      exact stands_date_of_keepsDate h (fun r hr hid => (hmark r hr hid).1) fun r => ⟨rfl, rfl⟩
    | price target currency condition =>
      exact stands_price_of_not_waits h fun r hr hid => (hmark r hr hid).2
    | removed => exact h.of_miss fun r hr hid => absurd hid (h r hr)
  case dueFromPriceTrigger id now =>
    cases d with
    | date text =>
      exact stands_date_of_keepsDate h (fun r hr hid => (hmark r hr hid).1) fun r => ⟨rfl, rfl⟩
    | price target currency condition => exact stands_price_of_trigger h hmark hprice
    | removed => exact hmono (h.of_miss fun r hr hid => absurd hid (h r hr))
  case reschedule id text defer fee now =>
    refine hmono (h.of_miss fun r _ hx hmatch => ?_)
    have hid : id = x := hmatch.symm.trans hx
    simp [Act.decides, hid] at hnone
  case priceSchedule id target currency condition fee now =>
    refine hmono (h.of_miss fun r _ hx hmatch => ?_)
    have hid : id = x := hmatch.symm.trans hx
    simp [Act.decides, hid] at hnone
  all_goals exact absurd hkind not_false

theorem rulingAfter_of_fails {e : PoolDeed} {g : Ruling}
    (h : goesThrough env e.toPerformed = false) : rulingAfter env x g e = g := by
  rw [rulingAfter, h]
  rfl

theorem rulingAfter_of_decides {e : PoolDeed} {g : Ruling}
    (h : goesThrough env e.toPerformed = true) (hdecides : e.act.decides x = some d) :
    rulingAfter env x g e = { decision := some d } := by
  rw [rulingAfter, if_pos h, hdecides]

theorem rulingAfter_of_decides_none {e : PoolDeed} {g : Ruling}
    (h : goesThrough env e.toPerformed = true) (hdecides : e.act.decides x = none) :
    rulingAfter env x g e = { g with met := g.met || marksMet x g.decision e } := by
  rw [rulingAfter, if_pos h, hdecides]

/-- An `UPDATE` of a pass or of a request. -/
theorem standing_update {w : World} {seen : List (Seen Act Act.Res)} {u : Update} {number : Nat}
    {g : Ruling} (h : Standing env x g w) (hkind : u.isPassOrRequest)
    (hmark : MarksCurrent env ⟨w, seen, .update u⟩)
    (hprice : MarkedByPrice job seen (.update u)) :
    Standing env x (rulingAfter env x g ⟨⟨w, seen, .update u⟩, number, job⟩)
      (World.exec env (.update u) w).2 := by
  rcases exec_update env w u with ⟨e, hexec⟩ | hexec
  · have hfails : goesThrough env ⟨w, seen, .update u⟩ = false := congrArg (·.1.isOk) hexec
    rw [rulingAfter_of_fails hfails, hexec]
    exact h
  · have hok : goesThrough env ⟨w, seen, .update u⟩ = true := congrArg (·.1.isOk) hexec
    cases hdecides : (Act.update u).decides x with
    | some decision =>
      rw [rulingAfter_of_decides hok hdecides, hexec]
      intro d hd
      cases hd
      exact stands_of_decides hkind hdecides
    | none =>
      rw [rulingAfter_of_decides_none hok hdecides, hexec]
      intro d hd
      have hsome : g.decision = some d := hd
      rw [hsome]
      exact (h d hd).update hkind hdecides hmark hprice

/-- A removal by the user. -/
theorem standing_delete {w : World} {seen : List (Seen Act Act.Res)} {number : Nat}
    {g : Ruling} (h : Standing env x g w) :
    Standing env x (rulingAfter env x g ⟨⟨w, seen, .delete x⟩, number, job⟩)
      (World.exec env (.delete x) w).2 := by
  rcases exec_delete env w x with ⟨e, hexec⟩ | hexec
  · have hfails : goesThrough env ⟨w, seen, .delete x⟩ = false := congrArg (·.1.isOk) hexec
    rw [rulingAfter_of_fails hfails, hexec]
    exact h
  · have hok : goesThrough env ⟨w, seen, .delete x⟩ = true := congrArg (·.1.isOk) hexec
    have hdecides : (Act.delete x).decides x = some .removed := if_pos rfl
    rw [rulingAfter_of_decides hok hdecides, hexec]
    intro d hd
    cases hd
    exact fun r hr => by simpa using (List.mem_filter.1 hr).2

/-- A step that is no `UPDATE` and decides nothing leaves the ruling alone. -/
theorem rulingAfter_of_no_update {e : PoolDeed} {g : Ruling} (hdecides : e.act.decides x = none)
    (hupdate : ∀ u, e.act ≠ .update u) : rulingAfter env x g e = g := by
  have hmarks : marksMet x g.decision e = false := by
    unfold marksMet
    split
    · rename_i hact _
      exact absurd hact (hupdate _)
    · rfl
  unfold rulingAfter
  split
  · rw [hdecides]
    show { g with met := g.met || marksMet x g.decision e } = g
    rw [hmarks, Bool.or_false]
  · rfl

/-- One step of a pass or of a request leaves the user's last decision standing. -/
theorem standing_step {e : PoolDeed} {g : Ruling} (h : Standing env x g e.state)
    (hact : e.act.IsPassOrRequest) (hmark : MarksCurrent env e.toPerformed)
    (hprice : MarkedByPrice e.job e.seen e.act) :
    Standing env x (rulingAfter env x g e) (World.exec env e.act e.state).2 := by
  obtain ⟨⟨w, seen, a⟩, number, job⟩ := e
  dsimp only at h hact hprice ⊢
  by_cases hu : ∃ u, a = .update u
  · obtain ⟨u, rfl⟩ := hu
    exact standing_update h (hact.2 u rfl) hmark hprice
  · by_cases hdelete : a = .delete x
    · subst hdelete
      exact standing_delete h
    · have hnone : a.decides x = none := by
        cases a <;> first | rfl | skip
        case update u => exact absurd ⟨u, rfl⟩ hu
        case delete id => exact if_neg fun hid => hdelete (by rw [hid])
      rw [rulingAfter_of_no_update hnone fun u hau => hu ⟨u, hau⟩]
      intro d hd
      exact (h d hd).of_serviced (exec_serviced env hact.1 (fun u hau => hu ⟨u, hau⟩) w)

/-! ### The paths of the passes and of the requests -/

/-- What every action of a pass or of a request is, after what the program has seen. -/
def PassStep (job : PoolJob) (seen : List (Seen Act Act.Res)) (a : Act) : Prop :=
  a.IsPassOrRequest ∧ MarkedByPrice job seen a

abbrev passContract (job : PoolJob) : Contract Act Act.Res (List (Seen Act Act.Res)) :=
  pathContract anyAnswer (PassStep job)

/-- An action of a pass or of a request that is no mark of the price monitor. -/
def Act.IsUnpriced (a : Act) : Prop :=
  a.IsPassOrRequest ∧ ∀ id now, a ≠ .update (.dueFromPriceTrigger id now)

theorem isUnpriced_of_no_write {a : Act} (hinsert : ∀ row, a ≠ .insert row)
    (hupdate : ∀ u, a ≠ .update u) : a.IsUnpriced :=
  ⟨⟨hinsert, fun u hu => absurd hu (hupdate u)⟩, fun _ _ => hupdate _⟩

theorem isUnpriced_update {u : Update} (hkind : u.isPassOrRequest)
    (hu : ∀ id now, u ≠ .dueFromPriceTrigger id now) : (Act.update u).IsUnpriced := by
  refine ⟨⟨fun row h => ?_, fun u' hu' => ?_⟩, fun id now h => ?_⟩
  · cases h
  · cases hu'
    exact hkind
  · cases h
    exact hu id now rfl

theorem passStep_of_work {seen : List (Seen Act Act.Res)} {a : Act}
    (h : a.Work Act.IsUnpriced) : PassStep job seen a := by
  have hunpriced : a.IsUnpriced := by
    rcases h with h | h
    · refine isUnpriced_of_no_write ?_ ?_
      all_goals
        rintro _ rfl
        cases h
    · exact h
  exact ⟨hunpriced.1, fun id now ha => absurd ha (hunpriced.2 id now)⟩

theorem onPaths_of_work {α : Type} {prog : M α} (h : IsWork Act.IsUnpriced prog)
    {seen : List (Seen Act Act.Res)} : prog.OnPaths anyAnswer (PassStep job) seen :=
  Prog.Keeps.onPaths (I := fun _ => True)
    (Prog.keeps_of_uses (fun _ ha _ _ _ => ⟨passStep_of_work ha, fun _ _ _ => trivial⟩) h) trivial

/-- An action that is no query keeps what the last query showed. -/
theorem keeps_lastRead {txs : List BroadcastTx} {a : Act} (ha : ∀ r, rowsRead ⟨a, r⟩ = none)
    (hstep : ∀ seen, lastRead seen = txs → PassStep job seen a) :
    (perform a).Keeps (passContract job) fun seen => lastRead seen = txs := by
  refine Prog.keeps_perform a fun seen hseen _ => ⟨hstep seen hseen, ?_⟩
  rintro r seen' ⟨-, rfl⟩
  rw [lastRead_append, ha r]
  exact hseen

/-- The mark of a row that the price monitor has read, after it has compared the prices. -/
theorem keeps_checkPriceTrigger {prices : String → Option F64} {txs : List BroadcastTx}
    {tx : BroadcastTx} (htx : tx ∈ txs) :
    (checkPriceTrigger env prices tx).Keeps (passContract (.priceMonitor prices))
      fun seen => lastRead seen = txs := by
  have hplain : ∀ {a : Act}, a.isPlain = true →
      (perform a).Keeps (passContract (.priceMonitor prices)) fun seen => lastRead seen = txs := by
    intro a ha
    refine keeps_lastRead (rowsRead_of_isPlain ha) fun seen _ => passStep_of_work (Or.inr ?_)
    refine isUnpriced_of_no_write ?_ ?_
    all_goals
      rintro _ rfl
      cases ha
  unfold checkPriceTrigger
  cases htrigger : priceTriggerMet prices tx with
  | false => exact Prog.keeps_ret _
  | true =>
    have hclock : (nowText env).Keeps (passContract (.priceMonitor prices))
        fun seen => lastRead seen = txs :=
      Prog.keeps_bind (hplain rfl) fun _ => Prog.keeps_ret _
    refine keeps_logErrorIf _ (Prog.keeps_bind hclock fun now => ?_)
    refine Prog.keeps_bind (keeps_orFail _ (keeps_lastRead (fun _ => rfl) fun seen hseen => ?_))
      fun _ => keeps_orFail _ (hplain rfl)
    refine ⟨⟨fun row h => ?_, fun u hu => ?_⟩, fun id now' hu => ?_⟩
    · cases h
    · cases hu
      trivial
    · cases hu
      refine ⟨prices, rfl, tx, hseen ▸ htx, rfl, ?_⟩
      unfold priceTriggerMet at htrigger
      split at htrigger
      · rename_i target current htarget hprice
        refine ⟨target, htarget, ?_⟩
        unfold meetsTarget
        rw [hprice]
        exact htrigger
      · cases htrigger

/-- The price monitor marks rows that it has read with a target that was met. -/
theorem onPaths_priceMonitorPass {prices : String → Option F64} {p : Proc} :
    (priceMonitorPass env p prices).OnPaths anyAnswer (PassStep (.priceMonitor prices)) [] := by
  refine Prog.Keeps.onPaths (I := fun _ => True) ?_ trivial
  refine Prog.keeps_bind (Prog.keeps_of_uses (fun _ ha _ _ _ => ⟨passStep_of_work ha,
    fun _ _ _ => trivial⟩) (clock_configNetwork p).work) fun network => ?_
  intro seen _
  refine (Prog.wp_bind _ _ _ _).2 ((wp_orFail _ _ _ _).2 (Prog.wp_perform_path _ _ _
    (passStep_of_work (Or.inl rfl)) fun r _ => ?_))
  cases r with
  | error e => trivial
  | ok txs =>
    refine Prog.Keeps.onPaths (I := fun seen => lastRead seen = txs)
      (Prog.keeps_forEach txs fun tx htx => keeps_checkPriceTrigger htx) ?_
    rw [lastRead_append]
    rfl

/-- Every pass and every request, on each of its paths. -/
theorem onPaths_poolJob (job : PoolJob) :
    (job.prog env).OnPaths anyAnswer (PassStep job) [] := by
  cases job with
  | priceMonitor prices => exact onPaths_priceMonitorPass
  | blockHeightMonitor =>
    exact onPaths_of_work (work_blockHeightMonitorPass env .daemon fun _ _ =>
      isUnpriced_update trivial (by simp))
  | pendingDue =>
    exact onPaths_of_work (Prog.uses_bind (work_pendingDuePart env .daemon
      (isUnpriced_of_no_write (by simp) (by simp)) (fun _ => isUnpriced_of_no_write (by simp)
        (by simp)) fun _ _ => isUnpriced_update trivial (by simp)) fun _ => Prog.uses_ret _)
  | scheduleAt id time fee =>
    exact onPaths_of_work (Prog.uses_bind (work_scheduleAt env .daemon fun _ _ _ hdefer =>
      isUnpriced_update hdefer (by simp)) fun _ => Prog.uses_ret _)
  | scheduleByPrice id target currency condition fee =>
    exact onPaths_of_work (Prog.uses_bind (work_scheduleByPrice env .daemon fun _ _ _ =>
      isUnpriced_update trivial (by simp)) fun _ => Prog.uses_ret _)
  | remove id =>
    exact onPaths_of_work (work_removeTransaction env .daemon
      (isUnpriced_of_no_write (by simp) (by simp)))
  | reads prog quiet => exact onPaths_of_work quiet.work

end

/-! ### Interleavings -/

/-- What the passes and the requests do, from a world in which nothing runs. -/
abbrev poolDeeds (env : Env) (w : World) (os : List (Order PoolJob)) : List PoolDeed :=
  Effects.Config.deeds (World.exec env) (PoolJob.prog env) ⟨w, []⟩ {} os

/-- The world and the running programs after them. -/
abbrev poolEnd (env : Env) (w : World) (os : List (Order PoolJob)) :
    Effects.Config Act Act.Res Failure World :=
  Effects.Config.exec (World.exec env) ⟨w, []⟩ (os.map (Order.choice (PoolJob.prog env)))

/-- The ruling on the rows with the id `x` at the end. -/
def lastRuling (env : Env) (w : World) (os : List (Order PoolJob)) (x : String) : Ruling :=
  (poolDeeds env w os).foldl (rulingAfter env x) {}

/-- In every interleaving of single statements whose marks are current, the user's last decision
on a row is honoured at the end. -/
theorem user_decision_stands (env : Env) (w : World) (os : List (Order PoolJob))
    (hmarks : ∀ d ∈ poolDeeds env w os, MarksCurrent env d.toPerformed) (x : String) :
    ∀ d ∈ (lastRuling env w os x).decision,
      d.Honoured env (lastRuling env w os x).met x (poolEnd env w os).state.pool := by
  have hpaths : ∀ d ∈ poolDeeds env w os, PassStep d.job d.seen d.act :=
    Config.required_of_deed (anyAnswer_exec env) fun job _ => onPaths_poolJob job
  have hstanding : Standing env x (lastRuling env w os x) (poolEnd env w os).state := by
    refine Config.exec_deeds (I := fun before w => Standing env x
      (before.foldl (rulingAfter env x) {}) w) (fun d hd => by cases hd)
      fun before d after hsplit hI => ?_
    have hd : d ∈ poolDeeds env w os := Config.mem_of_split hsplit
    rw [List.foldl_append]
    exact standing_step hI (hpaths d hd).1 (hmarks d hd) (hpaths d hd).2
  exact fun d hd => (hstanding d hd).honoured

/-- A pending row that waits for a price, and one that waits for a block. -/
def priceRow : Row :=
  resealed sampleEnv { sampleRow with
    scheduleTrigger := some "price", targetPrice := some F64.zero, priceCurrency := some "usd"
    priceCondition := some "above" }

def byBlockRow : Row :=
  resealed sampleEnv { sampleRow with broadcastMode := some "by_block", nlocktime := some 50 }

/-- Every currency has the price zero. -/
def zeroPrices (_ : String) : Option F64 := some F64.zero

/-- The price one. -/
def onePrice : F64 := ⟨0x3FF0000000000000⟩

/-- A pass of the price monitor marks a row, and then the user gives the row a target that another
pass does not find met. -/
def markThenTarget : List (Order PoolJob) :=
  .start (.priceMonitor zeroPrices) :: List.replicate 5 (.step 0) ++
    .start (.scheduleByPrice "id0" onePrice "usd" "above" F64.zero) :: List.replicate 6 (.step 1) ++
    .start (.priceMonitor zeroPrices) :: List.replicate 5 (.step 2)

theorem user_decision_stands_markThenTarget :
    (Decision.price onePrice "usd" "above").Honoured sampleEnv false "id0"
      (poolEnd sampleEnv (servedWorld priceRow) markThenTarget).state.pool := by
  have hruling : (lastRuling sampleEnv (servedWorld priceRow) markThenTarget "id0").decision =
      some (.price onePrice "usd" "above") := by
    decide +kernel
  have hunmet : (lastRuling sampleEnv (servedWorld priceRow) markThenTarget "id0").met = false := by
    decide +kernel
  have hstands := user_decision_stands sampleEnv (servedWorld priceRow) markThenTarget
    (by decide +kernel) "id0" _ hruling
  rw [hunmet] at hstands
  exact hstands

/-- The block-height monitor has read a row that waits for a block. Then the user gives the row a
date. -/
def readThenDate : List (Order PoolJob) :=
  .start .blockHeightMonitor :: List.replicate 7 (.step 0) ++
    .start (.scheduleAt "id0" 1000 F64.zero) :: List.replicate 6 (.step 1)

/-- The daemon, in this world, finds the row due. -/
def dueIn (env : Env) (now : DateTime) (w : World) (r : Row) : Bool :=
  match mapBroadcastRow env now r with
  | .ok tx => ((isTxDueForBroadcast .daemon tx now).run (World.exec env) w).1 = .ok true
  | .error _ => false

theorem Row.NotDueAt.dueIn_eq_false {env : Env} {now : DateTime} {r : Row}
    (h : r.NotDueAt env now) (w : World) : dueIn env now w r = false := by
  unfold dueIn
  split
  · rename_i tx htx
    exact decide_eq_false (h tx htx .daemon w)
  · rfl

/-- The request has returned success, and then the monitor makes the row due at once. -/
theorem mark_due_overrides_date :
    ((poolEnd sampleEnv (servedWorld byBlockRow) readThenDate).tasks[1]?).bind
        (·.prog.outcome) = some (.ok ()) ∧
      ¬ ∀ (env : Env) (w : World) (os : List (Order PoolJob)) (x : String),
        ∀ d ∈ (lastRuling env w os x).decision,
          d.Honoured env (lastRuling env w os x).met x (poolEnd env w os).state.pool := by
  refine ⟨by decide +kernel, fun h => ?_⟩
  have hhonoured := h sampleEnv (servedWorld byBlockRow)
    (readThenDate ++ List.replicate 3 (.step 0)) "id0" (.date "1000") (by decide +kernel)
  have hdue : ∃ r ∈ (poolEnd sampleEnv (servedWorld byBlockRow)
      (readThenDate ++ List.replicate 3 (.step 0))).state.pool,
      r.id = "id0" ∧ dueIn sampleEnv 500 (servedWorld byBlockRow) r = true := by
    decide +kernel
  obtain ⟨r, hr, hid, hdue⟩ := hdue
  have hnot := hhonoured r hr hid 1000 (by decide) 500 (by decide)
  rw [hnot.dueIn_eq_false] at hdue
  cases hdue

end BroadcastPool
