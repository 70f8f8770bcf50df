import BroadcastPool.Proofs.Db.Frame

/-!
# `BroadcastPool.Proofs.Db.Seal`: what each statement does to the row MACs

`AllVerify` says that every row of the table verifies. `AllVerifyBut id` allows the rows with
one id to have a stale MAC: it is the state between a mutator's own statement and its
`reseal_row_mac`. `applyUpdate_allVerifyBut` and `resealRow_allVerify` are the two halves.
The statements that write no covered column keep `AllVerify` on their own
(`applyUpdate_uncovered`, `backfillRow_verifies`).
-/

set_option autoImplicit false

namespace BroadcastPool

variable {env : Env}

/-- Every row of the table verifies. -/
def AllVerify (env : Env) (rows : List Row) : Prop :=
  ∀ r ∈ rows, r.Readable ∧ r.MacMatches env

/-- Every row is readable, and every row with another id verifies. -/
def AllVerifyBut (env : Env) (id : String) (rows : List Row) : Prop :=
  ∀ r ∈ rows, r.Readable ∧ (r.id ≠ id → r.MacMatches env)

/-- Two rows that agree on the covered columns and on `row_mac` have the same verdict. -/
theorem macMatches_congr {r r' : Row} (hinput : ∀ n, r'.macInput env n = r.macInput env n)
    (hn : r'.nlocktime = r.nlocktime) (hmac : r'.rowMac = r.rowMac) :
    r'.MacMatches env ↔ r.MacMatches env := by
  unfold Row.MacMatches Row.expectedMac
  simp only [hinput, hn, hmac]

theorem resealed_eq {r : Row} {n : Int} (h : r.nlocktime = some n) :
    resealed env r = { r with rowMac := some (r.expectedMac env n) } := by
  unfold resealed
  split
  · rename_i hnone
    rw [h] at hnone
    cases hnone
  · rename_i m hm
    rw [h] at hm
    cases hm
    rfl

/-- A resealed row has the MAC its columns call for. -/
theorem resealed_macMatches {r : Row} (h : r.Readable) : (resealed env r).MacMatches env := by
  obtain ⟨n, hn⟩ := h.nlocktime
  rw [resealed_eq hn]
  exact ⟨n, hn, rfl⟩

theorem resealed_readable {r : Row} (h : r.Readable) : (resealed env r).Readable := by
  obtain ⟨n, hn⟩ := h.nlocktime
  rw [resealed_eq hn]
  exact ⟨⟨n, hn⟩, h.blockHeight, h.targetFeeRate, h.utxoCount, h.totalValueBtc, h.retryCount⟩

namespace Update

/-- The parameters keep the row readable: a block height is not negative, and a fee bound as
text looks like a number. -/
def Fits (env : Env) : Update → Prop
  | confirmed _ blockHeight _ => 0 ≤ blockHeight
  | scheduleRaw _ _ feeText _ => (env.realAffinity feeText).isSome
  | _ => True

/-- The update writes no covered column. -/
def isUncovered : Update → Bool
  | broadcastMiss .. | rebroadcastAt .. => true
  | _ => false

theorem ofFloat?_ne_text (x : Option F64) (s : String) : RealColumn.ofFloat? x ≠ .text s := by
  cases x with
  | none => simp [RealColumn.ofFloat?]
  | some x =>
    unfold RealColumn.ofFloat?
    cases h : x.toSql <;> simp [h]

theorem set_readable {u : Update} (hu : u.Fits env) {r : Row} (h : r.Readable) :
    (u.set env r).Readable := by
  obtain ⟨hn, hb, hf, hc, ht, hr⟩ := h
  cases u <;> refine ⟨hn, ?_, ?_, hc, ht, hr⟩ <;> first | exact hb | exact hf | skip
  case confirmed.refine_1 id height now =>
    intro n h
    cases h
    exact hu
  case reschedule.refine_2 id time defer fee now => exact ofFloat?_ne_text (some fee)
  case priceSchedule.refine_2 id target currency condition fee now =>
    exact ofFloat?_ne_text (some fee)
  case scheduleRaw.refine_2 id time fee now =>
    obtain ⟨x, hx⟩ := Option.isSome_iff_exists.1 hu
    simp only [set, hx]
    exact ofFloat?_ne_text _

theorem onRow_readable {u : Update} {r : Row} (hu : r.id = u.target → u.Fits env)
    (h : r.Readable) : (u.onRow env r).Readable := by
  unfold onRow
  split
  · rename_i hmatch
    exact set_readable (hu hmatch.1) h
  · exact h

theorem onRow_uncovered {u : Update} (hu : u.isUncovered = true) (r : Row) :
    (u.onRow env r).MacMatches env ↔ r.MacMatches env := by
  unfold onRow
  split
  · cases u <;> cases hu <;> exact macMatches_congr (fun _ => rfl) rfl rfl
  · exact Iff.rfl

/-- The raw `UPDATE` of `schedule_transaction`, on a row that holds its values already. -/
theorem scheduleRaw_macMatches {id scheduledTime feeText now : String} {r : Row}
    (hstatus : r.status = "scheduled") (htime : r.scheduledTime = some scheduledTime) :
    ((scheduleRaw id scheduledTime feeText now).set env r).MacMatches env ↔
      r.MacMatches env := by
  refine macMatches_congr (fun n => ?_) rfl rfl
  simp only [Row.macInput, set, hstatus, htime]

end Update

/-- A statement that hits no row changes nothing. -/
theorem applyUpdate_of_count_zero {u : Update} {rows : List Row}
    (h : updateCount u rows = 0) : applyUpdate env u rows = rows := by
  unfold applyUpdate
  rw [List.map_congr_left (g := id), List.map_id]
  intro r hr
  have hr' := List.countP_eq_zero.1 h r hr
  unfold Update.onRow
  rw [if_neg (by simpa using hr')]
  rfl

/-- A mutator's own statement: only the rows it names can be stale after it. -/
theorem applyUpdate_allVerifyBut {u : Update} {rows : List Row} (hu : u.Fits env)
    (h : AllVerify env rows) : AllVerifyBut env u.target (applyUpdate env u rows) := by
  intro r hr
  obtain ⟨r₀, hr₀, rfl⟩ := List.mem_map.1 hr
  obtain ⟨hread, hmac⟩ := h r₀ hr₀
  refine ⟨Update.onRow_readable (fun _ => hu) hread, fun hne => ?_⟩
  rw [Update.onRow_id] at hne
  rw [Update.onRow_of_ne hne]
  exact hmac

/-- A statement on columns that the MAC does not cover. -/
theorem applyUpdate_uncovered {u : Update} {rows : List Row} (hu : u.isUncovered = true)
    (h : AllVerify env rows) : AllVerify env (applyUpdate env u rows) := by
  intro r hr
  obtain ⟨r₀, hr₀, rfl⟩ := List.mem_map.1 hr
  obtain ⟨hread, hmac⟩ := h r₀ hr₀
  refine ⟨Update.onRow_readable (fun _ => ?_) hread, (Update.onRow_uncovered hu r₀).2 hmac⟩
  cases u <;> cases hu <;> trivial

/-- `reseal_row_mac` after a mutator: a success seals the rows again, and it can only refuse
when there is no such row. -/
theorem resealRow_allVerify {id : String} {rows : List Row} (h : AllVerifyBut env id rows) :
    match resealRow env id rows with
    | .ok rows' => AllVerify env rows'
    | .error _ => AllVerify env rows := by
  unfold resealRow
  cases hfind : rows.find? (·.id = id) with
  | none =>
    intro r hr
    have hne : ¬ (decide (r.id = id)) = true := List.find?_eq_none.1 hfind r hr
    exact ⟨(h r hr).1, (h r hr).2 (by simpa using hne)⟩
  | some r₀ =>
    have hmem : r₀ ∈ rows := List.mem_of_find?_eq_some hfind
    obtain ⟨n, hn⟩ := (h r₀ hmem).1.nlocktime
    simp only [hn]
    intro r hr
    obtain ⟨r₁, hr₁, rfl⟩ := List.mem_map.1 hr
    obtain ⟨hread, hmac⟩ := h r₁ hr₁
    by_cases hid : r₁.id = id
    · rw [if_pos hid]
      exact ⟨resealed_readable hread, resealed_macMatches hread⟩
    · rw [if_neg hid]
      exact ⟨hread, hmac hid⟩

/-- `backfill_output_values` writes an uncovered column, and never NULL. -/
theorem backfillRow_verifies {r : Row} (h : r.Readable ∧ r.MacMatches env) :
    (backfillRow env r).Readable ∧ (backfillRow env r).MacMatches env := by
  obtain ⟨⟨hn, hb, hf, hc, ht, hr⟩, hmac⟩ := h
  unfold backfillRow
  split
  · split
    · split
      · exact ⟨⟨hn, hb, hf, hc, by simp, hr⟩,
          (macMatches_congr (fun _ => rfl) rfl rfl).2 hmac⟩
      · exact ⟨⟨hn, hb, hf, hc, ht, hr⟩, hmac⟩
    · exact ⟨⟨hn, hb, hf, hc, ht, hr⟩, hmac⟩
  · exact ⟨⟨hn, hb, hf, hc, ht, hr⟩, hmac⟩

/-- A new row that verifies joins a table that verifies. -/
theorem insertRow_allVerify {row : Row} {rows rows' : List Row}
    (hrow : row.Readable ∧ row.MacMatches env) (h : AllVerify env rows)
    (hins : insertRow row rows = .ok rows') : AllVerify env rows' := by
  unfold insertRow at hins
  split at hins
  · cases hins
  · cases hins
    intro r hr
    rcases List.mem_append.1 hr with hr | hr
    · exact h r hr
    · rw [List.mem_singleton.1 hr]
      exact hrow

theorem asI64_of_lt {n : Nat} (h : n < 2 ^ 63) : asI64 n = n := by
  unfold asI64
  have hmod : n % 2 ^ 64 = n := Nat.mod_eq_of_lt (by omega)
  rw [hmod, if_pos h]

theorem map_migration007_eq {rows : List Row}
    (h : ∀ r ∈ rows, ¬ (r.broadcastMode = some "immediate" ∧ r.status = "pending")) :
    rows.map migration007 = rows := by
  rw [List.map_congr_left (g := id), List.map_id]
  intro r hr
  unfold migration007
  rw [if_neg (h r hr)]
  rfl

/-- A new row is sealed over the values that land in its columns. -/
theorem newRow_verifies {tx : NewBroadcastTx} {id now encTxHex : String}
    {encDest encSource : Option String} (hlt : tx.nlocktime.getD 0 < 2 ^ 63)
    (hvalue : (newRow env tx id now encTxHex encDest encSource).totalValueBtc ≠ none) :
    (newRow env tx id now encTxHex encDest encSource).Readable ∧
      (newRow env tx id now encTxHex encDest encSource).MacMatches env := by
  constructor
  · refine ⟨⟨tx.nlocktime.getD 0, rfl⟩, ?_, Update.ofFloat?_ne_text tx.targetFeeRate, ?_,
      hvalue, ?_⟩
    · intro n h
      cases h
    · exact ⟨tx.utxoCount.getD 1, rfl⟩
    · exact ⟨0, rfl⟩
  · refine ⟨(tx.nlocktime.getD 0 : Nat), rfl, ?_⟩
    have hcast : asI64 (tx.nlocktime.getD 0) = (tx.nlocktime.getD 0 : Nat) := asI64_of_lt hlt
    simp only [newRow, hcast]
    rfl

end BroadcastPool
