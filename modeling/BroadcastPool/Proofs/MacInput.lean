import BroadcastPool.Lib.Utf8
import BroadcastPool.Proofs.HalfDone
import Mathlib

/-!
# `BroadcastPool.Proofs.MacInput`: the text under a row MAC is unambiguous

`MacFields` are the ten fields that `row_mac_input` joins. Three places of the source put them
together: `insert_broadcast_tx` from its arguments and the schema's defaults (`insertFields`),
`reseal_row_mac` from the columns it selects (`resealFields`), and `map_broadcast_row` from the
columns of the row it reads (`readFields`); `tampered_iff_readFields` says that its verdict is about
these fields.

The separator cannot be shifted from one field into another: without the byte `0x1f` in a field,
equal bytes come from equal fields (`bytes_eq_iff`). And the three places agree: a row that was
inserted or resealed carries the MAC of the fields that a reader rebuilds (`SealedOver`), in
every run of the program (`mac_input_unambiguous`).
-/

set_option autoImplicit false

namespace BroadcastPool

open Effects

/-- The ten fields that a row MAC covers. A field whose column can be NULL is optional, and the
price stands as its text. -/
structure MacFields where
  id : String
  status : String
  mode : Option String
  scheduled : Option String
  nlocktime : Int
  targetPrice : Option String
  scheduleTrigger : Option String
  priceCondition : Option String
  encTxHex : String
  encDest : Option String
deriving DecidableEq, Repr

namespace MacFields

/-- What `row_mac_input` makes of the fields, as a text. -/
def text (f : MacFields) : String :=
  rowMacInput f.id f.status (f.mode.getD "") (f.scheduled.getD "") f.nlocktime
    (f.targetPrice.getD "") (f.scheduleTrigger.getD "") (f.priceCondition.getD "") f.encTxHex
    (f.encDest.getD "")

/-- What `row_mac_input` makes of the fields. -/
def bytes (f : MacFields) : ByteArray := f.text.toUTF8

/-- The fields that are texts. -/
def texts (f : MacFields) : List String :=
  [f.id, f.status, f.mode.getD "", f.scheduled.getD "", f.targetPrice.getD "",
    f.scheduleTrigger.getD "", f.priceCondition.getD "", f.encTxHex, f.encDest.getD ""]

/-- No text field contains the byte of the separator. -/
def Unseparated (f : MacFields) : Prop := ∀ s ∈ f.texts, 0x1f ∉ s.toUTF8.data.toList

/-- The fields with NULL as the empty text. -/
def orEmpty (f : MacFields) : MacFields :=
  { f with
    mode := some (f.mode.getD "")
    scheduled := some (f.scheduled.getD "")
    targetPrice := some (f.targetPrice.getD "")
    scheduleTrigger := some (f.scheduleTrigger.getD "")
    priceCondition := some (f.priceCondition.getD "")
    encDest := some (f.encDest.getD "") }

/-- The fields are equal, where NULL and the empty text count as one value. -/
def Same (f g : MacFields) : Prop := f.orEmpty = g.orEmpty

/-- The parts of the join. -/
def parts (f : MacFields) : List String :=
  [f.id, f.status, f.mode.getD "", f.scheduled.getD "", toString f.nlocktime,
    f.targetPrice.getD "", f.scheduleTrigger.getD "", f.priceCondition.getD "", f.encTxHex,
    f.encDest.getD ""]

theorem text_eq_intercalate (f : MacFields) :
    f.text = (String.singleton '\x1f').intercalate f.parts := rfl

theorem Same.refl (f : MacFields) : f.Same f := rfl

/-- The parts are the fields, with NULL as the empty text. -/
theorem parts_inj {f g : MacFields} : f.parts = g.parts ↔ f.Same g := by
  have hnumber : toString f.nlocktime = toString g.nlocktime ↔ f.nlocktime = g.nlocktime := by
    refine ⟨fun h => ?_, fun h => congrArg _ h⟩
    rw [Int.toString_eq_repr, Int.toString_eq_repr] at h
    exact Int.repr_injective h
  simp only [parts, Same, orEmpty, List.cons.injEq, MacFields.mk.injEq, Option.some.injEq, hnumber,
    and_true]

/-- No part contains the separator. -/
theorem separator_notMem_parts {f : MacFields} (h : f.Unseparated) :
    ∀ s ∈ f.parts, '\x1f' ∉ s.toList := by
  have htext : ∀ s ∈ f.texts, '\x1f' ∉ s.toList := fun s hs hmem =>
    h s hs (Text.mem_toUTF8_of_mem (by decide) hmem)
  intro s hs
  by_cases hnumber : s = toString f.nlocktime
  · rw [hnumber]
    exact Text.notMem_toString_int (by decide) (by decide) f.nlocktime
  · refine htext s ?_
    simp only [parts, texts, List.mem_cons, hnumber, false_or] at hs ⊢
    exact hs

/-- Without the separator in a field, equal bytes come from equal fields. -/
theorem bytes_eq_iff {f g : MacFields} (hf : f.Unseparated) (hg : g.Unseparated) :
    f.bytes = g.bytes ↔ f.Same g := by
  rw [← parts_inj]
  constructor
  · intro h
    have htext : f.text = g.text := String.toByteArray_inj.1 h
    rw [text_eq_intercalate, text_eq_intercalate] at htext
    exact Text.intercalate_injective (separator_notMem_parts hf) (separator_notMem_parts hg)
      (List.cons_ne_nil _ _) (List.cons_ne_nil _ _) htext
  · intro h
    unfold bytes
    rw [text_eq_intercalate, text_eq_intercalate, h]

end MacFields

/-! ### The three places that put the fields together -/

/-- The fields that `insert_broadcast_tx` seals. The price columns are not part of the `INSERT`,
and the trigger has the default of the schema. -/
def insertFields (env : Env) (tx : NewBroadcastTx) (id encTxHex : String)
    (encDest : Option String) : MacFields where
  id := id
  status := TxStatus.pending.asStr
  mode := some (tx.broadcastMode.getD "immediate")
  scheduled := tx.scheduledTime.map env.toRfc3339
  nlocktime := asI64 (tx.nlocktime.getD 0)
  targetPrice := some ""
  scheduleTrigger := some "datetime"
  priceCondition := some ""
  encTxHex := encTxHex
  encDest := encDest

/-- The fields that `reseal_row_mac` seals for `id`, where its query finds the row `r`. A NULL
in the column of a number is an error. -/
def resealFields (env : Env) (id : String) (r : Row) : Option MacFields :=
  r.nlocktime.map fun nlocktime =>
    { id, status := r.status, mode := r.broadcastMode, scheduled := r.scheduledTime, nlocktime
      targetPrice := r.targetPrice.map env.f64ToString, scheduleTrigger := r.scheduleTrigger
      priceCondition := r.priceCondition, encTxHex := r.txHex, encDest := r.destinationAddress }

/-- The fields that `map_broadcast_row` rebuilds from the columns. -/
def readFields (env : Env) (r : Row) : Option MacFields :=
  r.nlocktime.map fun nlocktime =>
    { id := r.id, status := r.status, mode := r.broadcastMode, scheduled := r.scheduledTime
      nlocktime, targetPrice := r.targetPrice.map env.f64ToString
      scheduleTrigger := r.scheduleTrigger, priceCondition := r.priceCondition
      encTxHex := r.txHex, encDest := r.destinationAddress }

/-- A float is printed so that it can be read back, and never as the empty text. -/
structure Env.PrintsFloats (env : Env) : Prop where
  injective : ∀ x y : F64, x.isNan = false → y.isNan = false →
    env.f64ToString x = env.f64ToString y → x = y
  nonempty : ∀ x : F64, env.f64ToString x ≠ ""

/-- The row carries the MAC of the fields `f`, and a reader rebuilds these fields. -/
def Row.SealedOver (env : Env) (r : Row) (f : MacFields) : Prop :=
  r.rowMac = some (env.mac env.key f.text) ∧ ∃ g, readFields env r = some g ∧ f.Same g

section
variable {env : Env} {r : Row}

/-- The verdict of `map_broadcast_row` compares the stored MAC with that of the rebuilt fields. -/
theorem tampered_iff_readFields {now : DateTime} {tx : BroadcastTx}
    (h : mapBroadcastRow env now r = .ok tx) :
    ∃ f, readFields env r = some f ∧
      (tx.tampered = some false ↔ r.rowMac = some (env.mac env.key f.text)) := by
  obtain ⟨n, nl, bh, fee, cnt, tot, ret, hn, -, -, -, -, -, -, rfl⟩ := mapBroadcastRow_eq_ok.1 h
  refine ⟨_, by rw [readFields, hn]; rfl, ?_⟩
  simp only [Option.some.injEq, decide_eq_false_iff_not, not_not]
  exact Iff.rfl

/-- The text of the price determines the price, which is NULL if the text is empty. SQLite stores
no NaN. -/
theorem targetPrice_inj {r' : Row} {f g : MacFields} (hprints : env.PrintsFloats)
    (hf : readFields env r = some f) (hg : readFields env r' = some g)
    (hreal : r.targetPrice.any F64.isNan = false) (hreal' : r'.targetPrice.any F64.isNan = false)
    (h : f.Same g) : r.targetPrice = r'.targetPrice := by
  obtain ⟨n, -, rfl⟩ := Option.map_eq_some_iff.1 hf
  obtain ⟨n', -, rfl⟩ := Option.map_eq_some_iff.1 hg
  have htext : ((r.targetPrice.map env.f64ToString).getD "") =
      (r'.targetPrice.map env.f64ToString).getD "" :=
    Option.some.inj (congrArg MacFields.targetPrice h)
  cases hx : r.targetPrice with
  | none =>
    cases hy : r'.targetPrice with
    | none => rfl
    | some y =>
      rw [hx, hy] at htext
      exact absurd htext.symm (hprints.nonempty y)
  | some x =>
    cases hy : r'.targetPrice with
    | none =>
      rw [hx, hy] at htext
      exact absurd htext (hprints.nonempty x)
    | some y =>
      rw [hx, hy] at htext
      rw [hx] at hreal
      rw [hy] at hreal'
      exact congrArg some (hprints.injective x y hreal hreal' htext)

/-- A new row is sealed over the arguments of the insert. -/
theorem newRow_sealedOver {tx : NewBroadcastTx} {id now encTxHex : String}
    {encDest encSource : Option String} (hlt : tx.nlocktime.getD 0 < 2 ^ 63) :
    (newRow env tx id now encTxHex encDest encSource).SealedOver env
      (insertFields env tx id encTxHex encDest) := by
  refine ⟨rfl, _, rfl, ?_⟩
  -- The number is bound as it is and cast for the MAC. The price columns are NULL.
  have hcast : asI64 (tx.nlocktime.getD 0) = (tx.nlocktime.getD 0 : Nat) := asI64_of_lt hlt
  simp only [MacFields.Same, MacFields.orEmpty, insertFields, newRow, hcast, Option.getD_some,
    Option.map_none, Option.getD_none]

/-- A resealed row is sealed over the columns that the query selected. -/
theorem resealed_sealedOver {f : MacFields} (h : resealFields env r.id r = some f) :
    (resealed env r).SealedOver env f := by
  obtain ⟨n, hn, rfl⟩ := Option.map_eq_some_iff.1 h
  rw [resealed_eq hn]
  refine ⟨rfl, _, ?_, MacFields.Same.refl _⟩
  show r.nlocktime.map _ = _
  rw [hn]
  rfl

/-- An insert that is not refused writes the row. -/
theorem mem_of_exec_insert {row : Row} {w : World}
    (hok : (World.exec env (.insert row) w).1 = .ok ()) :
    row ∈ (World.exec env (.insert row) w).2.pool := by
  rcases exec_insert env w row with ⟨e, hexec⟩ | ⟨pool, hins, hexec⟩
  · rw [hexec] at hok
    cases hok
  · rw [hexec]
    unfold insertRow at hins
    split at hins
    · cases hins
    · cases hins
      exact List.mem_append_right _ (List.mem_singleton.2 rfl)

/-- The id is a key, so a reseal that is not refused has read the row that it seals. -/
theorem exec_reseal_sealedOver {id : String} {w : World} (hids : w.UniqueIds)
    (hok : (World.exec env (.reseal id) w).1 = .ok ()) :
    ∀ r' ∈ (World.exec env (.reseal id) w).2.pool, r'.id = id →
      ∃ r ∈ w.pool, ∃ f, resealFields env id r = some f ∧ r'.SealedOver env f := by
  intro r' hr' hid
  rcases exec_reseal env w id with ⟨-, e, hexec⟩ | hexec
  · rw [hexec] at hok
    cases hok
  cases hreseal : resealRow env id w.pool with
  | error e =>
    rw [hexec, hreseal] at hok
    cases hok
  | ok pool =>
    rw [hexec, hreseal] at hr'
    obtain ⟨⟨r₀, hr₀, hid₀, n, hn⟩, rfl⟩ := resealRow_eq_ok hreseal
    obtain ⟨r, hr, rfl⟩ := List.mem_map.1 hr'
    by_cases hrow : r.id = id
    · rw [if_pos hrow]
      have hsame : r = r₀ := List.inj_on_of_nodup_map hids hr hr₀ (hrow.trans hid₀.symm)
      subst hsame
      obtain ⟨f, hfields⟩ : ∃ f, resealFields env r.id r = some f := by
        rw [resealFields, hn]
        exact ⟨_, rfl⟩
      exact ⟨r, hr, f, hrow ▸ hfields, resealed_sealedOver hfields⟩
    · rw [if_neg hrow] at hid
      exact absurd hid hrow

end

/-! ### Runs -/

/-- `row_mac_input` gives equal bytes only for equal fields, if no text field contains the byte
`0x1f`, and then the prices of two rows are equal as numbers too. In every run of the program,
with any interleaving, every row that is inserted, and every row that is resealed, carries the
MAC of the fields that `map_broadcast_row` rebuilds from it. -/
theorem mac_input_unambiguous :
    (∀ f g : MacFields, f.Unseparated → g.Unseparated → (f.bytes = g.bytes ↔ f.Same g)) ∧
      (∀ env : Env, env.PrintsFloats → ∀ (r r' : Row) (f g : MacFields),
        readFields env r = some f → readFields env r' = some g →
        r.targetPrice.any F64.isNan = false → r'.targetPrice.any F64.isNan = false →
        f.Unseparated → g.Unseparated → f.bytes = g.bytes → r.targetPrice = r'.targetPrice) ∧
      ∀ (env : Env) (w : World) (chs : List (Choice Act Act.Res Failure)), w.UniqueIds →
        (∀ prog, Choice.start prog ∈ chs → IsWorkOrReader env prog) →
        ∀ e ∈ Config.performed (World.exec env) ⟨w, []⟩ chs,
          (∀ row, e.act = .insert row →
            (World.exec env (.insert row) e.state).1 = .ok () →
              row ∈ (World.exec env (.insert row) e.state).2.pool ∧
              ∃ tx id now encTxHex encDest encSource,
                row = newRow env tx id now encTxHex encDest encSource ∧
                row.SealedOver env (insertFields env tx id encTxHex encDest)) ∧
          ∀ id, e.act = .reseal id →
            (World.exec env (.reseal id) e.state).1 = .ok () →
              ∀ r' ∈ (World.exec env (.reseal id) e.state).2.pool, r'.id = id →
                ∃ r ∈ e.state.pool, ∃ f, resealFields env id r = some f ∧ r'.SealedOver env f := by
  refine ⟨fun f g hf hg => MacFields.bytes_eq_iff hf hg, ?_, ?_⟩
  · intro env hprints r r' f g hr hr' hreal hreal' hf hg h
    exact targetPrice_inj hprints hr hr' hreal hreal' ((MacFields.bytes_eq_iff hf hg).1 h)
  intro env w chs hids hschedule e he
  constructor
  · intro row hact hok
    obtain ⟨tx, hlt, id, now, encTxHex, encDest, encSource, rfl⟩ :=
      performed_insertsNew hschedule e he row hact
    exact ⟨mem_of_exec_insert hok, tx, id, now, encTxHex, encDest, encSource, rfl,
      newRow_sealedOver hlt⟩
  · intro id _ hok
    obtain ⟨before, rest, hsplit⟩ := List.append_of_mem he
    have hunique : e.state.UniqueIds := Config.performed_history (fun (_ : Unit) _ => ())
      (I := fun _ w => w.UniqueIds) chs ⟨w, []⟩ () hids
      (fun e _ _ h => exec_uniqueIds env h e.act) hsplit
    exact exec_reseal_sealedOver hunique hok

/-- A row that waits for a price. -/
def pricedRow (price : BitVec 64) : Row :=
  { sampleRow with scheduleTrigger := some "price", targetPrice := some ⟨price⟩ }

/-- Fields that differ in where the id ends. -/
def shiftedFields (id status : String) : MacFields where
  id := id
  status := status
  mode := none
  scheduled := some ""
  nlocktime := -1
  targetPrice := none
  scheduleTrigger := none
  priceCondition := none
  encTxHex := "enc:v1:07"
  encDest := none

/-- An import, and a mark as due of the imported row. -/
def importAndMark : List (Choice Act Act.Res Failure) :=
  .start ((TableOp.insert sampleImport).prog sampleEnv) ::
    (List.replicate 8 (.step 0) ++
      .start ((TableOp.markDue "id0").prog sampleEnv) :: List.replicate 4 (.step 1))

/-- What the two do. -/
def importAndMarkSteps : List (Performed Act Act.Res World) :=
  Config.performed (World.exec sampleEnv) ⟨sampleWorld, []⟩ importAndMark

/-- The insert of the import. -/
def insertStep : Fin importAndMarkSteps.length := ⟨3, by decide +kernel⟩

/-- The reseal of the mark. -/
def resealStep : Fin importAndMarkSteps.length := ⟨7, by decide +kernel⟩

theorem importAndMark_isWork :
    ∀ prog, Choice.start prog ∈ importAndMark → IsWorkOrReader sampleEnv prog := by
  intro prog hprog
  simp only [importAndMark, List.mem_cons, List.mem_append, List.mem_replicate] at hprog
  rcases hprog with h | ⟨-, h⟩ | h | ⟨-, h⟩
  · cases h
    exact Or.inr (Or.inl ⟨_, rfl⟩)
  · cases h
  · cases h
    exact Or.inr (Or.inl ⟨_, rfl⟩)
  · cases h

theorem sampleEnv_printsFloats : sampleEnv.PrintsFloats where
  injective x y _ _ h := by
    have hbits : x.bits.toNat = y.bits.toNat := Nat.repr_injective h
    cases x
    cases y
    exact congrArg F64.mk (BitVec.eq_of_toNat_eq hbits)
  nonempty x := Nat.repr_ne_empty

/-- Fields that the separator could be shifted between, two prices, and a run. -/
theorem mac_input_unambiguous_sample :
    (shiftedFields "ab" "c").bytes ≠ (shiftedFields "a" "bc").bytes ∧
      (readFields sampleEnv (pricedRow 1)).map MacFields.bytes ≠
        (readFields sampleEnv (pricedRow 2)).map MacFields.bytes ∧
      (∃ tx id now encTxHex encDest encSource,
        newRow sampleEnv sampleImport "id0" "1" "enc:v1:07" none none =
            newRow sampleEnv tx id now encTxHex encDest encSource ∧
          (newRow sampleEnv sampleImport "id0" "1" "enc:v1:07" none none).SealedOver sampleEnv
            (insertFields sampleEnv tx id encTxHex encDest)) ∧
      ∀ r' ∈ (World.exec sampleEnv (.reseal "id0")
          (importAndMarkSteps.get resealStep).state).2.pool,
        r'.id = "id0" → ∃ r ∈ (importAndMarkSteps.get resealStep).state.pool, ∃ f,
          resealFields sampleEnv "id0" r = some f ∧ r'.SealedOver sampleEnv f := by
  refine ⟨fun h => ?_, fun h => ?_, ?_, ?_⟩
  · have hsame := (mac_input_unambiguous.1 (shiftedFields "ab" "c") (shiftedFields "a" "bc")
      (by unfold MacFields.Unseparated; decide +kernel)
      (by unfold MacFields.Unseparated; decide +kernel)).1 h
    exact absurd (congrArg MacFields.id hsame) (by decide)
  · have hprice := mac_input_unambiguous.2.1 sampleEnv sampleEnv_printsFloats (pricedRow 1)
      (pricedRow 2) _ _ rfl rfl (by decide) (by decide)
      (by unfold MacFields.Unseparated; decide +kernel)
      (by unfold MacFields.Unseparated; decide +kernel) (Option.some.inj h)
    exact absurd hprice (by decide)
  · exact ((mac_input_unambiguous.2.2 sampleEnv sampleWorld importAndMark (by decide)
      importAndMark_isWork _ (importAndMarkSteps.get_mem insertStep)).1 _ rfl
      (by decide +kernel)).2
  · exact (mac_input_unambiguous.2.2 sampleEnv sampleWorld importAndMark (by decide)
      importAndMark_isWork _ (importAndMarkSteps.get_mem resealStep)).2 "id0" rfl
      (by decide +kernel)

end BroadcastPool
