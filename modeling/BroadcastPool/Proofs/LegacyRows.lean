import BroadcastPool.Proofs.Db.Frame
import BroadcastPool.Proofs.Db.RowMac
import BroadcastPool.Proofs.Rules
import BroadcastPool.Lib.Outcome
import BroadcastPool.Sample
import Mathlib.Data.List.Forall2
import Mathlib.Data.Option.Defs

/-!
# `BroadcastPool.Proofs.LegacyRows`: encrypting the rows of older versions

`encrypt_legacy_rows` encodes the fields of a row in one statement and seals the row in another, so
a crash can leave a row with encoded fields and without a MAC. Such a row is selected again by the
next start, which finds nothing to encode and seals it.

`Row.Underway` is what runs that are cut off anywhere can have made of a row, and `Row.Encrypted`
what a complete run makes of it. `Staged` is the invariant of the loop: the rows that it has not
come to are as they were, and the others are done. `encrypt_resumes` puts the runs together.
-/

set_option autoImplicit false

namespace BroadcastPool

open Effects

variable {env : Env}

/-! ### One field -/

/-- A field is encoded once: an encoded one stays as it is. -/
def EncodedOnce (env : Env) (id old new : String) : Prop :=
  if isEncoded old then new = old else ∃ nonce, new = encodeField env nonce old id

theorem isEncoded_of_encodedOnce {id old new : String} (h : EncodedOnce env id old new) :
    isEncoded new = true := by
  unfold EncodedOnce at h
  split at h
  · rw [h]
    assumption
  · obtain ⟨nonce, rfl⟩ := h
    exact isEncoded_encodeField env nonce old id

theorem encodedOnce_trans {id a b c : String} (hab : EncodedOnce env id a b)
    (hbc : EncodedOnce env id b c) : EncodedOnce env id a c := by
  have hsame : c = b := by
    unfold EncodedOnce at hbc
    rwa [if_pos (isEncoded_of_encodedOnce hab)] at hbc
  rw [hsame]
  exact hab

/-- A field reads back as before. -/
theorem decOrRaw_of_encodedOnce (hseal : env.SealOpens) {id old new : String}
    (h : EncodedOnce env id old new) : decOrRaw env id new = decOrRaw env id old := by
  unfold EncodedOnce at h
  split at h
  · rw [h]
  · rename_i hplain
    obtain ⟨nonce, rfl⟩ := h
    rw [decOrRaw_encodeField hseal, decOrRaw_of_not_isEncoded (by simpa using hplain)]

/-- The same for a column that can be NULL. -/
abbrev EncodedOnce? (env : Env) (id : String) : Option String → Option String → Prop :=
  Option.Rel (EncodedOnce env id)

theorem encodedOnce?_trans {id : String} {a b c : Option String}
    (hab : EncodedOnce? env id a b) (hbc : EncodedOnce? env id b c) :
    EncodedOnce? env id a c := by
  cases hab with
  | none => exact hbc
  | some hab =>
    cases hbc with
    | some hbc => exact .some (encodedOnce_trans hab hbc)

theorem map_decOrRaw_of_encodedOnce? (hseal : env.SealOpens) {id : String}
    {old new : Option String} (h : EncodedOnce? env id old new) :
    new.map (decOrRaw env id) = old.map (decOrRaw env id) := by
  cases h with
  | none => rfl
  | some h => exact congrArg some (decOrRaw_of_encodedOnce hseal h)

/-! ### One row -/

/-- `r'` is `r` with its fields encoded, and with any MAC. -/
structure Row.FieldsEncoded (env : Env) (r r' : Row) : Prop where
  txHex : EncodedOnce env r.id r.txHex r'.txHex
  destinationAddress : EncodedOnce? env r.id r.destinationAddress r'.destinationAddress
  sourceLabel : EncodedOnce? env r.id r.sourceLabel r'.sourceLabel
  others : { r with
    txHex := r'.txHex, destinationAddress := r'.destinationAddress
    sourceLabel := r'.sourceLabel, rowMac := r'.rowMac } = r'

/-- What runs that are cut off anywhere can have made of a row: nothing, or a row with encoded
fields, which has no MAC yet or the right one. -/
def Row.Underway (env : Env) (r r' : Row) : Prop :=
  r' = r ∨ isLegacy r = true ∧ r.FieldsEncoded env r' ∧ (r'.rowMac = none ∨ r'.MacMatches env)

/-- What a complete run makes of a row. -/
def Row.Encrypted (env : Env) (r r' : Row) : Prop :=
  if isLegacy r then r.FieldsEncoded env r' ∧ r'.MacMatches env else r' = r

namespace Row
variable {r r' r'' : Row}

theorem FieldsEncoded.id_eq (h : r.FieldsEncoded env r') : r'.id = r.id := by
  rw [← h.others]

theorem FieldsEncoded.trans (h : r.FieldsEncoded env r') (h' : r'.FieldsEncoded env r'') :
    r.FieldsEncoded env r'' := by
  have hid : r'.id = r.id := h.id_eq
  refine ⟨encodedOnce_trans h.txHex (hid ▸ h'.txHex),
    encodedOnce?_trans h.destinationAddress (hid ▸ h'.destinationAddress),
    encodedOnce?_trans h.sourceLabel (hid ▸ h'.sourceLabel), ?_⟩
  rw [← h'.others, ← h.others]

/-- A row without a MAC is selected. -/
theorem isLegacy_of_rowMac (h : r.rowMac = none) : isLegacy r = true := by
  simp [isLegacy, h]

/-- A sealed row with an encoded text is not selected. `LIKE` finds the prefix of the encoding
in whatever case it is written. -/
theorem isLegacy_eq_false (henc : isEncoded r.txHex = true) (hmac : r.rowMac.isSome) :
    isLegacy r = false := by
  have hprefix : Text.startsWith (Text.asciiLower r.txHex) "enc:" = true := by
    obtain ⟨rest, hrest⟩ := List.isPrefixOf_iff_prefix.1 henc
    simp only [Text.startsWith, Text.asciiLower, ← hrest, List.map_append, String.toList_ofList]
    exact List.isPrefixOf_iff_prefix.2 ⟨_, rfl⟩
  simp [isLegacy, hprefix, hmac]

theorem isLegacy_eq_false_of_sealed (h : r.FieldsEncoded env r') (hmac : r'.MacMatches env) :
    isLegacy r' = false := by
  obtain ⟨n, -, hn⟩ := hmac
  exact isLegacy_eq_false (isEncoded_of_encodedOnce h.txHex) (by rw [hn]; rfl)

theorem Underway.id_eq (h : r.Underway env r') : r'.id = r.id := by
  rcases h with rfl | ⟨-, henc, -⟩
  · rfl
  · exact henc.id_eq

/-- A row that is still selected has no MAC, if that was so before the runs. -/
theorem Underway.rowMac_of_isLegacy (h : r.Underway env r')
    (hmac : isLegacy r = true → r.rowMac = none) (hlegacy : isLegacy r' = true) :
    r'.rowMac = none := by
  rcases h with rfl | ⟨-, henc, hnone | hmatches⟩
  · exact hmac hlegacy
  · exact hnone
  · rw [isLegacy_eq_false_of_sealed henc hmatches] at hlegacy
    cases hlegacy

theorem Encrypted.underway (h : r.Encrypted env r') : r.Underway env r' := by
  unfold Encrypted at h
  split at h
  · exact Or.inr ⟨by assumption, h.1, Or.inr h.2⟩
  · exact Or.inl h

theorem Underway.trans (h : r.Underway env r') (h' : r'.Underway env r'') :
    r.Underway env r'' := by
  rcases h with rfl | ⟨hlegacy, henc, hmac⟩
  · exact h'
  · rcases h' with rfl | ⟨-, henc', hmac'⟩
    · exact Or.inr ⟨hlegacy, henc, hmac⟩
    · exact Or.inr ⟨hlegacy, henc.trans henc', hmac'⟩

/-- A complete run after runs that were cut off does what one complete run does. -/
theorem Underway.encrypted (h : r.Underway env r') (h' : r'.Encrypted env r'') :
    r.Encrypted env r'' := by
  rcases h with rfl | ⟨hlegacy, henc, hmac⟩
  · exact h'
  · unfold Encrypted at h' ⊢
    rw [if_pos hlegacy]
    rcases hmac with hnone | hmatches
    · rw [if_pos (isLegacy_of_rowMac hnone)] at h'
      exact ⟨henc.trans h'.1, h'.2⟩
    · rw [if_neg (by simp [isLegacy_eq_false_of_sealed henc hmatches])] at h'
      rw [h']
      exact ⟨henc, hmatches⟩

/-- Nothing is left to do on a row after a complete run. -/
theorem Encrypted.isLegacy_eq_false (h : r.Encrypted env r') : isLegacy r' = false := by
  unfold Encrypted at h
  split at h
  · exact isLegacy_eq_false_of_sealed h.1 h.2
  · rw [h]
    simpa using ‹¬ isLegacy r = true›

/-- A row that is not selected stays as it is. -/
theorem Underway.eq_of_not_isLegacy (h : r.Underway env r') (hlegacy : isLegacy r = false) :
    r' = r := by
  rcases h with rfl | ⟨hlegacy', -, -⟩
  · rfl
  · rw [hlegacy] at hlegacy'
    cases hlegacy'

end Row

/-! ### One run -/

/-- The rows with the ids that are left are as they were, and the others are done. -/
def Staged (env : Env) (left : List String) (r r' : Row) : Prop :=
  if r.id ∈ left then r' = r else r.Encrypted env r'

theorem Staged.underway {left : List String} {r r' : Row} (h : Staged env left r r') :
    r.Underway env r' := by
  unfold Staged at h
  split at h
  · exact Or.inl h
  · exact Row.Encrypted.underway h

/-- A run on the table `rows`: wherever it is cut off, every row is under way. -/
abbrev underwayContract (env : Env) (rows : List Row) : Contract Act Act.Res World :=
  (World.exec env).contract (fun _ _ => True) fun w _ =>
    List.Forall₂ (Row.Underway env) rows w.pool

/-- The columns that the selection reads. -/
def Row.legacy (r : Row) : LegacyRow := (r.id, r.txHex, r.destinationAddress, r.sourceLabel)

section
variable {rows pool : List Row}

/-- Encoding a field leaves the table as it is. -/
theorem returns_encodeMissing (hpool : List.Forall₂ (Row.Underway env) rows pool)
    (s id : String) :
    (encodeMissing env s id).Returns (underwayContract env rows) (fun w => w.pool = pool)
      (EncodedOnce env id s) := by
  unfold encodeMissing EncodedOnce
  split
  · exact Prog.returns_ret rfl
  · refine Prog.returns_bind (P := fun _ => True) ?_ fun nonce _ =>
      Prog.returns_ret ⟨nonce, rfl⟩
    refine Prog.returns_perform_handler _ fun w hw => ⟨?_, ?_, trivial⟩
    · rw [hw]
      exact hpool
    · exact (exec_pool (a := .nonce) rfl).trans hw

theorem returns_encodeMissing? (hpool : List.Forall₂ (Row.Underway env) rows pool)
    (s : Option String) (id : String) :
    (encodeMissing? env s id).Returns (underwayContract env rows) (fun w => w.pool = pool)
      (EncodedOnce? env id s) := by
  cases s with
  | none => exact Prog.returns_ret .none
  | some s =>
    exact Prog.returns_bind (returns_encodeMissing hpool s id) fun t ht =>
      Prog.returns_ret (.some ht)

/-- Between the two statements of one row: it has the new fields, and the others are done or
left. -/
def Halfway (env : Env) (r new : Row) (left : List String) (r₀ r' : Row) : Prop :=
  if r₀.id = r.id then r₀ = r ∧ r' = new else Staged env left r₀ r'

variable {r new : Row} {left : List String}

theorem Halfway.underway (hlegacy : isLegacy r = true) (hnew : r.FieldsEncoded env new)
    (hmac : new.rowMac = none) {r₀ r' : Row} (h : Halfway env r new left r₀ r') :
    r₀.Underway env r' := by
  unfold Halfway at h
  split at h
  · obtain ⟨rfl, rfl⟩ := h
    exact Or.inr ⟨hlegacy, hnew, Or.inl hmac⟩
  · exact h.underway

theorem halfway_update (hids : (rows.map (·.id)).Nodup) (hr : r ∈ rows)
    {t : String} {d s : Option String}
    (h : List.Forall₂ (Staged env (r.id :: left)) rows pool) :
    List.Forall₂
      (Halfway env r { r with txHex := t, destinationAddress := d, sourceLabel := s } left)
      rows (applyUpdate env (.encryptFields r.id t d s) pool) := by
  refine List.forall₂_map_right_iff.2 ?_
  refine ((List.forall₂_and_left _ _).2 ⟨fun _ hr₀ => hr₀, h⟩).imp fun r₀ r' hrow => ?_
  obtain ⟨hr₀, hstaged⟩ := hrow
  have hid : r'.id = r₀.id := hstaged.underway.id_eq
  unfold Halfway Update.onRow
  unfold Staged at hstaged
  by_cases hsame : r₀.id = r.id
  · have hrow : r₀ = r := List.inj_on_of_nodup_map hids hr₀ hr hsame
    subst hrow
    rw [if_pos (List.mem_cons_self ..)] at hstaged
    rw [if_pos rfl, hstaged, if_pos ⟨rfl, rfl⟩]
    exact ⟨rfl, rfl⟩
  · rw [if_neg hsame, if_neg (fun h => hsame (hid.symm.trans h.1))]
    unfold Staged
    simpa [hsame] using hstaged

theorem Halfway.id_eq (hnew : r.FieldsEncoded env new) {r₀ r' : Row}
    (h : Halfway env r new left r₀ r') : r'.id = r₀.id := by
  unfold Halfway at h
  split at h
  · obtain ⟨rfl, rfl⟩ := h
    exact hnew.id_eq
  · exact h.underway.id_eq

/-- The row of the table with the id is the one with the new fields. -/
theorem eq_of_halfway (hnew : r.FieldsEncoded env new)
    (h : List.Forall₂ (Halfway env r new left) rows pool) {r' : Row} (hr' : r' ∈ pool)
    (hid : r'.id = r.id) : r' = new := by
  obtain ⟨r₀, -, hrow⟩ := exists_mem_of_forall₂ h.flip r' hr'
  have hhalf : Halfway env r new left r₀ r' := hrow
  have hsame : r₀.id = r.id := (hhalf.id_eq hnew).symm.trans hid
  unfold Halfway at hhalf
  rw [if_pos hsame] at hhalf
  exact hhalf.2

theorem staged_reseal (hlegacy : isLegacy r = true) (hnew : r.FieldsEncoded env new)
    (hleft : r.id ∉ left) (h : List.Forall₂ (Halfway env r new left) rows pool)
    {pool' : List Row} (hreseal : resealRow env r.id pool = .ok pool') :
    List.Forall₂ (Staged env left) rows pool' := by
  obtain ⟨⟨r₁, hr₁, hid₁, n, hn⟩, rfl⟩ := resealRow_eq_ok hreseal
  have hlock : new.nlocktime = some n := eq_of_halfway hnew h hr₁ hid₁ ▸ hn
  refine List.forall₂_map_right_iff.2 (h.imp fun r₀ r' hhalf => ?_)
  have hids : r'.id = r₀.id := hhalf.id_eq hnew
  unfold Halfway at hhalf
  by_cases hsame : r₀.id = r.id
  · rw [if_pos hsame] at hhalf
    obtain ⟨rfl, rfl⟩ := hhalf
    have hseal : resealed env r' = { r' with rowMac := some (r'.expectedMac env n) } := by
      simp only [resealed, hlock]
    unfold Staged Row.Encrypted
    rw [if_pos hids, if_neg hleft, if_pos hlegacy, hseal]
    refine ⟨⟨hnew.txHex, hnew.destinationAddress, hnew.sourceLabel, ?_⟩, n, hlock, rfl⟩
    rw [← hnew.others]
  · rw [if_neg hsame] at hhalf
    rw [if_neg fun h => hsame (hids.symm.trans h)]
    exact hhalf

/-- A reseal finds the row that is halfway. -/
theorem exists_resealRow (hr : r ∈ rows) (hnew : r.FieldsEncoded env new)
    (h : List.Forall₂ (Halfway env r new left) rows pool) (hlock : r.nlocktime ≠ none) :
    ∃ pool', resealRow env r.id pool = .ok pool' := by
  obtain ⟨n, hn⟩ := Option.ne_none_iff_exists'.1 hlock
  have hnew_lock : new.nlocktime = some n := by
    rw [← hnew.others]
    exact hn
  obtain ⟨r', hr', hhalf⟩ := exists_mem_of_forall₂ h r hr
  obtain ⟨r₁, hfind⟩ : ∃ r₁, pool.find? (·.id = r.id) = some r₁ :=
    Option.isSome_iff_exists.1
      (List.find?_isSome.2 ⟨r', hr', decide_eq_true (hhalf.id_eq hnew)⟩)
  have hr₁ : r₁ = new := eq_of_halfway hnew h (List.mem_of_find?_eq_some hfind)
    (by simpa using List.find?_some hfind)
  unfold resealRow
  simp only [hfind, hr₁, hnew_lock]
  exact ⟨_, rfl⟩

/-- What is known where the work on a row ends, or the loop, if the rows with the ids `left` are
left. Without a fault it can only fail on a row without an `nlocktime`. -/
structure StageEnds (env : Env) (rows : List Row) (left : List String)
    (o : Except Failure Unit) (w : World) : Prop where
  underway : List.Forall₂ (Row.Underway env) rows w.pool
  staged : o = .ok () → List.Forall₂ (Staged env left) rows w.pool
  completes : (∀ tick, env.dbFault tick = none) → (∀ r ∈ rows, r.nlocktime ≠ none) → o = .ok ()

/-- The reseal of a row with encoded fields. -/
theorem wp_resealRowMac_halfway (hr : r ∈ rows) (hlegacy : isLegacy r = true)
    (hnew : r.FieldsEncoded env new) (hmac : new.rowMac = none) (hleft : r.id ∉ left) {w : World}
    (h : List.Forall₂ (Halfway env r new left) rows w.pool) :
    (resealRowMac r.id).wp (underwayContract env rows) (StageEnds env rows left) w := by
  have hunder := h.imp fun _ _ => Halfway.underway hlegacy hnew hmac
  refine (wp_orFail _ _ _ _).2 (Prog.wp_perform_handler _ _ _ w fun _ => ⟨hunder, ?_⟩)
  rcases exec_reseal env w r.id with ⟨hfault, e, hexec⟩ | hexec
  · rw [hexec]
    exact ⟨hunder, fun hok => (by cases hok), fun hdb => absurd (hdb w.tick) hfault⟩
  · rw [hexec]
    cases hreseal : resealRow env r.id w.pool with
    | error e =>
      refine ⟨hunder, fun hok => (by cases hok), fun _ hlock => ?_⟩
      obtain ⟨pool', hpool'⟩ := exists_resealRow hr hnew h (hlock r hr)
      rw [hreseal] at hpool'
      cases hpool'
    | ok pool' =>
      have hstaged := staged_reseal hlegacy hnew hleft h hreseal
      exact ⟨hstaged.imp fun _ _ => Staged.underway, fun _ => hstaged, fun _ _ => rfl⟩

/-- The body of the loop, on a row that is left. -/
theorem wp_encryptLegacyRow (hids : (rows.map (·.id)).Nodup) (hr : r ∈ rows)
    (hlegacy : isLegacy r = true) (hmac : r.rowMac = none) (hleft : r.id ∉ left) {w : World}
    (h : List.Forall₂ (Staged env (r.id :: left)) rows w.pool) :
    (encryptLegacyRow env r.legacy).wp (underwayContract env rows) (StageEnds env rows left) w := by
  have hpool : List.Forall₂ (Row.Underway env) rows w.pool := h.imp fun _ _ => Staged.underway
  refine (returns_encodeMissing hpool _ _).wp_bind (fun t ht w₁ hw₁ => ?_) rfl
  refine (returns_encodeMissing? hpool _ _).wp_bind (fun d hd w₂ hw₂ => ?_) hw₁
  refine (returns_encodeMissing? hpool _ _).wp_bind (fun s hs w₃ hw₃ => ?_) hw₂
  -- From here on the table is the one that the loop body found.
  have hnew : r.FieldsEncoded env
      { r with txHex := t, destinationAddress := d, sourceLabel := s } := ⟨ht, hd, hs, rfl⟩
  refine (Prog.wp_bind _ _ _ _).2 ((wp_orFail _ _ _ _).2
    (Prog.wp_perform_handler _ _ _ w₃ fun _ => ⟨hw₃ ▸ hpool, ?_⟩))
  rcases exec_update env w₃ (.encryptFields r.id t d s) with ⟨e, hexec⟩ | hexec
  · rw [hexec]
    refine ⟨hw₃ ▸ hpool, fun hok => (by cases hok), fun hdb => ?_⟩
    rw [exec_update_ok (hdb w₃.tick)] at hexec
    cases hexec
  · rw [hexec]
    have hhalf := halfway_update hids hr (t := t) (d := d) (s := s) h
    rw [← hw₃] at hhalf
    exact wp_resealRowMac_halfway hr hlegacy hnew hmac hleft hhalf

/-- The loop, on the rows that are left. -/
theorem wp_encryptLoop (hids : (rows.map (·.id)).Nodup)
    (hmac : ∀ r ∈ rows, isLegacy r = true → r.rowMac = none) {rs : List Row}
    (hrs : List.Sublist rs (rows.filter isLegacy)) {w : World}
    (h : List.Forall₂ (Staged env (rs.map (·.id))) rows w.pool) :
    (Prog.forEach (rs.map Row.legacy) (encryptLegacyRow env)).wp (underwayContract env rows)
      (StageEnds env rows []) w := by
  induction rs generalizing w with
  | nil =>
    exact (Prog.wp_ret _ _ _).mpr ⟨h.imp fun _ _ => Staged.underway, fun _ => h, fun _ _ => rfl⟩
  | cons r rs ih =>
    obtain ⟨hr, hlegacy⟩ := List.mem_filter.1 (hrs.subset (List.mem_cons_self ..))
    have hnodup : ((r :: rs).map (·.id)).Nodup :=
      hids.sublist ((hrs.trans List.filter_sublist).map _)
    refine (Prog.wp_bind _ _ _ _).2 (Prog.wp_mono ?_ _ _
      (wp_encryptLegacyRow hids hr hlegacy (hmac r hr hlegacy) (List.nodup_cons.1 hnodup).1 h))
    intro o w' hw'
    cases o with
    | error e =>
      refine ⟨hw'.underway, fun hok => (by cases hok), fun hdb hlock => ?_⟩
      cases hw'.completes hdb hlock
    | ok u => exact ih (List.sublist_of_cons_sublist hrs) (hw'.staged rfl)

/-- One run on a table whose selected rows have no MAC. -/
theorem wp_encryptLegacyRows {w : World} (hids : (w.pool.map (·.id)).Nodup)
    (hmac : ∀ r ∈ w.pool, isLegacy r = true → r.rowMac = none) :
    (encryptLegacyRows env).wp (underwayContract env w.pool) (StageEnds env w.pool []) w := by
  have hsame : List.Forall₂ (Row.Underway env) w.pool w.pool :=
    List.forall₂_same.2 fun _ _ => Or.inl rfl
  refine (Prog.wp_bind _ _ _ _).2 ((wp_orRaise _ _ _).2
    (Prog.wp_perform_handler _ _ _ w fun _ => ⟨hsame, ?_⟩))
  rcases exec_selectLegacy env w with ⟨e, hexec⟩ | hexec
  · rw [hexec]
    refine ⟨hsame, fun hok => (by cases hok), fun hdb => ?_⟩
    simp only [World.exec, World.effect, World.statement, hdb w.tick, Prod.mk.injEq] at hexec
    cases hexec.1
  · rw [hexec]
    refine wp_encryptLoop hids hmac (List.Sublist.refl (w.pool.filter isLegacy))
      (List.forall₂_same.2 fun r hr => ?_)
    unfold Staged Row.Encrypted
    by_cases hlegacy : isLegacy r = true
    · rw [if_pos (List.mem_map_of_mem (List.mem_filter.2 ⟨hr, hlegacy⟩))]
    · rw [if_neg hlegacy, ite_self]

end

/-! ### Runs one after the other -/

/-- The tables that runs leave which follow one another, each cut off anywhere. Between two runs
only the table is kept. -/
inductive EncryptRuns (env : Env) (rows : List Row) : List Row → Prop
  | start : EncryptRuns env rows rows
  | run {w w' : World} (h : EncryptRuns env rows w.pool)
      (hcut : (encryptLegacyRows env).CutAt (World.exec env) w w') :
      EncryptRuns env rows w'.pool

/-- Before the runs, only rows with an encoded text have a MAC. -/
def MacsOnEncoded (rows : List Row) : Prop :=
  ∀ r ∈ rows, r.rowMac ≠ none → isEncoded r.txHex = true

theorem rowMac_of_isLegacy {rows : List Row} (h : MacsOnEncoded rows) {r : Row} (hr : r ∈ rows)
    (hlegacy : isLegacy r = true) : r.rowMac = none := by
  by_contra hmac
  rw [Row.isLegacy_eq_false (h r hr hmac) (Option.isSome_iff_ne_none.2 hmac)] at hlegacy
  cases hlegacy

theorem ids_of_underway {rows rows' : List Row} (h : List.Forall₂ (Row.Underway env) rows rows') :
    rows'.map (·.id) = rows.map (·.id) := by
  induction h with
  | nil => rfl
  | cons hrow _ ih => rw [List.map_cons, List.map_cons, hrow.id_eq, ih]

theorem underway_of_cutAt {w w' : World} (hids : (w.pool.map (·.id)).Nodup)
    (hmac : ∀ r ∈ w.pool, isLegacy r = true → r.rowMac = none)
    (hcut : (encryptLegacyRows env).CutAt (World.exec env) w w') :
    List.Forall₂ (Row.Underway env) w.pool w'.pool :=
  Prog.cutAt_of_wp (World.exec env) (I := fun s => List.Forall₂ (Row.Underway env) w.pool s.pool)
    (Prog.wp_mono (fun _ _ h => h.underway) _ _ (wp_encryptLegacyRows hids hmac)) hcut

/-- After any runs the table is under way, and the next run finds what it needs. -/
theorem underway_of_encryptRuns {rows rows' : List Row} (hids : (rows.map (·.id)).Nodup)
    (hmac : MacsOnEncoded rows) (h : EncryptRuns env rows rows') :
    List.Forall₂ (Row.Underway env) rows rows' ∧ (rows'.map (·.id)).Nodup ∧
      ∀ r ∈ rows', isLegacy r = true → r.rowMac = none := by
  have hnext : ∀ {rows'}, List.Forall₂ (Row.Underway env) rows rows' →
      (rows'.map (·.id)).Nodup ∧ ∀ r ∈ rows', isLegacy r = true → r.rowMac = none := by
    intro rows' hunder
    refine ⟨(ids_of_underway hunder).symm ▸ hids, fun r' hr' hlegacy => ?_⟩
    have hboth := (List.forall₂_and_left _ _).2 ⟨fun r hr => rowMac_of_isLegacy hmac hr, hunder⟩
    obtain ⟨r, -, hrow⟩ := exists_mem_of_forall₂ hboth.flip r' hr'
    have hrow' : (isLegacy r = true → r.rowMac = none) ∧ r.Underway env r' := hrow
    exact hrow'.2.rowMac_of_isLegacy hrow'.1 hlegacy
  induction h with
  | start =>
    have hsame : List.Forall₂ (Row.Underway env) rows rows :=
      List.forall₂_same.2 fun _ _ => Or.inl rfl
    exact ⟨hsame, hnext hsame⟩
  | run h hcut ih =>
    obtain ⟨hunder, hids', hmac'⟩ := ih
    have hafter := forall₂_comp (R := Row.Underway env) (S := Row.Underway env)
      (T := Row.Underway env) (fun _ _ _ => Row.Underway.trans) hunder
      (underway_of_cutAt hids' hmac' hcut)
    exact ⟨hafter, hnext hafter⟩

/-! ### How the rows read back -/

/-- A row reads back as before, with its MAC in order if it was selected. -/
structure Row.ReadsBack (env : Env) (r r' : Row) : Prop where
  txHex : decOrRaw env r'.id r'.txHex = decOrRaw env r.id r.txHex
  destinationAddress : r'.destinationAddress.map (decOrRaw env r'.id) =
    r.destinationAddress.map (decOrRaw env r.id)
  sourceLabel : r'.sourceLabel.map (decOrRaw env r'.id) = r.sourceLabel.map (decOrRaw env r.id)
  tampered : isLegacy r = true → ∀ now, mapBroadcastRow env now r' =
    (mapBroadcastRow env now r).map fun tx => { tx with tampered := some false }

/-- The three fields of a row with encoded fields read back as before. -/
theorem Row.FieldsEncoded.decoded (hseal : env.SealOpens) {r r' : Row}
    (h : r.FieldsEncoded env r') :
    decOrRaw env r'.id r'.txHex = decOrRaw env r.id r.txHex ∧
      r'.destinationAddress.map (decOrRaw env r'.id) =
        r.destinationAddress.map (decOrRaw env r.id) ∧
      r'.sourceLabel.map (decOrRaw env r'.id) = r.sourceLabel.map (decOrRaw env r.id) := by
  rw [h.id_eq]
  exact ⟨decOrRaw_of_encodedOnce hseal h.txHex,
    map_decOrRaw_of_encodedOnce? hseal h.destinationAddress,
    map_decOrRaw_of_encodedOnce? hseal h.sourceLabel⟩

theorem mapBroadcastRow_of_same_fields {r : Row} {t : String} {d s m : Option String} {n : Int}
    (hn : r.nlocktime = some n) (ht : decOrRaw env r.id t = decOrRaw env r.id r.txHex)
    (hd : d.map (decOrRaw env r.id) = r.destinationAddress.map (decOrRaw env r.id))
    (hs : s.map (decOrRaw env r.id) = r.sourceLabel.map (decOrRaw env r.id))
    (hm : m = some (Row.expectedMac env
      { r with txHex := t, destinationAddress := d, sourceLabel := s, rowMac := m } n))
    (now : DateTime) :
    mapBroadcastRow env now
        { r with txHex := t, destinationAddress := d, sourceLabel := s, rowMac := m } =
      (mapBroadcastRow env now r).map fun tx => { tx with tampered := some false } := by
  have htampered : decide (m ≠ some (Row.expectedMac env
      { r with txHex := t, destinationAddress := d, sourceLabel := s, rowMac := m } n)) = false :=
    decide_eq_false fun hne => hne hm
  rw [hn] at htampered
  unfold mapBroadcastRow
  dsimp only
  rw [ht, hd, hs, hn]
  -- Both sides fail on the same column, if on any.
  cases unsigned "nlocktime" (some n) with
  | error e => rfl
  | ok nlocktime =>
    cases unsigned "block_height" r.blockHeight with
    | error e => rfl
    | ok blockHeight =>
      cases r.targetFeeRate.read "target_fee_rate" with
      | error e => rfl
      | ok targetFeeRate =>
        cases signed32 "utxo_count" r.utxoCount with
        | error e => rfl
        | ok utxoCount =>
          cases notNull "total_value_btc" r.totalValueBtc with
          | error e => rfl
          | ok totalValueBtc =>
            cases signed32 "retry_count" r.retryCount with
            | error e => rfl
            | ok retryCount =>
              simp only [notNull, bind, Except.bind, pure, Except.pure, Except.map, htampered]

theorem mapBroadcastRow_of_fieldsEncoded (hseal : env.SealOpens) {r r' : Row}
    (h : r.FieldsEncoded env r') (hmac : r'.MacMatches env) (now : DateTime) :
    mapBroadcastRow env now r' =
      (mapBroadcastRow env now r).map fun tx => { tx with tampered := some false } := by
  obtain ⟨n, hn, hrowMac⟩ := hmac
  obtain ⟨hhex, hdest, hsource⟩ := h.decoded hseal
  have hlock : r.nlocktime = some n := (congrArg Row.nlocktime h.others).trans hn
  rw [h.id_eq] at hhex hdest hsource
  have hread := mapBroadcastRow_of_same_fields hlock hhex hdest hsource
    (m := r'.rowMac) (by rw [h.others]; exact hrowMac) now
  rw [h.others] at hread
  exact hread

theorem readsBack_of_encrypted (hseal : env.SealOpens) {r r' : Row} (h : r.Encrypted env r') :
    r.ReadsBack env r' := by
  unfold Row.Encrypted at h
  split at h
  · obtain ⟨hhex, hdest, hsource⟩ := h.1.decoded hseal
    exact ⟨hhex, hdest, hsource, fun _ now => mapBroadcastRow_of_fieldsEncoded hseal h.1 h.2 now⟩
  · rename_i hlegacy
    subst h
    exact ⟨rfl, rfl, rfl, fun hlegacy' => absurd hlegacy' hlegacy⟩

/-- Runs that are cut off anywhere, and then a complete one: every row that a run selects is
encoded once and sealed, and reads back as before. Every other row is as it was. A further run
changes nothing. -/
theorem encrypt_resumes (hseal : env.SealOpens) {rows : List Row}
    (hids : (rows.map (·.id)).Nodup) (hmac : MacsOnEncoded rows) {w w' : World}
    (hruns : EncryptRuns env rows w.pool)
    (hrun : (encryptLegacyRows env).run (World.exec env) w = (.ok (), w')) :
    List.Forall₂ (fun r r' => r.Encrypted env r' ∧ r.ReadsBack env r') rows w'.pool ∧
      ∀ w₁ w₂ : World, w₁.pool = w'.pool →
        (encryptLegacyRows env).CutAt (World.exec env) w₁ w₂ → w₂.pool = w'.pool := by
  obtain ⟨hunder, hids', hmac'⟩ := underway_of_encryptRuns hids hmac hruns
  have hend := (Prog.run_trace_of_wp (World.exec env) _ w
    (wp_encryptLegacyRows hids' hmac') fun _ _ => trivial).1
  rw [hrun] at hend
  have hstaged : List.Forall₂ (Row.Encrypted env) w.pool w'.pool :=
    (hend.staged rfl).imp fun r r' h => by simpa [Staged] using h
  have hdone := forall₂_comp (R := Row.Underway env) (S := Row.Encrypted env)
    (T := Row.Encrypted env) (fun _ _ _ => Row.Underway.encrypted) hunder hstaged
  refine ⟨hdone.imp fun r r' h => ⟨h, readsBack_of_encrypted hseal h⟩, fun w₁ w₂ hw₁ hcut => ?_⟩
  have hnone : ∀ r' ∈ w₁.pool, isLegacy r' = false := by
    intro r' hr'
    obtain ⟨r, -, hrow⟩ := exists_mem_of_forall₂ hdone.flip r' (hw₁ ▸ hr')
    exact Row.Encrypted.isLegacy_eq_false (show r.Encrypted env r' from hrow)
  have hids₁ : (w₁.pool.map (·.id)).Nodup := by
    rw [hw₁, ids_of_underway hend.underway]
    exact hids'
  have hsame := underway_of_cutAt hids₁ (fun r' hr' h => by rw [hnone r' hr'] at h; cases h) hcut
  rw [← hw₁]
  have heq := ((List.forall₂_and_left _ _).2 ⟨hnone, hsame⟩).imp fun r r' hrow =>
    (Row.Underway.eq_of_not_isLegacy hrow.2 hrow.1).symm
  exact (List.forall₂_eq_eq_eq ▸ heq).symm

/-- A row of an older version, with a transaction in plain text. -/
def legacyWorld : World :=
  { sampleWorld with pool := [{ sampleRow with txHex := "07", rowMac := none }] }

/-- The first run has encoded its fields, and has not sealed it. -/
def crashedWorld : World :=
  ((((encryptLegacyRows sampleEnv).trace (World.exec sampleEnv) legacyWorld)[3]?).map
    (·.1)).getD legacyWorld

/-- The next run seals it. -/
def resumedWorld : World :=
  ((encryptLegacyRows sampleEnv).run (World.exec sampleEnv) crashedWorld).2

theorem encrypt_resumes_after_crash :
    List.Forall₂ (fun r r' => r.Encrypted sampleEnv r' ∧ r.ReadsBack sampleEnv r')
        legacyWorld.pool resumedWorld.pool ∧
      ∀ w₁ w₂ : World, w₁.pool = resumedWorld.pool →
        (encryptLegacyRows sampleEnv).CutAt (World.exec sampleEnv) w₁ w₂ →
          w₂.pool = resumedWorld.pool := by
  have hcrash : (encryptLegacyRows sampleEnv).CutAt (World.exec sampleEnv) legacyWorld
      crashedWorld := Or.inr ⟨.reseal "id0", List.mem_of_getElem? (i := 3) rfl⟩
  refine encrypt_resumes (fun _ _ _ => rfl) (by decide) ?_ (.run .start hcrash) rfl
  unfold MacsOnEncoded
  decide

end BroadcastPool
