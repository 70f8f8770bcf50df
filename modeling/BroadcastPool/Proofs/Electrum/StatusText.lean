import BroadcastPool.Proofs.Electrum.Status

/-!
# `BroadcastPool.Proofs.Electrum.StatusText`: the status identifies the history

The text that `compute_status_hash` hashes depends on the txids and the heights of the entries only,
and not on their order (`hashedText_congr`): the sort by both is canonical. Conversely the text
determines the sorted list of them (`statusText_injective`). So two histories have the same status
exactly if they have the same txids and heights, each as often (`status_identifies`).

A height is read as a signed 64-bit number. One that does not fit counts as 0, so an entry with it
has the status of an entry in the mempool (`large_height_collides`).
-/

set_option autoImplicit false

namespace BroadcastPool

/-- The integer that a value stands for, of any size. -/
def integer? : Json → Option Int
  | .num (.int n) => some n
  | _ => none

/-- The txid and the height of an entry. -/
def entryPair (entry : Json) : Option String × Option Int :=
  (txHash? entry, (entry.get? "height").bind integer?)

/-- The entry has a txid without a colon, and an integer for its height. -/
def IsHistoryEntry (entry : Json) : Prop :=
  ∃ txid height, entryPair entry = (some txid, some height) ∧ ':' ∉ txid.toList

/-- Its height is a signed 64-bit number as well. -/
def IsStatusEntry (entry : Json) : Prop :=
  IsHistoryEntry entry ∧ ∀ height ∈ (entryPair entry).2, -2 ^ 63 ≤ height ∧ height < 2 ^ 63

/-! ### What the text says of an entry -/

/-- What the source reads of an entry is its txid and its height. -/
theorem entryPair_eq {entry : Json} (h : IsStatusEntry entry) :
    entryPair entry = (some (statusKey entry).2, some (statusKey entry).1) := by
  obtain ⟨⟨txid, height, hpair, -⟩, hrange⟩ := h
  have hfits := hrange height (by rw [hpair]; rfl)
  obtain ⟨htxid, hheight⟩ := Prod.mk.inj hpair
  obtain ⟨v, hv, hvalue⟩ := Option.bind_eq_some_iff.1 hheight
  have hread : v.asI64? = some height := by
    unfold integer? at hvalue
    split at hvalue
    · cases hvalue
      exact Json.asI64?_ofInt hfits
    · cases hvalue
  rw [hpair]
  unfold statusKey heightOf txHashOf
  rw [htxid, hv, Option.bind_some, hread]
  rfl

theorem colon_notMem_txHashOf {entry : Json} (h : IsStatusEntry entry) :
    ':' ∉ (txHashOf entry).toList := by
  obtain ⟨⟨txid, height, hpair, hcolon⟩, -⟩ := h
  have htxid : txHash? entry = some txid := (Prod.mk.inj hpair).1
  unfold txHashOf
  rw [htxid]
  exact hcolon

/-- The pairs of two histories agree exactly if the keys do that the source sorts by. -/
theorem perm_entryPair_iff {history history' : List Json} (h : ∀ v ∈ history, IsStatusEntry v)
    (h' : ∀ v ∈ history', IsStatusEntry v) :
    (history.map entryPair).Perm (history'.map entryPair) ↔
      (history.map statusKey).Perm (history'.map statusKey) := by
  have hpairs : ∀ l : List Json, (∀ v ∈ l, IsStatusEntry v) →
      l.map entryPair = (l.map statusKey).map fun key => (some key.2, some key.1) := by
    intro l hl
    rw [List.map_map]
    exact List.map_congr_left fun v hv => entryPair_eq (hl v hv)
  rw [hpairs history h, hpairs history' h']
  refine List.map_perm_map_iff fun k l hkl => ?_
  obtain ⟨h₂, h₁⟩ := Prod.mk.inj hkl
  exact Prod.ext (Option.some.inj h₁) (Option.some.inj h₂)

/-! ### The order and the text -/

/-- The text depends on the keys of the entries only. -/
theorem statusText_congr {xs ys : List Json} (h : xs.map statusKey = ys.map statusKey) :
    statusText xs = statusText ys := by
  have hentry : ∀ l : List Json,
      l.map statusEntry =
        (l.map statusKey).map fun key => key.2 ++ ":" ++ toString key.1 ++ ":" := by
    intro l
    rw [List.map_map]
    rfl
  unfold statusText
  rw [hentry xs, hentry ys, h]

/-- Two entries that the order does not tell apart have the same key. -/
theorem statusKey_eq_of_statusLe {a b : Json} (hab : statusLe a b) (hba : statusLe b a) :
    statusKey a = statusKey b := by
  rcases hab with hlt | ⟨heq, hle⟩
  · rcases hba with hlt' | ⟨heq', -⟩
    · omega
    · omega
  · rcases hba with hlt' | ⟨-, hle'⟩
    · omega
    · exact Prod.ext heq (le_antisymm hle hle')

/-- The sort is canonical: it forgets the order in which the entries come. -/
theorem sorted_keys_congr {history history' : List Json}
    (h : (history.map statusKey).Perm (history'.map statusKey)) :
    (history.insertionSort statusLe).map statusKey =
      (history'.insertionSort statusLe).map statusKey := by
  have hsorted : ∀ l : List Json, ((l.insertionSort statusLe).map statusKey).Pairwise
      fun k l => k.1 < l.1 ∨ k.1 = l.1 ∧ k.2 ≤ l.2 := by
    intro l
    rw [List.pairwise_map]
    exact List.pairwise_insertionSort statusLe l
  have hperm : ((history.insertionSort statusLe).map statusKey).Perm
      ((history'.insertionSort statusLe).map statusKey) :=
    ((List.perm_insertionSort statusLe history).map statusKey).trans
      (h.trans ((List.perm_insertionSort statusLe history').map statusKey).symm)
  refine hperm.eq_of_pairwise (fun k l hk hl hkl hlk => ?_) (hsorted history) (hsorted history')
  obtain ⟨a, -, rfl⟩ := List.mem_map.1 hk
  obtain ⟨b, -, rfl⟩ := List.mem_map.1 hl
  exact statusKey_eq_of_statusLe hkl hlk

/-- The hashed texts are equal exactly if the histories have the same keys. -/
theorem hashedText_perm_iff {history history' : List Json}
    (h : ∀ v ∈ history, ':' ∉ (txHashOf v).toList)
    (h' : ∀ v ∈ history', ':' ∉ (txHashOf v).toList) :
    hashedText history = hashedText history' ↔
      (history.map statusKey).Perm (history'.map statusKey) := by
  have hcolon : ∀ l : List Json, (∀ v ∈ l, ':' ∉ (txHashOf v).toList) →
      ∀ v ∈ l.insertionSort statusLe, ':' ∉ (txHashOf v).toList :=
    fun l hl v hv => hl v ((List.mem_insertionSort _).1 hv)
  constructor
  · intro htext
    have hkeys := statusText_injective (hcolon history h) (hcolon history' h') htext
    calc (history.map statusKey).Perm ((history.insertionSort statusLe).map statusKey) :=
          ((List.perm_insertionSort statusLe history).map statusKey).symm
      _ = (history'.insertionSort statusLe).map statusKey := hkeys
      List.Perm _ (history'.map statusKey) :=
          (List.perm_insertionSort statusLe history').map statusKey
  · exact fun hperm => statusText_congr (sorted_keys_congr hperm)

/-- The same, if the entries say what a status reads of them. -/
theorem hashedText_congr_iff {history history' : List Json} (h : ∀ v ∈ history, IsStatusEntry v)
    (h' : ∀ v ∈ history', IsStatusEntry v) :
    hashedText history = hashedText history' ↔
      (history.map entryPair).Perm (history'.map entryPair) := by
  rw [perm_entryPair_iff h h']
  exact hashedText_perm_iff (fun v hv => colon_notMem_txHashOf (h v hv))
    fun v hv => colon_notMem_txHashOf (h' v hv)

/-! ### The status -/

/-- The status says which entries a history has. -/
structure Identifies (sha256Hex : String → String) (history history' : List Json) : Prop where
  text : hashedText history = hashedText history' ↔
    (history.map entryPair).Perm (history'.map entryPair)
  status : computeStatusHash sha256Hex history = computeStatusHash sha256Hex history' ↔
    (history.map entryPair).Perm (history'.map entryPair)
  empty : computeStatusHash sha256Hex history = none ↔ history = []
  /-- The order in which the entries are combined does not matter. -/
  order : ∀ combined, combined.Perm history →
    computeStatusHash sha256Hex combined = computeStatusHash sha256Hex history
  /-- One more entry, or one less, changes the status. -/
  added : ∀ v, IsStatusEntry v →
    computeStatusHash sha256Hex (v :: history) ≠ computeStatusHash sha256Hex history
  /-- An entry with another height changes the status. -/
  moved : ∀ v v', IsStatusEntry v → IsStatusEntry v' → entryPair v ≠ entryPair v' →
    computeStatusHash sha256Hex (v :: history) ≠ computeStatusHash sha256Hex (v' :: history)

theorem computeStatusHash_eq_none_iff {sha256Hex : String → String} {history : List Json} :
    computeStatusHash sha256Hex history = none ↔ history = [] := by
  unfold computeStatusHash
  split
  · rename_i hnil
    exact iff_of_true rfl hnil
  · rename_i hne
    exact iff_of_false (fun h => by cases h) hne

/-- With an injective hash, the status decides what the text does. -/
theorem computeStatusHash_perm_iff {sha256Hex : String → String}
    (hsha : Function.Injective sha256Hex) {history history' : List Json}
    (h : ∀ v ∈ history, ':' ∉ (txHashOf v).toList)
    (h' : ∀ v ∈ history', ':' ∉ (txHashOf v).toList) :
    computeStatusHash sha256Hex history = computeStatusHash sha256Hex history' ↔
      (history.map statusKey).Perm (history'.map statusKey) := by
  by_cases hnil : history = []
  · subst hnil
    rw [eq_comm, show computeStatusHash sha256Hex [] = none from rfl,
      computeStatusHash_eq_none_iff, List.map_nil, List.nil_perm, List.map_eq_nil_iff]
  · by_cases hnil' : history' = []
    · subst hnil'
      rw [show computeStatusHash sha256Hex [] = none from rfl, computeStatusHash_eq_none_iff,
        List.map_nil, List.perm_nil, List.map_eq_nil_iff]
    · rw [← hashedText_perm_iff h h']
      unfold computeStatusHash hashedText
      rw [if_neg hnil, if_neg hnil', Option.some_inj]
      exact hsha.eq_iff

theorem computeStatusHash_eq_iff {sha256Hex : String → String}
    (hsha : Function.Injective sha256Hex) {history history' : List Json}
    (h : ∀ v ∈ history, IsStatusEntry v) (h' : ∀ v ∈ history', IsStatusEntry v) :
    computeStatusHash sha256Hex history = computeStatusHash sha256Hex history' ↔
      (history.map entryPair).Perm (history'.map entryPair) := by
  rw [perm_entryPair_iff h h']
  exact computeStatusHash_perm_iff hsha (fun v hv => colon_notMem_txHashOf (h v hv))
    fun v hv => colon_notMem_txHashOf (h' v hv)

/-- The status identifies the history. -/
theorem status_identifies {sha256Hex : String → String} (hsha : Function.Injective sha256Hex)
    {history history' : List Json} (h : ∀ v ∈ history, IsStatusEntry v)
    (h' : ∀ v ∈ history', IsStatusEntry v) : Identifies sha256Hex history history' := by
  have hcons : ∀ v, IsStatusEntry v → ∀ x ∈ v :: history, IsStatusEntry x := by
    intro v hv x hx
    rcases List.mem_cons.1 hx with rfl | hx
    · exact hv
    · exact h x hx
  refine ⟨hashedText_congr_iff h h', computeStatusHash_eq_iff hsha h h',
    computeStatusHash_eq_none_iff, fun combined hperm => ?_, fun v hv hsame => ?_,
    fun v v' hv hv' hne hsame => ?_⟩
  · refine (computeStatusHash_eq_iff hsha (fun x hx => h x (hperm.mem_iff.1 hx)) h).2 ?_
    exact hperm.map entryPair
  · have hlength := ((computeStatusHash_eq_iff hsha (hcons v hv) h).1 hsame).length_eq
    simp at hlength
  · have hperm := (computeStatusHash_eq_iff hsha (hcons v hv) (hcons v' hv')).1 hsame
    have hcount := hperm.count_eq (entryPair v)
    rw [List.map_cons, List.map_cons, List.count_cons_self, List.count_cons_of_ne hne.symm]
      at hcount
    omega

/-- A height that does not fit counts as 0. -/
theorem large_height_collides :
    ¬ ∀ history history' : List Json, (∀ v ∈ history, IsHistoryEntry v) →
      (∀ v ∈ history', IsHistoryEntry v) →
      (hashedText history = hashedText history' ↔
        (history.map entryPair).Perm (history'.map entryPair)) := by
  have hentry : ∀ height, ∀ v ∈ [sampleEntry "aa" height], IsHistoryEntry v := by
    intro height v hv
    rw [List.mem_singleton.1 hv]
    exact ⟨"aa", height, rfl, by decide⟩
  intro h
  have hperm := (h [sampleEntry "aa" (2 ^ 63)] [sampleEntry "aa" 0] (hentry _) (hentry _)).1
    (by decide)
  revert hperm
  decide

theorem isStatusEntry_sample {txid : String} {height : Int} (hcolon : ':' ∉ txid.toList)
    (hrange : -2 ^ 63 ≤ height ∧ height < 2 ^ 63) : IsStatusEntry (sampleEntry txid height) := by
  refine ⟨⟨txid, height, rfl, hcolon⟩, fun n hn => ?_⟩
  cases hn
  exact hrange

theorem status_identifies_sample :
    Identifies id [sampleEntry "aa" 5, sampleEntry "bb" (-1)]
      [sampleEntry "bb" (-1), sampleEntry "aa" 5] := by
  have h : ∀ v ∈ [sampleEntry "aa" 5, sampleEntry "bb" (-1)], IsStatusEntry v := by
    simp only [List.mem_cons, List.not_mem_nil, or_false, forall_eq_or_imp, forall_eq]
    exact ⟨isStatusEntry_sample (by decide) (by decide),
      isStatusEntry_sample (by decide) (by decide)⟩
  exact status_identifies Function.injective_id h
    fun v hv => h v ((List.Perm.swap _ _ _).mem_iff.1 hv)

end BroadcastPool
