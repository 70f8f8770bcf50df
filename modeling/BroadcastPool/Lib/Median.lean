import Mathlib.Data.List.Sort

/-!
# `BroadcastPool.Lib.Median`: the median of a list

`IsMedian` counts the elements on the two sides and does not mention an order of the list. The
middle of the sorted list is the median (`isMedian_sorted`), and the only one (`IsMedian.eq`). Of a
list of even length it is the upper one of the two in the middle.
-/

set_option autoImplicit false

section

variable {α : Type} [LinearOrder α]

/-- At most half of the list is below `m`, and more than half of it is not above `m`. -/
structure IsMedian (l : List α) (m : α) : Prop where
  below : l.countP (· < m) ≤ l.length / 2
  upTo : l.length / 2 < l.countP (· ≤ m)

theorem IsMedian.eq {l : List α} {m m' : α} (h : IsMedian l m) (h' : IsMedian l m') :
    m = m' := by
  -- What is not above the smaller one is below the larger one, and that is too much.
  have hnot : ∀ {a b : α}, IsMedian l a → IsMedian l b → ¬ a < b := by
    intro a b ha hb hlt
    have hle : l.countP (· ≤ a) ≤ l.countP (· < b) := by
      apply List.countP_mono_left
      intro x _ hx
      simp only [decide_eq_true_eq] at hx ⊢
      exact lt_of_le_of_lt hx hlt
    have := ha.upTo
    have := hb.below
    omega
  rcases lt_trichotomy m m' with hlt | heq | hlt
  · exact absurd hlt (hnot h h')
  · exact heq
  · exact absurd hlt (hnot h' h)

/-- The median depends on the elements only. -/
theorem IsMedian.perm {l l' : List α} (hp : l.Perm l') {m : α} (h : IsMedian l m) :
    IsMedian l' m := by
  constructor
  · rw [← hp.countP_eq, ← hp.length_eq]
    exact h.below
  · rw [← hp.countP_eq, ← hp.length_eq]
    exact h.upTo

/-- The middle of a list in order. -/
theorem isMedian_getElem {l : List α} (hl : l.Pairwise (· ≤ ·)) {k : Nat} (hk : k = l.length / 2)
    (h : k < l.length) : IsMedian l l[k] := by
  have hmono : ∀ i j (hi : i < l.length) (hj : j < l.length), i ≤ j → l[i] ≤ l[j] := by
    intro i j hi hj hij
    rcases Nat.lt_or_eq_of_le hij with hlt | rfl
    · exact List.pairwise_iff_getElem.1 hl i j hi hj hlt
    · exact le_rfl
  generalize hm : l[k] = m at *
  constructor
  · -- Nothing from the middle on is below it.
    have hzero : (l.drop k).countP (· < m) = 0 := by
      rw [List.countP_eq_zero]
      intro x hx
      obtain ⟨i, hi, rfl⟩ := List.mem_iff_getElem.1 hx
      rw [List.length_drop] at hi
      rw [List.getElem_drop, decide_eq_true_eq, not_lt, ← hm]
      exact hmono _ _ h (by omega) (by omega)
    calc l.countP (· < m)
        = (l.take k).countP (· < m) + (l.drop k).countP (· < m) := by
          rw [← List.countP_append, List.take_append_drop]
      _ ≤ (l.take k).length := by
          rw [hzero, Nat.add_zero]
          exact List.countP_le_length
      _ ≤ l.length / 2 := by rw [List.length_take]; omega
  · -- Everything up to the middle is not above it.
    have hall : (l.take (k + 1)).countP (· ≤ m) = (l.take (k + 1)).length := by
      rw [List.countP_eq_length]
      intro x hx
      obtain ⟨i, hi, rfl⟩ := List.mem_iff_getElem.1 hx
      rw [List.length_take] at hi
      rw [List.getElem_take, decide_eq_true_eq, ← hm]
      exact hmono _ _ (by omega) h (by omega)
    have hsub : (l.take (k + 1)).countP (· ≤ m) ≤ l.countP (· ≤ m) :=
      (List.take_sublist (k + 1) l).countP_le
    rw [hall, List.length_take] at hsub
    omega

/-- The middle of the sorted list. -/
theorem isMedian_sorted (l : List α) {k : Nat} (hk : k = l.length / 2)
    (h : k < (l.insertionSort (· ≤ ·)).length) :
    IsMedian l (l.insertionSort (· ≤ ·))[k] := by
  have hp := l.perm_insertionSort (· ≤ ·)
  apply IsMedian.perm hp
  apply isMedian_getElem (l.pairwise_insertionSort (· ≤ ·))
  rw [hp.length_eq]
  exact hk

end
