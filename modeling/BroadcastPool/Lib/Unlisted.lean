import Mathlib.Data.List.Basic

/-!
# `BroadcastPool.Lib.Unlisted`: appending what a list does not have

`appendUnlisted key? keyOf entry xs new` is the list `xs` followed by the entries of the elements of
`new` whose key no element of `xs` has. The keys of `xs` are taken before anything is appended, so a
key that `new` has twice is appended twice.

If an entry has the key of its element, the keys of the result are those of `xs` and of `new`
(`mem_keys_appendUnlisted`). So a second time nothing is appended (`appendUnlisted_again`), and
lists without a common key can be appended one after the other (`appendUnlisted_append`).
-/

set_option autoImplicit false

namespace Unlisted

variable {V H K : Type} [DecidableEq K] (key? : V → Option K) (keyOf : H → K) (entry : H → V)

/-- `xs`, and then the entries of the elements of `new` that `xs` does not have. -/
def appendUnlisted (xs : List V) (new : List H) : List V :=
  xs ++ (new.filter (keyOf · ∉ xs.filterMap key?)).map entry

variable {key? keyOf entry} {xs : List V} {new new' : List H}

/-- The keys afterwards. -/
theorem mem_keys_appendUnlisted (hkey : ∀ x ∈ new, key? (entry x) = some (keyOf x)) {k : K} :
    k ∈ (appendUnlisted key? keyOf entry xs new).filterMap key? ↔
      k ∈ xs.filterMap key? ∨ ∃ x ∈ new, keyOf x = k := by
  unfold appendUnlisted
  rw [List.filterMap_append, List.mem_append]
  constructor
  · rintro (hk | hk)
    · exact Or.inl hk
    · obtain ⟨v, hv, hkv⟩ := List.mem_filterMap.1 hk
      obtain ⟨x, hx, rfl⟩ := List.mem_map.1 hv
      have hnew := (List.mem_filter.1 hx).1
      rw [hkey x hnew] at hkv
      exact Or.inr ⟨x, hnew, Option.some.inj hkv⟩
  · rintro (hk | ⟨x, hx, rfl⟩)
    · exact Or.inl hk
    · by_cases hlisted : keyOf x ∈ xs.filterMap key?
      · exact Or.inl hlisted
      · refine Or.inr (List.mem_filterMap.2 ⟨entry x, ?_, hkey x hx⟩)
        exact List.mem_map_of_mem (List.mem_filter.2 ⟨hx, decide_eq_true hlisted⟩)

/-- Nothing is appended if the list has every key. -/
theorem appendUnlisted_of_listed (h : ∀ x ∈ new, keyOf x ∈ xs.filterMap key?) :
    appendUnlisted key? keyOf entry xs new = xs := by
  have hnone : new.filter (keyOf · ∉ xs.filterMap key?) = [] := by
    refine List.filter_eq_nil_iff.2 fun x hx hnot => ?_
    exact of_decide_eq_true hnot (h x hx)
  unfold appendUnlisted
  rw [hnone, List.map_nil, List.append_nil]

/-- A second time nothing is appended. -/
theorem appendUnlisted_again (hkey : ∀ x ∈ new, key? (entry x) = some (keyOf x)) :
    appendUnlisted key? keyOf entry (appendUnlisted key? keyOf entry xs new) new =
      appendUnlisted key? keyOf entry xs new :=
  appendUnlisted_of_listed fun x hx => (mem_keys_appendUnlisted hkey).2 (Or.inr ⟨x, hx, rfl⟩)

/-- Two lists without a common key, one after the other and together. -/
theorem appendUnlisted_append (hkey : ∀ x ∈ new, key? (entry x) = some (keyOf x))
    (hdisjoint : ∀ x ∈ new, ∀ x' ∈ new', keyOf x ≠ keyOf x') :
    appendUnlisted key? keyOf entry (appendUnlisted key? keyOf entry xs new) new' =
      appendUnlisted key? keyOf entry xs (new ++ new') := by
  have hsame : new'.filter
        (keyOf · ∉ (appendUnlisted key? keyOf entry xs new).filterMap key?) =
      new'.filter (keyOf · ∉ xs.filterMap key?) := by
    refine List.filter_congr fun x' hx' => decide_eq_decide.2 (not_congr ?_)
    rw [mem_keys_appendUnlisted hkey]
    refine or_iff_left ?_
    rintro ⟨x, hx, he⟩
    exact hdisjoint x hx x' hx' he
  calc appendUnlisted key? keyOf entry (appendUnlisted key? keyOf entry xs new) new'
      = appendUnlisted key? keyOf entry xs new ++
          (new'.filter (keyOf · ∉ xs.filterMap key?)).map entry := by
        rw [← hsame]
        rfl
    _ = appendUnlisted key? keyOf entry xs (new ++ new') := by
        unfold appendUnlisted
        rw [List.filter_append, List.map_append, List.append_assoc]

end Unlisted
