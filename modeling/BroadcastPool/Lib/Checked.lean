import Mathlib.Algebra.BigOperators.Group.List.Defs
import Mathlib.Data.BitVec

/-!
# `BroadcastPool.Lib.Checked`: machine arithmetic with overflow checks

Operations that answer `none` where the exact result leaves the range. An operation that wraps
around is exact where its checked twin answers.
-/

set_option autoImplicit false

/-- The sum of natural numbers onto `acc`, one after the other, each result below `bound`. -/
def checkedSum (bound : Nat) : Nat → List Nat → Option Nat
  | acc, [] => some acc
  | acc, n :: ns => if acc + n < bound then checkedSum bound (acc + n) ns else none

/-- A sum of naturals overflows at some step exactly if the whole sum is too large. -/
theorem checkedSum_eq_some_iff {bound acc s : Nat} {ns : List Nat} (h : acc < bound) :
    checkedSum bound acc ns = some s ↔ acc + ns.sum < bound ∧ acc + ns.sum = s := by
  induction ns generalizing acc with
  | nil => simp [checkedSum, h]
  | cons n ns ih =>
    rw [checkedSum, List.sum_cons, ← Nat.add_assoc]
    by_cases hn : acc + n < bound
    · rw [if_pos hn]
      exact ih hn
    · rw [if_neg hn]
      constructor
      · rintro ⟨⟩
      · rintro ⟨hlt, -⟩
        omega

/-- A signed 64-bit number. -/
def checkedI64 (n : Int) : Option Int := if -2 ^ 63 ≤ n ∧ n < 2 ^ 63 then some n else none

theorem checkedI64_eq_some_iff {n m : Int} :
    checkedI64 n = some m ↔ (-2 ^ 63 ≤ n ∧ n < 2 ^ 63) ∧ n = m := by
  unfold checkedI64
  by_cases h : -2 ^ 63 ≤ n ∧ n < 2 ^ 63
  · rw [if_pos h, Option.some.injEq, and_iff_right h]
  · rw [if_neg h]
    exact iff_of_false nofun fun hn => h hn.1
