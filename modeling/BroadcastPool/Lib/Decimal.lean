import Mathlib.Data.BitVec
import Mathlib.Data.List.Basic

/-!
# `BroadcastPool.Lib.Decimal`: decimal texts of a fixed width and their order

`pad w n` is a number in `w` decimal digits. Texts are compared by their characters, so two numbers
of the same width compare like their texts, and equal ones leave the decision to what follows
(`pad_append_lt_iff`).

`groups stop k n` writes the number `n` below `1000 ^ k` as the fraction `n / 1000 ^ k`: three
digits at a time, as long as there is something left, and then `stop`. If `stop` begins with a
character before all digits, the texts of two fractions compare like the numbers although their
lengths differ (`groups_lt_iff`).
-/

set_option autoImplicit false

namespace Decimal

/-! ### Digits -/

/-- A number below 10, as a character. -/
def digit (n : Nat) : Char := Char.ofNat ('0'.toNat + n)

/-- A number in `w` digits. -/
def pad : Nat → Nat → List Char
  | 0, _ => []
  | w + 1, n => digit (n / 10 ^ w) :: pad w (n % 10 ^ w)

theorem digit_lt_iff : ∀ {n m : Nat}, n < 10 → m < 10 → (digit n < digit m ↔ n < m) := by
  have h : ∀ n < 10, ∀ m < 10, (digit n < digit m ↔ n < m) := by decide
  exact fun {_ _} hn hm => h _ hn _ hm

theorem digit_inj : ∀ {n m : Nat}, n < 10 → m < 10 → (digit n = digit m ↔ n = m) := by
  have h : ∀ n < 10, ∀ m < 10, (digit n = digit m ↔ n = m) := by decide
  exact fun {_ _} hn hm => h _ hn _ hm

theorem plus_lt_digit : ∀ {n : Nat}, n < 10 → '+' < digit n := by decide

/-- Two numbers in a mixed radix, compared by the high parts first. -/
theorem radix_lt_iff {B q q' r r' : Nat} (hr : r < B) (hr' : r' < B) :
    q * B + r < q' * B + r' ↔ q < q' ∨ q = q' ∧ r < r' := by
  rcases Nat.lt_trichotomy q q' with h | rfl | h
  · have hstep : (q + 1) * B ≤ q' * B := Nat.mul_le_mul_right B h
    rw [Nat.succ_mul] at hstep
    exact iff_of_true (by omega) (Or.inl h)
  · omega
  · have hstep : (q' + 1) * B ≤ q * B := Nat.mul_le_mul_right B h
    rw [Nat.succ_mul] at hstep
    exact iff_of_false (by omega) (by omega)

/-- The same for the quotient and the remainder. -/
theorem div_mod_lt_iff {B n m : Nat} (hB : 0 < B) :
    n < m ↔ n / B < m / B ∨ n / B = m / B ∧ n % B < m % B := by
  rw [← radix_lt_iff (Nat.mod_lt n hB) (Nat.mod_lt m hB), Nat.div_add_mod', Nat.div_add_mod']

theorem div_mod_eq_iff {B n m : Nat} : n = m ↔ n / B = m / B ∧ n % B = m % B := by
  constructor
  · rintro rfl
    exact ⟨rfl, rfl⟩
  · rintro ⟨hdiv, hmod⟩
    rw [← Nat.div_add_mod' n B, hdiv, hmod, Nat.div_add_mod']

/-- Numbers of one width are compared first, and then what follows. -/
theorem pad_append_lt_iff {w n m : Nat} (hn : n < 10 ^ w) (hm : m < 10 ^ w) {x y : List Char} :
    pad w n ++ x < pad w m ++ y ↔ n < m ∨ n = m ∧ x < y := by
  induction w generalizing n m with
  | zero =>
    obtain rfl : n = 0 := by simpa using hn
    obtain rfl : m = 0 := by simpa using hm
    simp [pad]
  | succ w ih =>
    have hpos : 0 < 10 ^ w := Nat.pow_pos (by decide)
    have hdigit : ∀ {k}, k < 10 ^ (w + 1) → k / 10 ^ w < 10 := fun hk =>
      Nat.div_lt_of_lt_mul (by rwa [← Nat.pow_succ])
    rw [pad, pad, List.cons_append, List.cons_append, List.cons_lt_cons_iff,
      digit_lt_iff (hdigit hn) (hdigit hm), digit_inj (hdigit hn) (hdigit hm),
      ih (Nat.mod_lt n hpos) (Nat.mod_lt m hpos), div_mod_lt_iff hpos (n := n),
      div_mod_eq_iff (B := 10 ^ w) (n := n)]
    tauto

/-- The digits of a number, in two parts. -/
theorem pad_add {v w n : Nat} (hn : n < 10 ^ (v + w)) :
    pad (v + w) n = pad v (n / 10 ^ w) ++ pad w (n % 10 ^ w) := by
  induction v generalizing n with
  | zero =>
    rw [Nat.zero_add] at hn ⊢
    rw [Nat.mod_eq_of_lt hn]
    rfl
  | succ v ih =>
    have hpow : 10 ^ (v + w) = 10 ^ w * 10 ^ v := by rw [Nat.add_comm, Nat.pow_add]
    have hdiv : n / 10 ^ (v + w) = n / 10 ^ w / 10 ^ v := by rw [hpow, Nat.div_div_eq_div_mul]
    have hmid : n % 10 ^ (v + w) / 10 ^ w = n / 10 ^ w % 10 ^ v := by
      rw [hpow, Nat.mod_mul_right_div_self]
    have hlow : n % 10 ^ (v + w) % 10 ^ w = n % 10 ^ w :=
      Nat.mod_mod_of_dvd n (Nat.pow_dvd_pow 10 (Nat.le_add_left w v))
    rw [show v + 1 + w = v + w + 1 by omega, pad, pad, ih (Nat.mod_lt n (Nat.pow_pos (by decide))),
      hdiv, hmid, hlow, List.cons_append]

/-! ### Fractions -/

/-- A fraction in groups of three digits, as many as it needs, and then `stop`. -/
def groups (stop : List Char) : Nat → Nat → List Char
  | 0, _ => stop
  | k + 1, n => if n = 0 then stop else pad 3 (n / 1000 ^ k) ++ groups stop k (n % 1000 ^ k)

/-- A fraction that is not 0 begins with a digit. -/
theorem groups_cons {stop : List Char} {k n : Nat} (hn : n < 1000 ^ k) (hpos : n ≠ 0) :
    ∃ d rest, d < 10 ∧ groups stop k n = digit d :: rest := by
  cases k with
  | zero =>
    rw [Nat.pow_zero, Nat.lt_one_iff] at hn
    exact absurd hn hpos
  | succ k =>
    have hgroup : n / 1000 ^ k < 1000 :=
      Nat.div_lt_of_lt_mul (by rwa [← Nat.pow_succ])
    rw [groups, if_neg hpos]
    exact ⟨n / 1000 ^ k / 10 ^ 2, _, by omega, rfl⟩

/-- Fractions compare like their numbers. The induction is on the groups that are left. -/
theorem groups_lt_iff {stop : List Char} {k n m : Nat} (hn : n < 1000 ^ k) (hm : m < 1000 ^ k) :
    groups ('+' :: stop) k n < groups ('+' :: stop) k m ↔ n < m := by
  induction k generalizing n m with
  | zero =>
    rw [Nat.pow_zero, Nat.lt_one_iff] at hn hm
    subst hn hm
    exact iff_of_false (List.lt_irrefl _) (Nat.lt_irrefl 0)
  | succ k ih =>
    by_cases hn0 : n = 0
    · by_cases hm0 : m = 0
      · subst hn0 hm0
        exact iff_of_false (List.lt_irrefl _) (Nat.lt_irrefl 0)
      · -- The first fraction has ended.
        obtain ⟨d, rest, hd, hgroups⟩ := @groups_cons ('+' :: stop) _ _ hm hm0
        subst hn0
        rw [hgroups]
        exact iff_of_true (List.Lex.rel (plus_lt_digit hd)) (Nat.pos_of_ne_zero hm0)
    · by_cases hm0 : m = 0
      · obtain ⟨d, rest, hd, hgroups⟩ := @groups_cons ('+' :: stop) _ _ hn hn0
        subst hm0
        rw [hgroups]
        refine iff_of_false (List.not_lt.2 (List.le_of_lt ?_)) (Nat.not_lt_zero n)
        exact List.Lex.rel (plus_lt_digit hd)
      · have hpos : 0 < 1000 ^ k := Nat.pow_pos (by decide)
        have hgroup : ∀ {i}, i < 1000 ^ (k + 1) → i / 1000 ^ k < 1000 := fun hi =>
          Nat.div_lt_of_lt_mul (by rwa [← Nat.pow_succ])
        rw [groups, if_neg hn0, groups, if_neg hm0,
          pad_append_lt_iff (hgroup hn) (hgroup hm),
          ih (Nat.mod_lt n hpos) (Nat.mod_lt m hpos), ← div_mod_lt_iff hpos]

end Decimal
