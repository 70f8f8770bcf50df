import BroadcastPool.Lib.Decimal
import Mathlib.Data.String.Basic

/-!
# `BroadcastPool.Lib.Calendar`: UTC instants as dates and their RFC 3339 texts

A `Moment` is an instant by its calendar fields in the Gregorian calendar, which is extended to the
years before its introduction. `Moment.nanos` is its number of nanoseconds since the start of the
year 0, and `ofNanos` finds the fields of a number (`nanos_ofNanos`). The numbers are in the order
of the fields (`nanos_lt_iff`).

`Moment.rfc3339` is the text with the shortest of four fractions: none, or 3, 6 or 9 digits. For
years of four digits the texts are in the order of the fields too (`rfc3339_lt_iff`), so texts
compare like instants (`rfc3339_lt_iff_nanos_lt`). Where one fraction ends and the other goes on,
the sign of the offset stands against a point or a digit, and comes before both.
-/

set_option autoImplicit false

namespace Calendar

open Decimal

/-! ### Days and nanoseconds -/

/-- A year with 366 days. -/
def isLeap (year : Nat) : Bool := year % 4 = 0 && (year % 100 ≠ 0 || year % 400 = 0)

/-- The days of the years before this one, from the year 0. -/
def daysBeforeYear (year : Nat) : Nat :=
  365 * year + (year + 3) / 4 + (year + 399) / 400 - (year + 99) / 100

/-- The days of a month, which is counted from 1. -/
def monthLength (leap : Bool) : Nat → Nat
  | 0 => 0
  | 2 => if leap then 29 else 28
  | 4 | 6 | 9 | 11 => 30
  | _ => 31

theorem monthLength_le (leap : Bool) (month : Nat) : monthLength leap month ≤ 31 := by
  unfold monthLength
  split
  · decide
  · split <;> decide
  all_goals decide

/-- The days of the months before this one. -/
def daysBeforeMonth (leap : Bool) : Nat → Nat
  | 0 => 0
  | month + 1 => daysBeforeMonth leap month + monthLength leap month

/-- Nanoseconds of a second, a minute, an hour and a day. -/
def secondNanos : Nat := 1000000000
def minuteNanos : Nat := 60 * secondNanos
def hourNanos : Nat := 60 * minuteNanos
def dayNanos : Nat := 24 * hourNanos

/-- The start of a year, in nanoseconds from the year 0, and of a month in its year. -/
def yearStart (year : Nat) : Nat := daysBeforeYear year * dayNanos
def monthStart (leap : Bool) (month : Nat) : Nat := daysBeforeMonth leap month * dayNanos

/-- A UTC instant by its fields. -/
structure Moment where
  year : Nat
  month : Nat
  day : Nat
  hour : Nat
  minute : Nat
  second : Nat
  nanosecond : Nat
  month_mem : 1 ≤ month ∧ month ≤ 12
  day_mem : 1 ≤ day ∧ day ≤ monthLength (isLeap year) month
  hour_lt : hour < 24
  minute_lt : minute < 60
  second_lt : second < 60
  nanosecond_lt : nanosecond < secondNanos

namespace Moment

/-- The nanoseconds since midnight. -/
def timeNanos (m : Moment) : Nat :=
  m.hour * hourNanos + (m.minute * minuteNanos + (m.second * secondNanos + m.nanosecond))

/-- The nanoseconds since the start of the month. -/
def monthNanos (m : Moment) : Nat := (m.day - 1) * dayNanos + m.timeNanos

/-- The nanoseconds since the start of the year. -/
def yearNanos (m : Moment) : Nat := monthStart (isLeap m.year) m.month + m.monthNanos

/-- The nanoseconds since the start of the year 0. -/
def nanos (m : Moment) : Nat := yearStart m.year + m.yearNanos

/-- The order of the fields. -/
def Before (a b : Moment) : Prop :=
  a.year < b.year ∨ a.year = b.year ∧
    (a.month < b.month ∨ a.month = b.month ∧
      (a.day < b.day ∨ a.day = b.day ∧
        (a.hour < b.hour ∨ a.hour = b.hour ∧
          (a.minute < b.minute ∨ a.minute = b.minute ∧
            (a.second < b.second ∨ a.second = b.second ∧ a.nanosecond < b.nanosecond)))))

end Moment

/-! ### Counting in units of different lengths -/

/-- A number given by a unit that starts at `f q` and a rest within this unit. -/
theorem unit_lt_iff {f : Nat → Nat} (hmono : ∀ q q', q ≤ q' → f q ≤ f q') {q q' r r' : Nat}
    (hr : f q + r < f (q + 1)) (hr' : f q' + r' < f (q' + 1)) :
    f q + r < f q' + r' ↔ q < q' ∨ q = q' ∧ r < r' := by
  rcases Nat.lt_trichotomy q q' with h | rfl | h
  · have hstart : f (q + 1) ≤ f q' := hmono _ _ h
    exact iff_of_true (by omega) (Or.inl h)
  · omega
  · have hstart : f (q' + 1) ≤ f q := hmono _ _ h
    exact iff_of_false (by omega) (by omega)

/-- A number with a bounded high part is bounded. -/
theorem digits_lt {B q Q r : Nat} (hq : q < Q) (hr : r < B) : q * B + r < Q * B := by
  have hstep : (q + 1) * B ≤ Q * B := Nat.mul_le_mul_right B hq
  rw [Nat.succ_mul] at hstep
  omega

/-- The unit of a number, among the `k` units from `a` on. -/
def findUnit (f : Nat → Nat) (a n : Nat) : Nat → Nat
  | 0 => a
  | k + 1 => if n < f (a + k) then findUnit f a n k else a + k

/-- The number is in the unit that is found. -/
theorem findUnit_spec {f : Nat → Nat} {a k n : Nat} (hlow : f a ≤ n) (hhigh : n < f (a + k)) :
    a ≤ findUnit f a n k ∧ findUnit f a n k < a + k ∧ f (findUnit f a n k) ≤ n ∧
      n < f (findUnit f a n k + 1) := by
  induction k with
  | zero => exact absurd hhigh (Nat.not_lt.2 hlow)
  | succ k ih =>
    unfold findUnit
    split
    · rename_i h
      obtain ⟨hfirst, hlast, hin⟩ := ih h
      exact ⟨hfirst, by omega, hin⟩
    · rename_i h
      exact ⟨by omega, by omega, Nat.not_lt.1 h, hhigh⟩

theorem mono_of_succ {f : Nat → Nat} (h : ∀ q, f q ≤ f (q + 1)) : ∀ q q', q ≤ q' → f q ≤ f q' :=
  fun _ _ hq => monotone_nat_of_le_succ h hq

theorem daysBeforeYear_succ (year : Nat) :
    daysBeforeYear (year + 1) = daysBeforeYear year + if isLeap year then 366 else 365 := by
  have h4 : (year + 1 + 3) / 4 = (year + 3) / 4 + if year % 4 = 0 then 1 else 0 := by
    split <;> omega
  have h100 : (year + 1 + 99) / 100 = (year + 99) / 100 + if year % 100 = 0 then 1 else 0 := by
    split <;> omega
  have h400 : (year + 1 + 399) / 400 = (year + 399) / 400 + if year % 400 = 0 then 1 else 0 := by
    split <;> omega
  have hof100 : year % 100 = 0 → year % 4 = 0 := by omega
  have hof400 : year % 400 = 0 → year % 100 = 0 := by omega
  have hcount : (year + 99) / 100 ≤ 365 * year := by omega
  unfold daysBeforeYear
  rw [h4, h100, h400]
  -- Only the three counts before the year matter from here on.
  generalize (year + 3) / 4 = fours at *
  generalize (year + 99) / 100 = centuries at *
  generalize (year + 399) / 400 = cycles at *
  by_cases hm4 : year % 4 = 0
  · by_cases hm100 : year % 100 = 0
    · by_cases hm400 : year % 400 = 0
      · simp [isLeap, hm4, hm100, hm400]
        omega
      · simp [isLeap, hm4, hm100, hm400]
        omega
    · have hm400 : year % 400 ≠ 0 := fun h => hm100 (hof400 h)
      simp [isLeap, hm4, hm100, hm400]
      omega
  · have hm100 : year % 100 ≠ 0 := fun h => hm4 (hof100 h)
    have hm400 : year % 400 ≠ 0 := fun h => hm100 (hof400 h)
    simp [isLeap, hm4, hm100, hm400]
    omega

theorem le_daysBeforeYear (year : Nat) : 365 * year ≤ daysBeforeYear year := by
  unfold daysBeforeYear
  omega

/-- A year is as long as its twelve months. -/
theorem daysBeforeMonth_thirteen (leap : Bool) :
    daysBeforeMonth leap 13 = if leap then 366 else 365 := by
  cases leap <;> rfl

theorem yearStart_mono : ∀ q q', q ≤ q' → yearStart q ≤ yearStart q' := by
  refine mono_of_succ fun q => Nat.mul_le_mul_right _ ?_
  rw [daysBeforeYear_succ]
  exact Nat.le_add_right _ _

theorem monthStart_mono (leap : Bool) :
    ∀ q q', q ≤ q' → monthStart leap q ≤ monthStart leap q' :=
  mono_of_succ fun _ => Nat.mul_le_mul_right _ (Nat.le_add_right _ _)

theorem yearStart_succ (year : Nat) :
    yearStart (year + 1) = yearStart year + monthStart (isLeap year) 13 := by
  unfold yearStart monthStart
  rw [daysBeforeYear_succ, ← daysBeforeMonth_thirteen, Nat.add_mul]

theorem monthStart_one (leap : Bool) : monthStart leap 1 = 0 := Nat.zero_mul _

theorem monthStart_succ (leap : Bool) (month : Nat) :
    monthStart leap (month + 1) = monthStart leap month + monthLength leap month * dayNanos :=
  Nat.add_mul _ _ _

theorem dayStart_mono : ∀ q q', q ≤ q' → (q - 1) * dayNanos ≤ (q' - 1) * dayNanos :=
  fun _ _ h => Nat.mul_le_mul_right _ (Nat.sub_le_sub_right h 1)

namespace Moment

variable (m a b : Moment)

theorem minuteRest_lt : m.second * secondNanos + m.nanosecond < minuteNanos :=
  digits_lt m.second_lt m.nanosecond_lt

theorem hourRest_lt :
    m.minute * minuteNanos + (m.second * secondNanos + m.nanosecond) < hourNanos :=
  digits_lt m.minute_lt m.minuteRest_lt

theorem timeNanos_lt : m.timeNanos < dayNanos := digits_lt m.hour_lt m.hourRest_lt

theorem monthNanos_lt : m.monthNanos < monthLength (isLeap m.year) m.month * dayNanos :=
  digits_lt (by have := m.day_mem; omega) m.timeNanos_lt

/-- A moment is before the end of its month. -/
theorem month_unit :
    monthStart (isLeap m.year) m.month + m.monthNanos <
      monthStart (isLeap m.year) (m.month + 1) := by
  rw [monthStart_succ]
  exact Nat.add_lt_add_left m.monthNanos_lt _

/-- A moment is before the end of its year. -/
theorem year_unit : yearStart m.year + m.yearNanos < yearStart (m.year + 1) := by
  have hend : monthStart (isLeap m.year) (m.month + 1) ≤ monthStart (isLeap m.year) 13 :=
    monthStart_mono _ _ _ (by have := m.month_mem; omega)
  rw [yearStart_succ]
  exact Nat.add_lt_add_left (Nat.lt_of_lt_of_le m.month_unit hend) _

theorem day_unit : (m.day - 1) * dayNanos + m.timeNanos < (m.day + 1 - 1) * dayNanos := by
  have htime := m.timeNanos_lt
  have hday : m.day = m.day - 1 + 1 := by have := m.day_mem; omega
  rw [Nat.add_sub_cancel]
  conv_rhs => rw [hday, Nat.succ_mul]
  omega

/-- The instants are in the order of the fields. -/
theorem nanos_lt_iff : a.nanos < b.nanos ↔ a.Before b := by
  have htime : a.timeNanos < b.timeNanos ↔ a.hour < b.hour ∨ a.hour = b.hour ∧
      (a.minute < b.minute ∨ a.minute = b.minute ∧
        (a.second < b.second ∨ a.second = b.second ∧ a.nanosecond < b.nanosecond)) := by
    unfold timeNanos
    rw [radix_lt_iff a.hourRest_lt b.hourRest_lt, radix_lt_iff a.minuteRest_lt b.minuteRest_lt,
      radix_lt_iff a.nanosecond_lt b.nanosecond_lt]
  have hmonth : a.monthNanos < b.monthNanos ↔
      a.day < b.day ∨ a.day = b.day ∧ a.timeNanos < b.timeNanos :=
    unit_lt_iff dayStart_mono a.day_unit b.day_unit
  have hyear : a.year = b.year → (a.yearNanos < b.yearNanos ↔
      a.month < b.month ∨ a.month = b.month ∧ a.monthNanos < b.monthNanos) := by
    intro h
    have hunit := b.month_unit
    rw [← h] at hunit
    have hiff := unit_lt_iff (monthStart_mono (isLeap a.year)) a.month_unit hunit
    unfold yearNanos
    rw [← h]
    exact hiff
  have hnanos : a.nanos < b.nanos ↔
      a.year < b.year ∨ a.year = b.year ∧ a.yearNanos < b.yearNanos :=
    unit_lt_iff yearStart_mono a.year_unit b.year_unit
  rw [hnanos]
  unfold Before
  refine or_congr_right (and_congr_right fun h => ?_)
  rw [hyear h, hmonth, htime]

end Moment

/-! ### The moment of a number of nanoseconds -/

section
variable (n : Nat)

/-- The year, and the nanoseconds since its start. -/
def yearOf : Nat := findUnit yearStart 0 n (n / (365 * dayNanos) + 1)
def inYear : Nat := n - yearStart (yearOf n)

/-- The month, and the nanoseconds since its start. -/
def monthOf : Nat := findUnit (monthStart (isLeap (yearOf n))) 1 (inYear n) 12
def inMonth : Nat := inYear n - monthStart (isLeap (yearOf n)) (monthOf n)

theorem yearOf_spec : yearStart (yearOf n) ≤ n ∧ n < yearStart (yearOf n + 1) := by
  have hzero : yearStart 0 ≤ n := by
    rw [show yearStart 0 = 0 from Nat.zero_mul _]
    exact Nat.zero_le n
  refine (findUnit_spec (f := yearStart) hzero ?_).2.2
  have hyears : 365 * (n / (365 * dayNanos) + 1) ≤
      daysBeforeYear (0 + (n / (365 * dayNanos) + 1)) := by
    rw [Nat.zero_add]
    exact le_daysBeforeYear _
  calc n < 365 * dayNanos * (n / (365 * dayNanos) + 1) :=
        Nat.lt_mul_div_succ n (by decide)
    _ = 365 * (n / (365 * dayNanos) + 1) * dayNanos := Nat.mul_right_comm _ _ _
    _ ≤ yearStart (0 + (n / (365 * dayNanos) + 1)) := Nat.mul_le_mul_right _ hyears

theorem inYear_lt : inYear n < monthStart (isLeap (yearOf n)) 13 := by
  obtain ⟨hstart, hend⟩ := yearOf_spec n
  rw [yearStart_succ] at hend
  unfold inYear
  omega

theorem monthOf_spec : 1 ≤ monthOf n ∧ monthOf n < 1 + 12 ∧
    monthStart (isLeap (yearOf n)) (monthOf n) ≤ inYear n ∧
      inYear n < monthStart (isLeap (yearOf n)) (monthOf n + 1) := by
  refine findUnit_spec ?_ (inYear_lt n)
  rw [monthStart_one]
  exact Nat.zero_le _

theorem inMonth_lt : inMonth n < monthLength (isLeap (yearOf n)) (monthOf n) * dayNanos := by
  obtain ⟨-, -, hstart, hend⟩ := monthOf_spec n
  rw [monthStart_succ] at hend
  unfold inMonth
  omega

/-- The moment of a number of nanoseconds since the start of the year 0. -/
def ofNanos : Moment where
  year := yearOf n
  month := monthOf n
  day := inMonth n / dayNanos + 1
  hour := inMonth n % dayNanos / hourNanos
  minute := inMonth n % dayNanos % hourNanos / minuteNanos
  second := inMonth n % dayNanos % hourNanos % minuteNanos / secondNanos
  nanosecond := inMonth n % dayNanos % hourNanos % minuteNanos % secondNanos
  month_mem := by
    obtain ⟨hfirst, hlast, -⟩ := monthOf_spec n
    exact ⟨hfirst, Nat.le_of_lt_succ hlast⟩
  day_mem := ⟨Nat.le_add_left 1 _, Nat.div_lt_of_lt_mul (Nat.mul_comm _ _ ▸ inMonth_lt n)⟩
  hour_lt := Nat.div_lt_of_lt_mul (Nat.mod_lt _ (by decide))
  minute_lt := Nat.div_lt_of_lt_mul (Nat.mod_lt _ (by decide))
  second_lt := Nat.div_lt_of_lt_mul (Nat.mod_lt _ (by decide))
  nanosecond_lt := Nat.mod_lt _ (by decide)

/-- No nanosecond is lost. -/
theorem nanos_ofNanos : (ofNanos n).nanos = n := by
  obtain ⟨hyear, -⟩ := yearOf_spec n
  obtain ⟨-, -, hmonth, -⟩ := monthOf_spec n
  have hday : (ofNanos n).day - 1 = inMonth n / dayNanos := Nat.add_sub_cancel _ _
  have htime : (ofNanos n).timeNanos = inMonth n % dayNanos := by
    simp only [Moment.timeNanos, ofNanos, Nat.div_add_mod']
  have hinMonth : (ofNanos n).monthNanos = inMonth n := by
    unfold Moment.monthNanos
    rw [hday, htime, Nat.div_add_mod']
  have hinYear : (ofNanos n).yearNanos = inYear n := by
    unfold Moment.yearNanos
    rw [hinMonth, show (ofNanos n).year = yearOf n from rfl,
      show (ofNanos n).month = monthOf n from rfl]
    unfold inMonth
    omega
  unfold Moment.nanos
  rw [hinYear, show (ofNanos n).year = yearOf n from rfl]
  unfold inYear
  omega

end

namespace Moment

variable (m a b : Moment)

/-! ### Texts -/

/-- The fraction of a second: none, or a point and 3, 6 or 9 digits, as few as possible. -/
def fraction (nanosecond : Nat) : List Char :=
  if nanosecond = 0 then []
  else if nanosecond % 1000000 = 0 then '.' :: pad 3 (nanosecond / 1000000)
  else if nanosecond % 1000 = 0 then '.' :: pad 6 (nanosecond / 1000)
  else '.' :: pad 9 nanosecond

/-- The characters of a moment, with the offset of UTC. -/
def rfc3339Chars : List Char :=
  pad 4 m.year ++ '-' :: (pad 2 m.month ++ '-' :: (pad 2 m.day ++ 'T' ::
    (pad 2 m.hour ++ ':' :: (pad 2 m.minute ++ ':' :: (pad 2 m.second ++
      (fraction m.nanosecond ++ "+00:00".toList))))))

/-- The text of a moment. -/
def rfc3339 : String := String.ofList m.rfc3339Chars

/-- The shortest fraction has its digits in groups of three. -/
theorem fraction_append {n : Nat} (hn : n < secondNanos) (stop : List Char) :
    fraction n ++ stop = if n = 0 then stop else '.' :: groups stop 3 n := by
  have hn' : n < 1000000000 := hn
  have hgroups : ∀ {k i}, i ≠ 0 → groups stop (k + 1) i =
      pad 3 (i / 1000 ^ k) ++ groups stop k (i % 1000 ^ k) := fun hi => by rw [groups, if_neg hi]
  have hend : ∀ k, groups stop k 0 = stop := fun k => by cases k <;> rfl
  have hlow : n % 1000000 % 1000 = n % 1000 := by omega
  unfold fraction
  by_cases h0 : n = 0
  · rw [if_pos h0, if_pos h0, List.nil_append]
  · rw [if_neg h0, if_neg h0, hgroups h0]
    by_cases h6 : n % 1000000 = 0
    · rw [if_pos h6, show n % 1000 ^ 2 = 0 from h6, hend]
      rfl
    · rw [if_neg h6, hgroups (show n % 1000 ^ 2 ≠ 0 from h6)]
      have hhigh : pad 6 (n / 1000) = pad 3 (n / 1000000) ++ pad 3 (n % 1000000 / 1000) := by
        rw [show (6 : Nat) = 3 + 3 from rfl, pad_add (show n / 1000 < 10 ^ (3 + 3) by omega)]
        congr 2 <;> omega
      by_cases h9 : n % 1000 = 0
      · rw [if_pos h9, show n % 1000 ^ 2 % 1000 ^ 1 = 0 from hlow.trans h9, hend, hhigh,
          List.cons_append, List.append_assoc]
        rfl
      · have hnine : pad 9 n = pad 6 (n / 1000) ++ pad 3 (n % 1000) :=
          pad_add (v := 6) (w := 3) hn'
        have hlast : n % 1000 ^ 2 % 1000 ^ 1 / 1000 ^ 0 = n % 1000 := (Nat.div_one _).trans hlow
        rw [if_neg h9, hgroups (show n % 1000 ^ 2 % 1000 ^ 1 ≠ 0 from fun h => h9 (hlow ▸ h)),
          hlast, hnine, hhigh, List.cons_append, List.append_assoc, List.append_assoc]
        rfl

/-- Two texts with the same date and time of day but for the fraction. -/
theorem fraction_lt_iff {n k : Nat} (hn : n < secondNanos) (hk : k < secondNanos) :
    fraction n ++ "+00:00".toList < fraction k ++ "+00:00".toList ↔ n < k := by
  have hstop : "+00:00".toList = '+' :: "00:00".toList := rfl
  rw [fraction_append hn, fraction_append hk, hstop]
  by_cases hn0 : n = 0
  · by_cases hk0 : k = 0
    · subst hn0 hk0
      exact iff_of_false (List.lt_irrefl _) (Nat.lt_irrefl 0)
    · subst hn0
      rw [if_pos rfl, if_neg hk0]
      exact iff_of_true (List.Lex.rel (by decide)) (Nat.pos_of_ne_zero hk0)
  · by_cases hk0 : k = 0
    · subst hk0
      rw [if_neg hn0, if_pos rfl]
      refine iff_of_false (List.not_lt.2 (List.le_of_lt ?_)) (Nat.not_lt_zero n)
      exact List.Lex.rel (by decide)
    · rw [if_neg hn0, if_neg hk0, List.cons_lt_cons_self]
      exact groups_lt_iff hn hk

/-- The texts are in the order of the fields, for years of four digits. -/
theorem rfc3339_lt_iff (ha : a.year < 10000) (hb : b.year < 10000) :
    a.rfc3339 < b.rfc3339 ↔ a.Before b := by
  have hmonth : ∀ m : Moment, m.month < 10 ^ 2 := fun m => by have := m.month_mem; omega
  have hday : ∀ m : Moment, m.day < 10 ^ 2 := fun m => by
    have hlength : monthLength (isLeap m.year) m.month ≤ 31 := monthLength_le _ _
    have := m.day_mem
    omega
  have hhour : ∀ m : Moment, m.hour < 10 ^ 2 := fun m => by have := m.hour_lt; omega
  have hminute : ∀ m : Moment, m.minute < 10 ^ 2 := fun m => by have := m.minute_lt; omega
  have hsecond : ∀ m : Moment, m.second < 10 ^ 2 := fun m => by have := m.second_lt; omega
  unfold rfc3339
  rw [String.lt_iff_toList_lt, String.toList_ofList, String.toList_ofList]
  unfold rfc3339Chars Before
  rw [pad_append_lt_iff (w := 4) ha hb, List.cons_lt_cons_self,
    pad_append_lt_iff (hmonth a) (hmonth b), List.cons_lt_cons_self,
    pad_append_lt_iff (hday a) (hday b), List.cons_lt_cons_self,
    pad_append_lt_iff (hhour a) (hhour b), List.cons_lt_cons_self,
    pad_append_lt_iff (hminute a) (hminute b), List.cons_lt_cons_self,
    pad_append_lt_iff (hsecond a) (hsecond b), fraction_lt_iff a.nanosecond_lt b.nanosecond_lt]

/-- Texts compare like instants. -/
theorem rfc3339_lt_iff_nanos_lt (ha : a.year < 10000) (hb : b.year < 10000) :
    a.rfc3339 < b.rfc3339 ↔ a.nanos < b.nanos := by
  rw [rfc3339_lt_iff a b ha hb, nanos_lt_iff]

end Moment

/-- The texts of two numbers of nanoseconds before the year 10000 are in the order of the numbers.
-/
theorem rfc3339_ofNanos_lt_iff {n k : Nat} (hn : n < yearStart 10000) (hk : k < yearStart 10000) :
    (ofNanos n).rfc3339 < (ofNanos k).rfc3339 ↔ n < k := by
  have hyear : ∀ {i}, i < yearStart 10000 → (ofNanos i).year < 10000 := by
    intro i hi
    by_contra hlate
    have hstart := yearStart_mono _ _ (Nat.not_lt.1 hlate)
    have hin := (yearOf_spec i).1
    rw [show (ofNanos i).year = yearOf i from rfl] at hstart
    omega
  rw [Moment.rfc3339_lt_iff_nanos_lt _ _ (hyear hn) (hyear hk), nanos_ofNanos, nanos_ofNanos]

end Calendar
