import Mathlib.Data.BitVec

/-!
# `BroadcastPool.Lib.Json`: JSON values

`Json` is the value that a JSON text stands for. An object is the list of its fields, in the
order of their keys and without repetitions when a parser made it. The accessors (`get?`,
`asStr?`, `asI64?` and so on) answer `none` for a value of another kind, so that a program can
read a message of any shape.
-/

set_option autoImplicit false

/-- A JSON number: a 64-bit integer of either sign, or the bits of a 64-bit float. -/
inductive JsonNumber
  | int (n : Int)
  | float (bits : BitVec 64)
deriving DecidableEq, Repr

/-- A JSON value. -/
inductive Json
  | null
  | bool (b : Bool)
  | num (n : JsonNumber)
  | str (s : String)
  | arr (items : List Json)
  | obj (fields : List (String × Json))

namespace Json

/-! ### Equality -/

mutual

/-- Whether two values are equal. The recursion is the one of `Json` and its three lists. -/
def decEq : (a b : Json) → Decidable (a = b)
  | null, null => isTrue rfl
  | bool a, bool b => decidable_of_iff (a = b) (by simp)
  | num a, num b => decidable_of_iff (a = b) (by simp)
  | str a, str b => decidable_of_iff (a = b) (by simp)
  | arr xs, arr ys =>
    match decEqItems xs ys with
    | isTrue h => isTrue (h ▸ rfl)
    | isFalse h => isFalse fun e => h (arr.inj e)
  | obj xs, obj ys =>
    match decEqFields xs ys with
    | isTrue h => isTrue (h ▸ rfl)
    | isFalse h => isFalse fun e => h (obj.inj e)
  | null, bool _ | null, num _ | null, str _ | null, arr _ | null, obj _
  | bool _, null | bool _, num _ | bool _, str _ | bool _, arr _ | bool _, obj _
  | num _, null | num _, bool _ | num _, str _ | num _, arr _ | num _, obj _
  | str _, null | str _, bool _ | str _, num _ | str _, arr _ | str _, obj _
  | arr _, null | arr _, bool _ | arr _, num _ | arr _, str _ | arr _, obj _
  | obj _, null | obj _, bool _ | obj _, num _ | obj _, str _ | obj _, arr _ => isFalse nofun
termination_by structural a => a

/-- Whether two lists of values are equal. -/
def decEqItems : (xs ys : List Json) → Decidable (xs = ys)
  | [], [] => isTrue rfl
  | x :: xs, y :: ys =>
    match decEq x y, decEqItems xs ys with
    | isTrue h, isTrue h' => isTrue (h ▸ h' ▸ rfl)
    | isFalse h, _ => isFalse fun e => h (List.cons.inj e).1
    | _, isFalse h => isFalse fun e => h (List.cons.inj e).2
  | [], _ :: _ | _ :: _, [] => isFalse nofun
termination_by structural xs => xs

/-- Whether two lists of fields are equal. -/
def decEqFields : (xs ys : List (String × Json)) → Decidable (xs = ys)
  | [], [] => isTrue rfl
  | x :: xs, y :: ys =>
    match decEqField x y, decEqFields xs ys with
    | isTrue h, isTrue h' => isTrue (h ▸ h' ▸ rfl)
    | isFalse h, _ => isFalse fun e => h (List.cons.inj e).1
    | _, isFalse h => isFalse fun e => h (List.cons.inj e).2
  | [], _ :: _ | _ :: _, [] => isFalse nofun
termination_by structural xs => xs

/-- Whether two fields are equal. -/
def decEqField : (x y : String × Json) → Decidable (x = y)
  | (k, x), (l, y) =>
    match decEq x y with
    | isTrue h => decidable_of_iff (k = l) (by simp [h])
    | isFalse h => isFalse fun e => h (Prod.mk.inj e).2
termination_by structural x => x

end

instance : DecidableEq Json := decEq

/-! ### Accessors -/

/-- The field `key` of an object. -/
def get? (v : Json) (key : String) : Option Json :=
  match v with
  | obj fields => fields.lookup key
  | _ => none

/-- The item with an index of an array. -/
def item? (v : Json) (i : Nat) : Option Json :=
  match v with
  | arr items => items[i]?
  | _ => none

def asStr? : Json → Option String
  | str s => some s
  | _ => none

def asArray? : Json → Option (List Json)
  | arr items => some items
  | _ => none

def asObject? : Json → Option (List (String × Json))
  | obj fields => some fields
  | _ => none

def asBool? : Json → Option Bool
  | bool b => some b
  | _ => none

/-- The value as a signed 64-bit integer. -/
def asI64? : Json → Option Int
  | num (.int n) => if -2 ^ 63 ≤ n ∧ n < 2 ^ 63 then some n else none
  | _ => none

/-- The value as an unsigned integer. A number is never above 64 bits. -/
def asU64? : Json → Option Nat
  | num (.int n) => if 0 ≤ n then some n.toNat else none
  | _ => none

/-- An integer as a value. -/
def ofInt (n : Int) : Json := num (.int n)

@[simp] theorem get?_obj (fields : List (String × Json)) (key : String) :
    (obj fields).get? key = fields.lookup key := rfl

@[simp] theorem asStr?_str (s : String) : (str s).asStr? = some s := rfl

@[simp] theorem asArray?_arr (items : List Json) : (arr items).asArray? = some items := rfl

@[simp] theorem asU64?_ofInt (n : Nat) : (ofInt n).asU64? = some n := by
  simp [ofInt, asU64?]

theorem asI64?_ofInt {n : Int} (h : -2 ^ 63 ≤ n ∧ n < 2 ^ 63) : (ofInt n).asI64? = some n := by
  simp only [ofInt, asI64?]
  rw [if_pos h]

/-- A value that reads as a signed integer is in the range of one. -/
theorem asI64?_range {v : Json} {n : Int} (h : v.asI64? = some n) :
    -2 ^ 63 ≤ n ∧ n < 2 ^ 63 := by
  unfold asI64? at h
  split at h
  · split at h
    · cases h
      assumption
    · cases h
  · cases h

/-! ### Changing a field -/

/-- The fields with one field set. A new key goes to its place in the order. -/
def insertField (key : String) (value : Json) : List (String × Json) → List (String × Json)
  | [] => [(key, value)]
  | (k, v) :: rest =>
    if key = k then (key, value) :: rest
    else if key < k then (key, value) :: (k, v) :: rest
    else (k, v) :: insertField key value rest

/-- An object with one field set, and any other value as it is. -/
def setField (v : Json) (key : String) (value : Json) : Json :=
  match v with
  | obj fields => obj (insertField key value fields)
  | v => v

/-- The field that was set. -/
theorem lookup_insertField (key : String) (value : Json) (fields : List (String × Json)) :
    (insertField key value fields).lookup key = some value := by
  induction fields with
  | nil => simp [insertField]
  | cons field fields ih =>
    obtain ⟨k, v⟩ := field
    unfold insertField
    split
    · simp
    · rename_i hne
      split
      · simp
      · rw [List.lookup_cons]
        have : (key == k) = false := by simpa using hne
        rw [this]
        exact ih

/-- The other fields stay as they are. -/
theorem lookup_insertField_ne {key other : String} (h : other ≠ key) (value : Json)
    (fields : List (String × Json)) :
    (insertField key value fields).lookup other = fields.lookup other := by
  have hother : (other == key) = false := by simpa using h
  induction fields with
  | nil => rw [insertField, List.lookup_cons, hother]
  | cons field fields ih =>
    obtain ⟨k, v⟩ := field
    unfold insertField
    split
    · rename_i heq
      rw [List.lookup_cons, List.lookup_cons, ← heq, hother]
    · split
      · rw [List.lookup_cons, hother]
      · rw [List.lookup_cons, List.lookup_cons, ih]

/-- Setting a field leaves the others as they are. -/
theorem get?_setField_ne {key other : String} (h : other ≠ key) (v value : Json) :
    (v.setField key value).get? other = v.get? other := by
  cases v with
  | obj fields => exact lookup_insertField_ne h value fields
  | _ => rfl

/-- An object that has a field has the new value after it was set. -/
theorem get?_setField {v old : Json} {key : String} (h : v.get? key = some old) (value : Json) :
    (v.setField key value).get? key = some value := by
  cases v with
  | obj fields => exact lookup_insertField key value fields
  | _ => cases h

end Json
