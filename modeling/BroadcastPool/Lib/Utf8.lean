import BroadcastPool.Lib.Text

/-!
# `BroadcastPool.Lib.Utf8`: texts as bytes

`byteLength` is the length of a text in UTF-8, and `isCharBoundary` says whether a byte offset
falls between two characters, which is where a text may be cut (`isCharBoundary_iff`).
`decodeLossy` reads any bytes as a text: each longest beginning of a character that is not
completed becomes one replacement character. `splitLines` cuts bytes at the newlines into the
complete lines and an unfinished rest, and `joinLines` is its inverse.
-/

set_option autoImplicit false

namespace Text

/-! ### Byte offsets -/

/-- The number of bytes of some characters. -/
def byteLength : List Char → Nat
  | [] => 0
  | c :: cs => c.utf8Size + byteLength cs

/-- The byte offset `n` falls between two characters, or at an end. -/
def isCharBoundary : List Char → Nat → Bool
  | _, 0 => true
  | [], _ + 1 => false
  | c :: cs, n + 1 => c.utf8Size ≤ n + 1 && isCharBoundary cs (n + 1 - c.utf8Size)

@[simp] theorem isCharBoundary_zero (cs : List Char) : isCharBoundary cs 0 = true := by
  cases cs <;> rfl

/-- A boundary is the length of a beginning. -/
theorem isCharBoundary_iff (cs : List Char) (n : Nat) :
    isCharBoundary cs n = true ↔ ∃ pre, pre <+: cs ∧ byteLength pre = n := by
  induction cs generalizing n with
  | nil =>
    cases n with
    | zero => exact ⟨fun _ => ⟨[], List.nil_prefix, rfl⟩, fun _ => rfl⟩
    | succ n =>
      refine ⟨fun h => absurd h Bool.false_ne_true, ?_⟩
      rintro ⟨pre, hpre, hlen⟩
      rw [List.prefix_nil.1 hpre] at hlen
      cases hlen
  | cons c cs ih =>
    have hpos : 0 < c.utf8Size := c.utf8Size_pos
    cases n with
    | zero => exact ⟨fun _ => ⟨[], List.nil_prefix, rfl⟩, fun _ => rfl⟩
    | succ n =>
      simp only [isCharBoundary, Bool.and_eq_true, decide_eq_true_eq, ih]
      constructor
      · rintro ⟨hle, pre, hpre, hlen⟩
        refine ⟨c :: pre, List.cons_prefix_cons.2 ⟨rfl, hpre⟩, ?_⟩
        simp only [byteLength]
        omega
      · rintro ⟨pre, hpre, hlen⟩
        cases pre with
        | nil => cases hlen
        | cons d pre =>
          obtain ⟨rfl, htail⟩ := List.cons_prefix_cons.1 hpre
          simp only [byteLength] at hlen
          exact ⟨by omega, pre, htail, by omega⟩

/-- `&s[..n]` and `&s[n..]`. There is neither if `n` is inside a character. -/
def splitAtByte : List Char → Nat → Option (List Char × List Char)
  | cs, 0 => some ([], cs)
  | [], _ + 1 => none
  | c :: cs, n + 1 =>
    if c.utf8Size ≤ n + 1 then
      (splitAtByte cs (n + 1 - c.utf8Size)).map fun parts => (c :: parts.1, parts.2)
    else none

theorem isSome_splitAtByte (cs : List Char) (n : Nat) :
    (splitAtByte cs n).isSome = isCharBoundary cs n := by
  induction cs generalizing n with
  | nil => cases n <;> rfl
  | cons c cs ih =>
    cases n with
    | zero => rfl
    | succ n =>
      unfold splitAtByte isCharBoundary
      split
      · rename_i hle
        rw [Option.isSome_map, ih, decide_eq_true hle, Bool.true_and]
      · rename_i hnot
        rw [decide_eq_false hnot, Bool.false_and]
        rfl

/-- Every character is one byte. -/
def IsAscii (s : String) : Prop := ∀ c ∈ s.toList, c.utf8Size = 1

theorem isAscii_iff (s : String) : IsAscii s ↔ s.toList.all (·.utf8Size == 1) = true := by
  simp [IsAscii]

instance (s : String) : Decidable (IsAscii s) := decidable_of_iff _ (isAscii_iff s).symm

theorem byteLength_ascii {cs : List Char} (h : ∀ c ∈ cs, c.utf8Size = 1) :
    byteLength cs = cs.length := by
  induction cs with
  | nil => rfl
  | cons c cs ih =>
    have hc := h c (List.mem_cons_self ..)
    have hcs := ih fun d hd => h d (List.mem_cons_of_mem _ hd)
    simp only [byteLength, List.length_cons]
    omega

/-- An ASCII text may be cut anywhere. -/
theorem isCharBoundary_ascii {cs : List Char} (h : ∀ c ∈ cs, c.utf8Size = 1) {n : Nat}
    (hn : n ≤ byteLength cs) : isCharBoundary cs n = true := by
  refine (isCharBoundary_iff cs n).2 ⟨cs.take n, List.take_prefix n cs, ?_⟩
  rw [byteLength_ascii fun c hc => h c (List.mem_of_mem_take hc), List.length_take]
  rw [byteLength_ascii h] at hn
  omega

/-- A hexadecimal digit is ASCII. -/
theorem utf8Size_of_hexDigit {c : Char} {n : Nat} (h : hexDigit c = some n) :
    c.utf8Size = 1 := by
  refine Char.utf8Size_eq_one_iff.2 ?_
  unfold hexDigit at h
  split at h
  · rename_i hc
    exact UInt32.le_trans hc.2 (by decide)
  split at h
  · rename_i hc
    exact UInt32.le_trans hc.2 (by decide)
  split at h
  · rename_i hc
    exact UInt32.le_trans hc.2 (by decide)
  · cases h

/-- A text that reads as hexadecimal is ASCII. -/
theorem isAscii_of_hexDecode {s : String} {bytes : List UInt8} (h : hexDecode s = some bytes) :
    IsAscii s :=
  forall_of_hexBytes (fun _ _ => utf8Size_of_hexDigit) h

/-- An ASCII character of a text is a byte of its UTF-8 form. -/
theorem mem_toUTF8_of_mem {c : Char} (hc : c.utf8Size = 1) {s : String} (h : c ∈ s.toList) :
    c.val.toUInt8 ∈ s.toUTF8.data.toList := by
  have hbyte : c.val.toUInt8 ∈ String.utf8EncodeChar c := by
    rw [String.utf8EncodeChar_eq_singleton hc]
    exact List.mem_singleton.2 rfl
  rw [String.toUTF8_eq_toByteArray, ← String.utf8Encode_toList, List.utf8Encode,
    List.toList_data_toByteArray]
  exact List.mem_flatMap.2 ⟨c, h, hbyte⟩

/-! ### Bytes as a text -/

/-- A character that has begun: how many bytes it still needs, its bits so far, and the bounds
of its next byte. -/
structure Utf8Start where
  owed : Nat
  bits : Nat
  low : Nat
  high : Nat
deriving DecidableEq, Repr

/-- What the first byte of a longer character announces. -/
def utf8Start (b : Nat) : Option Utf8Start :=
  if 0xC2 ≤ b ∧ b ≤ 0xDF then some ⟨1, b - 0xC0, 0x80, 0xBF⟩
  else if b = 0xE0 then some ⟨2, 0, 0xA0, 0xBF⟩
  else if b = 0xED then some ⟨2, 0xD, 0x80, 0x9F⟩
  else if 0xE1 ≤ b ∧ b ≤ 0xEF then some ⟨2, b - 0xE0, 0x80, 0xBF⟩
  else if b = 0xF0 then some ⟨3, 0, 0x90, 0xBF⟩
  else if 0xF1 ≤ b ∧ b ≤ 0xF3 then some ⟨3, b - 0xF0, 0x80, 0xBF⟩
  else if b = 0xF4 then some ⟨3, 4, 0x80, 0x8F⟩
  else none

/-- The replacement character. -/
def replacement : Char := '\uFFFD'

/-- A byte between two characters. -/
def beginChar (b : Nat) : List Char × Option Utf8Start :=
  if b < 0x80 then ([Char.ofNat b], none)
  else
    match utf8Start b with
    | some start => ([], some start)
    | none => ([replacement], none)

/-- One more byte: the characters that end with it, and the one that has begun. -/
def feedByte : Option Utf8Start → Nat → List Char × Option Utf8Start
  | none, b => beginChar b
  | some ⟨owed, bits, low, high⟩, b =>
    if low ≤ b ∧ b ≤ high then
      let bits := bits * 64 + b % 64
      if owed ≤ 1 then ([Char.ofNat bits], none) else ([], some ⟨owed - 1, bits, 0x80, 0xBF⟩)
    else (replacement :: (beginChar b).1, (beginChar b).2)

/-- The characters of some bytes, after a character that has begun. -/
def decodeFrom : Option Utf8Start → List UInt8 → List Char
  | none, [] => []
  | some _, [] => [replacement]
  | start, b :: bs =>
    (feedByte start b.toNat).1 ++ decodeFrom (feedByte start b.toNat).2 bs

/-- `String::from_utf8_lossy`. -/
def decodeLossy (bytes : List UInt8) : String := String.ofList (decodeFrom none bytes)

/-- A text without the character `c` at its end. -/
def trimEndMatches (s : String) (c : Char) : String :=
  String.ofList ((s.toList.reverse.dropWhile (· = c)).reverse)

/-- A text without the white space at its start. -/
def trimStart (s : String) : String := String.ofList (s.toList.dropWhile isWhiteSpace)

/-- What a trimmed text starts with, the text starts with after its white space. -/
theorem startsWith_trimStart {s p : String} (h : startsWith (trim s) p = true) :
    startsWith (trimStart s) p = true := by
  simp only [startsWith, trim, trimStart, String.toList_ofList, List.isPrefixOf_iff_prefix] at *
  refine h.trans ?_
  have hsuffix := List.dropWhile_suffix isWhiteSpace
    (l := (s.toList.dropWhile isWhiteSpace).reverse)
  simpa using List.reverse_prefix.2 hsuffix

/-! ### Lines -/

/-- The newline. -/
def newline : UInt8 := 10

/-- The complete lines of some bytes, without their newlines, and the rest after the last. -/
def splitLines : List UInt8 → List (List UInt8) × List UInt8
  | [] => ([], [])
  | b :: bs =>
    let (lines, rest) := splitLines bs
    if b = newline then ([] :: lines, rest)
    else
      match lines with
      | [] => ([], b :: rest)
      | line :: lines => ((b :: line) :: lines, rest)

/-- Some lines, each with its newline, and a rest. -/
def joinLines : List (List UInt8) → List UInt8 → List UInt8
  | [], rest => rest
  | line :: lines, rest => line ++ newline :: joinLines lines rest

/-- No line has a newline in it, and neither has the rest. -/
structure Unbroken (lines : List (List UInt8)) (rest : List UInt8) : Prop where
  lines : ∀ line ∈ lines, newline ∉ line
  rest : newline ∉ rest

theorem joinLines_append (xs ys : List (List UInt8)) (rest : List UInt8) :
    joinLines (xs ++ ys) rest = joinLines xs (joinLines ys rest) := by
  induction xs with
  | nil => rfl
  | cons line xs ih => simp only [List.cons_append, joinLines, ih]

theorem joinLines_rest_append (lines : List (List UInt8)) (rest more : List UInt8) :
    joinLines lines rest ++ more = joinLines lines (rest ++ more) := by
  induction lines with
  | nil => rfl
  | cons line lines ih => simp only [joinLines, List.append_assoc, List.cons_append, ih]

theorem length_le_joinLines (lines : List (List UInt8)) (rest : List UInt8) :
    lines.length ≤ (joinLines lines rest).length := by
  induction lines with
  | nil => exact Nat.zero_le _
  | cons line lines ih =>
    simp only [joinLines, List.length_append, List.length_cons]
    omega

theorem splitLines_of_notMem {rest : List UInt8} (h : newline ∉ rest) :
    splitLines rest = ([], rest) := by
  induction rest with
  | nil => rfl
  | cons b rest ih =>
    have hb : b ≠ newline := fun e => h (e ▸ List.mem_cons_self ..)
    rw [splitLines, ih fun hm => h (List.mem_cons_of_mem _ hm)]
    simp [hb]

theorem splitLines_cons {line : List UInt8} (h : newline ∉ line) (bs : List UInt8) :
    splitLines (line ++ newline :: bs) = (line :: (splitLines bs).1, (splitLines bs).2) := by
  induction line with
  | nil => simp [splitLines]
  | cons b line ih =>
    have hb : b ≠ newline := fun e => h (e ▸ List.mem_cons_self ..)
    rw [List.cons_append, splitLines, ih fun hm => h (List.mem_cons_of_mem _ hm)]
    simp [hb]

/-- Splitting takes the lines apart that were joined, and goes on with what follows them. -/
theorem splitLines_joinLines {lines : List (List UInt8)} (h : ∀ line ∈ lines, newline ∉ line)
    (bs : List UInt8) :
    splitLines (joinLines lines bs) = (lines ++ (splitLines bs).1, (splitLines bs).2) := by
  induction lines with
  | nil => rfl
  | cons line lines ih =>
    rw [joinLines, splitLines_cons (h line (List.mem_cons_self ..)),
      ih fun l hl => h l (List.mem_cons_of_mem _ hl)]
    rfl

/-- Joining puts together what splitting has taken apart. -/
theorem joinLines_splitLines (bs : List UInt8) :
    joinLines (splitLines bs).1 (splitLines bs).2 = bs := by
  induction bs with
  | nil => rfl
  | cons b bs ih =>
    rw [splitLines]
    by_cases hb : b = newline
    · simp [hb, joinLines, ih]
    · cases hlines : (splitLines bs).1 with
      | nil => simpa [hb, joinLines, hlines] using ih
      | cons line lines => simpa [hb, joinLines, hlines] using ih

theorem unbroken_splitLines (bs : List UInt8) :
    Unbroken (splitLines bs).1 (splitLines bs).2 := by
  induction bs with
  | nil => exact ⟨by simp [splitLines], by simp [splitLines]⟩
  | cons b bs ih =>
    obtain ⟨hlines, hrest⟩ := ih
    rw [splitLines]
    by_cases hb : b = newline
    · refine ⟨?_, by simpa [hb] using hrest⟩
      simpa [hb] using hlines
    · cases hcase : (splitLines bs).1 with
      | nil => exact ⟨by simp [hb, hcase], by simpa [hb, hcase, Ne.symm hb] using hrest⟩
      | cons line lines =>
        rw [hcase] at hlines
        refine ⟨?_, by simpa [hb, hcase] using hrest⟩
        simpa [hb, hcase, Ne.symm hb] using hlines

/-- More bytes finish the rest first. -/
theorem splitLines_append (bs more : List UInt8) :
    splitLines (bs ++ more) =
      ((splitLines bs).1 ++ (splitLines ((splitLines bs).2 ++ more)).1,
        (splitLines ((splitLines bs).2 ++ more)).2) := by
  conv => lhs; rw [← joinLines_splitLines bs, joinLines_rest_append]
  exact splitLines_joinLines (unbroken_splitLines bs).lines _

end Text
