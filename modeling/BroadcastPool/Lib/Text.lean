import Mathlib.Data.List.Basic

/-!
# `BroadcastPool.Lib.Text`: prefixes and substrings of a text

The text predicates here are defined on the list of characters, so that they compute in the
kernel. `startsWith`, `stripPrefix?` and `containsText` are the prefix test, the prefix
removal and the substring test. `asciiLower` and `lowercase` are the lower-case maps,
`trim` removes Unicode white space at both ends. `hexDecode` reads pairs of hexadecimal digits
as bytes, and `hexEncode` writes them (`hexDecode_hexEncode`). `append_sep_inj` splits a text
at a separator. `splitOn`, `rsplitOnce` and `parseUnsigned` take an address apart.
-/

set_option autoImplicit false

namespace Text

/-- `s` starts with `p`. -/
def startsWith (s p : String) : Bool :=
  p.toList.isPrefixOf s.toList

/-- The rest of `s` after `p`, if `s` starts with `p`. -/
def stripPrefix? (s p : String) : Option String :=
  if startsWith s p then some (String.ofList (s.toList.drop p.toList.length)) else none

/-- `needle` occurs in `hay`. -/
def isInfix (needle : List Char) : List Char → Bool
  | [] => needle.isEmpty
  | c :: cs => needle.isPrefixOf (c :: cs) || isInfix needle cs

/-- `s` contains `needle`. -/
def containsText (s needle : String) : Bool :=
  isInfix needle.toList s.toList

/-- `s` with the ASCII letters in lower case. -/
def asciiLower (s : String) : String :=
  String.ofList (s.toList.map Char.toLower)

/-- `s` in lower case, as far as a comparison with ASCII text can tell: the Kelvin sign is the
only other character whose lower case contributes ASCII letters in place. -/
def lowercase (s : String) : String :=
  String.ofList (s.toList.map fun c => if c = '\u212A' then 'k' else c.toLower)

/-- The characters with the Unicode property `White_Space`. -/
def isWhiteSpace (c : Char) : Bool :=
  (9 ≤ c.toNat && c.toNat ≤ 13) || c.toNat = 0x20 || c.toNat = 0x85 || c.toNat = 0xA0
    || c.toNat = 0x1680 || (0x2000 ≤ c.toNat && c.toNat ≤ 0x200A) || c.toNat = 0x2028
    || c.toNat = 0x2029 || c.toNat = 0x202F || c.toNat = 0x205F || c.toNat = 0x3000

/-- `s` without white space at its ends. -/
def trim (s : String) : String :=
  String.ofList
    (((s.toList.dropWhile isWhiteSpace).reverse.dropWhile isWhiteSpace).reverse)

/-- The value of a hexadecimal digit of either case. -/
def hexDigit (c : Char) : Option Nat :=
  if '0' ≤ c ∧ c ≤ '9' then some (c.toNat - '0'.toNat)
  else if 'a' ≤ c ∧ c ≤ 'f' then some (c.toNat - 'a'.toNat + 10)
  else if 'A' ≤ c ∧ c ≤ 'F' then some (c.toNat - 'A'.toNat + 10)
  else none

/-- Bytes from pairs of hexadecimal digits. An odd length or another character is refused. -/
def hexBytes : List Char → Option (List UInt8)
  | [] => some []
  | [_] => none
  | c :: d :: rest =>
    match hexDigit c, hexDigit d, hexBytes rest with
    | some h, some l, some bytes => some (UInt8.ofNat (16 * h + l) :: bytes)
    | _, _, _ => none

/-- The bytes a hexadecimal text stands for. -/
def hexDecode (s : String) : Option (List UInt8) := hexBytes s.toList

/-- The digit of a number below 16, in lower case. -/
def hexChar (n : Nat) : Char :=
  if n < 10 then Char.ofNat ('0'.toNat + n) else Char.ofNat ('a'.toNat + (n - 10))

/-- The hexadecimal text of some bytes. -/
def hexEncode (bytes : List UInt8) : String :=
  String.ofList (bytes.flatMap fun b => [hexChar (b.toNat / 16), hexChar (b.toNat % 16)])

/-- The parts of `s` between the separators. There is always a first one. -/
def splitOn (s : String) (sep : Char) : List String :=
  (s.toList.splitOn sep).map String.ofList

/-- What stands before the last separator of `s`, and what stands after it. -/
def rsplitOnce (s : String) (sep : Char) : Option (String × String) :=
  let after := s.toList.reverse.takeWhile (· ≠ sep)
  match s.toList.reverse.dropWhile (· ≠ sep) with
  | [] => none
  | _ :: before => some (String.ofList before.reverse, String.ofList after.reverse)

/-- The number that the digits of `s` stand for, if it is at most `max`. A plus sign may stand in
front. -/
def parseUnsigned (max : Nat) (s : String) : Option Nat :=
  let digits := if startsWith s "+" then s.toList.drop 1 else s.toList
  let n := digits.foldl (fun n c => 10 * n + (c.toNat - '0'.toNat)) 0
  if digits ≠ [] && digits.all Char.isDigit && n ≤ max then some n else none

theorem hexDigit_hexChar : ∀ {n : Nat}, n < 16 → hexDigit (hexChar n) = some n := by
  decide

/-- Decoding undoes encoding. -/
theorem hexDecode_hexEncode (bytes : List UInt8) : hexDecode (hexEncode bytes) = some bytes := by
  rw [hexDecode, hexEncode, String.toList_ofList]
  induction bytes with
  | nil => rfl
  | cons b bs ih =>
    have hlt : b.toNat < 256 := b.toNat_lt
    rw [List.flatMap_cons, List.cons_append, List.cons_append, List.nil_append, hexBytes,
      hexDigit_hexChar (by omega), hexDigit_hexChar (by omega), ih]
    show some (UInt8.ofNat (16 * (b.toNat / 16) + b.toNat % 16) :: bs) = _
    rw [Nat.div_add_mod, UInt8.ofNat_toNat]

/-- A text in hex consists of digits. -/
theorem forall_of_hexBytes {P : Char → Prop} (hdigit : ∀ c n, hexDigit c = some n → P c)
    {cs : List Char} {bytes : List UInt8} (h : hexBytes cs = some bytes) : ∀ c ∈ cs, P c := by
  induction cs using hexBytes.induct generalizing bytes with
  | case1 => simp
  | case2 c => cases h
  | case3 c d rest hc hd bs hrest hlow hhigh ih =>
    intro x hx
    rcases List.mem_cons.1 hx with rfl | hx
    · exact hdigit _ _ hhigh
    rcases List.mem_cons.1 hx with rfl | hx
    · exact hdigit _ _ hlow
    · exact ih hrest x hx
  | case4 c d rest hnone ih =>
    rw [hexBytes] at h
    split at h
    · rename_i hc hd bs hlow hhigh hrest
      exact (hnone _ _ _ hlow hhigh hrest).elim
    · cases h

theorem isWhiteSpace_of_hexDigit {c : Char} {n : Nat} (h : hexDigit c = some n) :
    isWhiteSpace c = false := by
  have hrange : 33 ≤ c.toNat ∧ c.toNat ≤ 126 := by
    unfold hexDigit at h
    split at h
    · rename_i hc
      exact ⟨Nat.le_trans (by decide) hc.1, Nat.le_trans hc.2 (by decide)⟩
    split at h
    · rename_i hc
      exact ⟨Nat.le_trans (by decide) hc.1, Nat.le_trans hc.2 (by decide)⟩
    split at h
    · rename_i hc
      exact ⟨Nat.le_trans (by decide) hc.1, Nat.le_trans hc.2 (by decide)⟩
    · cases h
  unfold isWhiteSpace
  simp only [Bool.or_eq_false_iff, Bool.and_eq_false_iff, decide_eq_false_iff_not]
  omega

theorem dropWhile_of_head {p : Char → Bool} {cs : List Char} (h : ∀ c ∈ cs.head?, p c = false) :
    cs.dropWhile p = cs := by
  cases cs with
  | nil => rfl
  | cons c cs => exact List.dropWhile_cons_of_neg (by simp [h c rfl])

theorem head_dropWhile (p : Char → Bool) (cs : List Char) :
    ∀ c ∈ (cs.dropWhile p).head?, p c = false := by
  intro c hc
  have hfirst := List.head?_dropWhile_not p cs
  rw [Option.mem_def.1 hc] at hfirst
  exact hfirst

theorem trim_trim (s : String) : trim (trim s) = trim s := by
  unfold trim
  rw [String.toList_ofList]
  have hhead := head_dropWhile isWhiteSpace s.toList
  generalize s.toList.dropWhile isWhiteSpace = cs at hhead ⊢
  have hprefix : (cs.reverse.dropWhile isWhiteSpace).reverse <+: cs := by
    have h := List.reverse_prefix.2 (List.dropWhile_suffix (l := cs.reverse) isWhiteSpace)
    rwa [List.reverse_reverse] at h
  have hfront : (cs.reverse.dropWhile isWhiteSpace).reverse.dropWhile isWhiteSpace =
      (cs.reverse.dropWhile isWhiteSpace).reverse := by
    refine dropWhile_of_head fun c hc => hhead c ?_
    obtain ⟨rest, hrest⟩ := hprefix
    rw [← hrest, List.head?_append, Option.mem_def.1 hc]
    rfl
  rw [hfront, List.reverse_reverse, dropWhile_of_head (head_dropWhile isWhiteSpace _)]

/-- A text in hex has no white space around it. -/
theorem trim_of_hexDecode {s : String} {bytes : List UInt8} (h : hexDecode s = some bytes) :
    trim s = s := by
  have hall := forall_of_hexBytes (fun _ _ => isWhiteSpace_of_hexDigit) h
  have hkeep : ∀ cs : List Char, (∀ c ∈ cs, isWhiteSpace c = false) →
      cs.dropWhile isWhiteSpace = cs :=
    fun cs hcs => dropWhile_of_head fun c hc => hcs c (List.mem_of_mem_head? hc)
  unfold trim
  rw [hkeep _ hall, hkeep _ fun c hc => hall c (List.mem_reverse.1 hc), List.reverse_reverse,
    String.ofList_toList]

/-- The substring test is the infix relation on the characters. -/
theorem isInfix_iff (needle hay : List Char) :
    isInfix needle hay = true ↔ needle <:+: hay := by
  induction hay with
  | nil => simp [isInfix]
  | cons c cs ih =>
    rw [List.infix_cons_iff, ← ih]
    simp [isInfix]

theorem containsText_iff (s needle : String) :
    containsText s needle = true ↔ needle.toList <:+: s.toList :=
  isInfix_iff _ _

/-- `hay` ends in a beginning of `needle`, so that an occurrence could straddle its end. -/
def straddles (needle hay : List Char) : Bool :=
  (List.range needle.length).any fun k => k ≠ 0 && (needle.take k).isSuffixOf hay

/-- Where no occurrence can straddle the boundary, it lies in one of the two parts. -/
theorem infix_append_iff_of_not_straddles {needle hay rest : List Char}
    (h : straddles needle hay = false) :
    needle <:+: hay ++ rest ↔ needle <:+: hay ∨ needle <:+: rest := by
  rw [List.infix_append_iff_ne_nil]
  constructor
  · rintro (hleft | hright | ⟨l₁, l₂, h₁, h₂, rfl, hsuffix, -⟩)
    · exact Or.inl hleft
    · exact Or.inr hright
    · exfalso
      have hstraddles : straddles (l₁ ++ l₂) hay = true := by
        refine List.any_eq_true.2 ⟨l₁.length, ?_, ?_⟩
        · have hpos : 0 < l₂.length := List.length_pos_iff.2 h₂
          rw [List.mem_range, List.length_append]
          omega
        · have hne : l₁.length ≠ 0 := fun hzero => h₁ (List.length_eq_zero_iff.1 hzero)
          simpa [hne] using hsuffix
      rw [h] at hstraddles
      cases hstraddles
  · rintro (hleft | hright)
    · exact Or.inl hleft
    · exact Or.inr (Or.inl hright)

theorem lowercase_append (s t : String) :
    (lowercase (s ++ t)).toList = (lowercase s).toList ++ (lowercase t).toList := by
  simp [lowercase]

theorem startsWith_append (p t : String) : startsWith (p ++ t) p = true := by
  simp [startsWith]

@[simp] theorem stripPrefix?_append (p t : String) : stripPrefix? (p ++ t) p = some t := by
  unfold stripPrefix?
  rw [startsWith_append]
  simp

/-- A text is read up to the first separator. -/
theorem append_sep_inj {α : Type} {sep : α} {a b x y : List α} (ha : sep ∉ a) (hb : sep ∉ b)
    (h : a ++ sep :: x = b ++ sep :: y) : a = b ∧ x = y := by
  induction a generalizing b with
  | nil =>
    cases b with
    | nil => exact ⟨rfl, (List.cons.inj h).2⟩
    | cons d b =>
      have hd : sep = d := (List.cons.inj h).1
      exact absurd (hd ▸ List.mem_cons_self ..) hb
  | cons c a ih =>
    cases b with
    | nil =>
      have hc : c = sep := (List.cons.inj h).1
      exact absurd (hc ▸ List.mem_cons_self ..) ha
    | cons d b =>
      obtain ⟨rfl, hrest⟩ := List.cons.inj h
      obtain ⟨rfl, hxy⟩ := ih (fun hm => ha (List.mem_cons_of_mem _ hm))
        (fun hm => hb (List.mem_cons_of_mem _ hm)) hrest
      exact ⟨rfl, hxy⟩

/-! ### Joins and numbers -/

/-- Texts that do not contain the separator can be read back from their join. -/
theorem intercalate_injective {sep : Char} {xs ys : List String} (hxs : ∀ s ∈ xs, sep ∉ s.toList)
    (hys : ∀ s ∈ ys, sep ∉ s.toList) (hx : xs ≠ []) (hy : ys ≠ [])
    (h : (String.singleton sep).intercalate xs = (String.singleton sep).intercalate ys) :
    xs = ys := by
  have hsplit : ∀ {l : List String}, (∀ s ∈ l, sep ∉ s.toList) → l ≠ [] →
      ((String.singleton sep).intercalate l).toList.splitOn sep = l.map String.toList := by
    intro l hl hne
    rw [String.toList_intercalate, String.toList_singleton]
    refine List.splitOn_intercalate sep (fun t ht => ?_) (by simpa using hne)
    obtain ⟨s, hs, rfl⟩ := List.mem_map.1 ht
    exact hl s hs
  have hlists := hsplit hxs hx
  rw [h, hsplit hys hy] at hlists
  exact List.map_injective_iff.2 (fun _ _ => String.toList_injective) hlists.symm

/-- A number is written with digits and a sign. -/
theorem notMem_toString_int {c : Char} (hdigit : c.isDigit = false) (hsign : c ≠ '-') (n : Int) :
    c ∉ (toString n).toList := by
  have hdigits : ∀ m : Nat, c ∉ m.repr.toList := by
    intro m hm
    rw [Nat.toList_repr] at hm
    have : c.isDigit = true := Nat.isDigit_of_mem_toDigits (by decide) (by decide) hm
    rw [hdigit] at this
    cases this
  rw [Int.toString_eq_repr, Int.repr_eq_if]
  split
  · exact hdigits _
  · rw [String.toList_append]
    intro hm
    rcases List.mem_append.1 hm with hm | hm
    · exact hsign (List.mem_singleton.1 hm)
    · exact hdigits _ hm

end Text
