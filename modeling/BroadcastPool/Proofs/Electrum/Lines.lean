import BroadcastPool.ElectrumServer.Session

/-!
# `BroadcastPool.Proofs.Electrum.Lines`: the lines of a wallet's bytes

`pop_client_line` works on index ranges of the buffer. Here it is connected with the lines that
the buffer consists of: it takes one of the complete lines out and leaves every other byte where
it is (`popClientLine_joinLines`), so that none of its index ranges is out of bounds. The line is
the first one with a broadcast, or else the first one.
-/

set_option autoImplicit false

namespace BroadcastPool

open Text (newline joinLines splitLines Unbroken)

/-! ### Ranges -/

/-- The ranges of some lines that follow each other from an offset on. -/
def rangesOf : Nat → List (List UInt8) → List (Nat × Nat)
  | _, [] => []
  | start, line :: lines =>
    (start, start + line.length) :: rangesOf (start + line.length + 1) lines

theorem lineRanges_of_notMem {rest : List UInt8} (h : newline ∉ rest) (i start : Nat) :
    lineRanges rest i start = [] := by
  induction rest generalizing i with
  | nil => rfl
  | cons b rest ih =>
    have hb : b ≠ newline := fun e => h (e ▸ List.mem_cons_self ..)
    rw [lineRanges, if_neg hb]
    exact ih (fun hm => h (List.mem_cons_of_mem _ hm)) (i + 1)

theorem lineRanges_line {line : List UInt8} (h : newline ∉ line) (bs : List UInt8)
    (i start : Nat) :
    lineRanges (line ++ newline :: bs) i start =
      (start, i + line.length) :: lineRanges bs (i + line.length + 1) (i + line.length + 1) := by
  induction line generalizing i with
  | nil => simp [lineRanges]
  | cons b line ih =>
    have hb : b ≠ newline := fun e => h (e ▸ List.mem_cons_self ..)
    have hi : i + 1 + line.length = i + (line.length + 1) := by omega
    rw [List.cons_append, lineRanges, if_neg hb,
      ih (fun hm => h (List.mem_cons_of_mem _ hm)) (i + 1), hi]
    rfl

/-- The loop finds the ranges of the lines. -/
theorem lineRanges_joinLines {lines : List (List UInt8)} {rest : List UInt8}
    (h : Unbroken lines rest) (start : Nat) :
    lineRanges (joinLines lines rest) start start = rangesOf start lines := by
  induction lines generalizing start with
  | nil => exact lineRanges_of_notMem h.rest start start
  | cons line lines ih =>
    have htail : Unbroken lines rest :=
      ⟨fun l hl => h.lines l (List.mem_cons_of_mem _ hl), h.rest⟩
    rw [joinLines, lineRanges_line (h.lines line (List.mem_cons_self ..)), ih htail]
    rfl

/-! ### Slices of the buffer -/

theorem byteRange_append (before line after : List UInt8) :
    byteRange (before ++ (line ++ after)) before.length (before.length + line.length) =
      .ok line := by
  unfold byteRange
  rw [if_pos (by simp), List.drop_left, Nat.add_sub_cancel_left, List.take_left]

theorem drainRange_append (before line after : List UInt8) (b : UInt8) :
    drainRange (before ++ (line ++ b :: after)) before.length (before.length + line.length) =
      .ok (before ++ after) := by
  have hdrop : before.length + line.length + 1 =
      (before ++ line ++ [b]).length := by simp [Nat.add_assoc]
  unfold drainRange
  rw [if_pos (by simp; omega), List.take_left, hdrop]
  rw [← List.append_assoc, show before ++ line ++ b :: after = (before ++ line ++ [b]) ++ after by
    simp, List.drop_left]

theorem joinLines_eq_append (lines : List (List UInt8)) (rest : List UInt8) :
    joinLines lines rest = joinLines lines [] ++ rest := by
  rw [Text.joinLines_rest_append, List.nil_append]

/-- The range of a line behind some other lines. -/
theorem byteRange_joinLines (before : List (List UInt8)) (line bs : List UInt8) :
    byteRange (joinLines before (line ++ newline :: bs)) (joinLines before []).length
      ((joinLines before []).length + line.length) = .ok line := by
  rw [joinLines_eq_append]
  exact byteRange_append _ line _

theorem drainRange_joinLines (before : List (List UInt8)) (line bs : List UInt8) :
    drainRange (joinLines before (line ++ newline :: bs)) (joinLines before []).length
      ((joinLines before []).length + line.length) = .ok (joinLines before bs) := by
  rw [joinLines_eq_append, joinLines_eq_append before bs]
  exact drainRange_append _ line bs newline

theorem length_joinLines_concat (before : List (List UInt8)) (line : List UInt8) :
    (joinLines (before ++ [line]) []).length =
      (joinLines before []).length + line.length + 1 := by
  rw [Text.joinLines_append, joinLines_eq_append]
  simp [joinLines, Nat.add_assoc]

theorem getElem?_rangesOf (before : List (List UInt8)) (line : List UInt8)
    (after : List (List UInt8)) (start : Nat) :
    (rangesOf start (before ++ line :: after))[before.length]? =
      some (start + (joinLines before []).length,
        start + (joinLines before []).length + line.length) := by
  induction before generalizing start with
  | nil => rfl
  | cons l before ih =>
    rw [List.cons_append, rangesOf, List.length_cons, List.getElem?_cons_succ, ih]
    simp only [joinLines, List.length_append, List.length_cons]
    congr 2
    all_goals omega

/-! ### The line that is taken out -/

variable (libs : ElectrumLibs)

/-- The bytes are a line with a broadcast. -/
def hasBroadcast (line : List UInt8) : Bool := isBroadcastLine libs (Text.decodeLossy line)

/-- The search over the ranges is the search over the lines. -/
theorem positionOfBroadcast_rangesOf (before lines : List (List UInt8)) (rest : List UInt8) :
    positionOfBroadcast libs (joinLines before (joinLines lines rest))
        (rangesOf (joinLines before []).length lines) =
      .ok (lines.findIdx? (hasBroadcast libs)) := by
  induction lines generalizing before with
  | nil => rfl
  | cons line lines ih =>
    have hnext : joinLines before (joinLines (line :: lines) rest) =
        joinLines (before ++ [line]) (joinLines lines rest) := by
      rw [Text.joinLines_append]
      rfl
    have htail := ih (before ++ [line])
    rw [length_joinLines_concat, ← hnext] at htail
    rw [rangesOf, positionOfBroadcast, joinLines, byteRange_joinLines, List.findIdx?_cons]
    rw [joinLines] at htail
    rw [htail]
    show (if hasBroadcast libs line = true then Except.ok (some 0)
      else Except.ok ((lines.findIdx? (hasBroadcast libs)).map (· + 1))) = _
    split <;> rfl

/-- Without a complete line the buffer stays as it is. -/
theorem popClientLine_rest {rest : List UInt8} (h : newline ∉ rest) :
    popClientLine libs rest = .ok (none, rest) := by
  unfold popClientLine
  rw [if_pos (lineRanges_of_notMem h 0 0)]

/-- The index of the line that is taken out. -/
def servedIndex (lines : List (List UInt8)) : Nat :=
  (lines.findIdx? (hasBroadcast libs)).getD 0

theorem servedIndex_lt {lines : List (List UInt8)} (h : lines ≠ []) :
    servedIndex libs lines < lines.length := by
  unfold servedIndex
  cases hfound : lines.findIdx? (hasBroadcast libs) with
  | none => exact List.length_pos_iff.2 h
  | some k => exact (List.findIdx?_eq_some_iff_getElem.1 hfound).1

/-- One complete line is taken out of the buffer, and the others keep their order. -/
theorem popClientLine_joinLines {before after : List (List UInt8)} {line rest : List UInt8}
    (h : Unbroken (before ++ line :: after) rest)
    (hserved : servedIndex libs (before ++ line :: after) = before.length) :
    popClientLine libs (joinLines (before ++ line :: after) rest) =
      .ok (some (line, lineText line), joinLines (before ++ after) rest) := by
  have hranges := lineRanges_joinLines h 0
  have hposition := positionOfBroadcast_rangesOf libs [] (before ++ line :: after) rest
  have hrange := getElem?_rangesOf before line after 0
  have hjoin : joinLines (before ++ line :: after) rest =
      joinLines before (line ++ newline :: joinLines after rest) := by
    rw [Text.joinLines_append]
    rfl
  have hne : rangesOf 0 (before ++ line :: after) ≠ [] := by
    intro hnil
    rw [hnil] at hrange
    cases hrange
  simp only [Nat.zero_add] at hrange
  simp only [joinLines, List.length_nil] at hposition
  unfold servedIndex at hserved
  unfold popClientLine
  rw [hranges, if_neg hne, hposition]
  show takeRange _ (rangesOf 0 (before ++ line :: after))[
      ((before ++ line :: after).findIdx? (hasBroadcast libs)).getD 0]? = _
  rw [hserved, hrange, takeRange, hjoin, byteRange_joinLines, drainRange_joinLines,
    Text.joinLines_append]
  rfl

/-- The line that is taken out, and the lines on both sides of it. -/
theorem exists_served {lines : List (List UInt8)} (h : lines ≠ []) :
    ∃ before line after, lines = before ++ line :: after ∧
      servedIndex libs lines = before.length := by
  have hlt := servedIndex_lt libs h
  refine ⟨lines.take (servedIndex libs lines), lines[servedIndex libs lines],
    lines.drop (servedIndex libs lines + 1), by simp, ?_⟩
  rw [List.length_take, Nat.min_eq_left hlt.le]

end BroadcastPool
