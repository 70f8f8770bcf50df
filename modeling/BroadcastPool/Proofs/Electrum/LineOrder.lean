import BroadcastPool.Proofs.Electrum.Lines
import BroadcastPool.Sample

/-!
# `BroadcastPool.Proofs.Electrum.LineOrder`: the order in which buffered lines are served

Popping until nothing is left serves the lines of a buffer in two groups: first the broadcasts,
then the others, each group in the order of the buffer (`prioritized`). One pop takes the first
line of this order (`prioritized_served`), so the whole run serves the whole order
(`popUntilNone_joinLines`). Bytes without a newline may arrive before any pop. They only make
the unfinished line at the end of the buffer longer.
-/

set_option autoImplicit false

namespace BroadcastPool

open Text (newline joinLines splitLines Unbroken)

/-! ### Two groups, each in its own order -/

section
variable {α : Type} (first : α → Bool)

/-- The items of the first group, and then the others. -/
def prioritized (items : List α) : List α :=
  items.filter first ++ items.filter fun a => !first a

theorem prioritized_perm (items : List α) : (prioritized first items).Perm items := by
  exact List.filter_append_perm first items

/-- No item of the first group comes after an item of the other one. -/
theorem prioritized_pairwise (items : List α) :
    (prioritized first items).Pairwise fun a b => first b = true → first a = true := by
  refine List.pairwise_append.2 ⟨?_, ?_, ?_⟩
  · refine List.pairwise_of_forall_mem_list fun a ha b hb _ => ?_
    exact (List.mem_filter.1 ha).2
  · refine List.pairwise_of_forall_mem_list fun a ha b hb h => ?_
    have hnot := (List.mem_filter.1 hb).2
    simp [h] at hnot
  · intro a ha b hb _
    exact (List.mem_filter.1 ha).2

theorem filter_prioritized (items : List α) :
    (prioritized first items).filter first = items.filter first := by
  simp [prioritized, List.filter_append, List.filter_filter]

theorem filter_not_prioritized (items : List α) :
    ((prioritized first items).filter fun a => !first a) = items.filter fun a => !first a := by
  simp [prioritized, List.filter_append, List.filter_filter]

end

variable {libs : ElectrumLibs}

/-- The line that is taken out is the first one of the order, and the others keep theirs. -/
theorem prioritized_served {before after : List (List UInt8)} {line : List UInt8}
    (hserved : servedIndex libs (before ++ line :: after) = before.length) :
    prioritized (hasBroadcast libs) (before ++ line :: after) =
      line :: prioritized (hasBroadcast libs) (before ++ after) := by
  unfold servedIndex at hserved
  unfold prioritized
  cases hfound : (before ++ line :: after).findIdx? (hasBroadcast libs) with
  | some k =>
    -- A broadcast was found: nothing before it is one.
    rw [hfound] at hserved
    have hk : k = before.length := hserved
    subst hk
    obtain ⟨hlt, hpicked, hbefore⟩ := List.findIdx?_eq_some_iff_getElem.1 hfound
    have hbroadcast : hasBroadcast libs line = true := by simpa using hpicked
    have hnone : before.filter (hasBroadcast libs) = [] := by
      refine List.filter_eq_nil_iff.2 fun l hl => ?_
      obtain ⟨i, hi, rfl⟩ := List.getElem_of_mem hl
      have h := hbefore i hi
      rwa [List.getElem_append_left hi] at h
    simp [List.filter_append, hnone, hbroadcast]
  | none =>
    -- There is no broadcast, and the line is the first one.
    rw [hfound] at hserved
    have hnil : before = [] := List.length_eq_zero_iff.1 hserved.symm
    have hline : hasBroadcast libs line = false :=
      List.findIdx?_eq_none_iff.1 hfound line (by simp)
    have hnone : after.filter (hasBroadcast libs) = [] := by
      refine List.filter_eq_nil_iff.2 fun l hl => ?_
      have h := List.findIdx?_eq_none_iff.1 hfound l (by simp [hl])
      simp [h]
    subst hnil
    simp [hline, hnone]

/-! ### Popping until nothing is left -/

/-- Pop until there is no complete line: the popped lines and the buffer that is left. The bytes
`more i` arrive before pop `i`. Without enough `fuel` there is no result. -/
def popUntilNone (libs : ElectrumLibs) (more : Nat → List UInt8) :
    Nat → Nat → List UInt8 → Except Failure (Option (List (List UInt8 × String) × List UInt8))
  | 0, _, _ => .ok none
  | fuel + 1, i, buf => do
    match ← popClientLine libs (buf ++ more i) with
    | (none, buf) => return some ([], buf)
    | (some line, buf) =>
      let result ← popUntilNone libs more fuel (i + 1) buf
      return result.map fun (lines, buf) => (line :: lines, buf)

/-- The bytes that arrive before some pops. -/
def arrived (more : Nat → List UInt8) (i count : Nat) : List UInt8 :=
  ((List.range' i count).map more).flatten

theorem arrived_succ (more : Nat → List UInt8) (i count : Nat) :
    arrived more i (count + 1) = more i ++ arrived more (i + 1) count := by
  simp [arrived, List.range'_succ]

/-- A line as it is served, with its text. -/
def servedLine (line : List UInt8) : List UInt8 × String := (line, lineText line)

/-- The whole run, over a buffer that is given by its lines. The induction is on the number of
lines, and `rest` grows by what arrives. -/
theorem popUntilNone_joinLines {more : Nat → List UInt8} (hmore : ∀ i, newline ∉ more i)
    (fuel i : Nat) {lines : List (List UInt8)} {rest : List UInt8} (h : Unbroken lines rest)
    (hfuel : lines.length < fuel) :
    popUntilNone libs more fuel i (joinLines lines rest) =
      .ok (some ((prioritized (hasBroadcast libs) lines).map servedLine,
        rest ++ arrived more i (lines.length + 1))) := by
  induction fuel generalizing i lines rest with
  | zero => exact absurd hfuel (Nat.not_lt_zero _)
  | succ fuel ih =>
    have harrival : joinLines lines rest ++ more i = joinLines lines (rest ++ more i) :=
      Text.joinLines_rest_append lines rest (more i)
    have hgrown : Unbroken lines (rest ++ more i) := by
      refine ⟨h.lines, fun hm => ?_⟩
      rcases List.mem_append.1 hm with hm | hm
      · exact h.rest hm
      · exact hmore i hm
    rw [popUntilNone, harrival]
    by_cases hnil : lines = []
    · subst hnil
      rw [joinLines, popClientLine_rest libs hgrown.rest]
      simp [arrived, prioritized]
      rfl
    · obtain ⟨before, line, after, rfl, hserved⟩ := exists_served libs hnil
      have hleft : Unbroken (before ++ after) (rest ++ more i) := by
        refine ⟨fun l hl => hgrown.lines l ?_, hgrown.rest⟩
        rcases List.mem_append.1 hl with hl | hl
        · exact List.mem_append_left _ hl
        · exact List.mem_append_right _ (List.mem_cons_of_mem _ hl)
      have hlength : (before ++ line :: after).length = (before ++ after).length + 1 := by
        simp [Nat.add_assoc]
      have hrest := ih (i + 1) hleft (by omega)
      rw [popClientLine_joinLines libs hgrown hserved, prioritized_served hserved, hlength,
        arrived_succ, ← List.append_assoc]
      simp only [bind, Except.bind, hrest]
      rfl

/-- What popping a buffer serves and leaves: every complete line once, the broadcasts first, and
both groups in the order of the buffer. -/
structure ServedOnce (libs : ElectrumLibs) (buf : List UInt8)
    (served : List (List UInt8 × String)) (left : List UInt8) : Prop where
  lines : (served.map (·.1)).Perm (splitLines buf).1
  texts : ∀ s ∈ served, s.2 = lineText s.1
  left : left = (splitLines buf).2
  broadcasts : (served.map (·.1)).filter (hasBroadcast libs) =
    (splitLines buf).1.filter (hasBroadcast libs)
  others : ((served.map (·.1)).filter fun l => !hasBroadcast libs l) =
    (splitLines buf).1.filter fun l => !hasBroadcast libs l
  broadcastsFirst : (served.map (·.1)).Pairwise fun a b =>
    hasBroadcast libs b = true → hasBroadcast libs a = true

/-- Popping a buffer to its end serves every line once, and what arrives without a newline
changes none of the lines. -/
theorem popping_serves_once (libs : ElectrumLibs) (buf : List UInt8) (more : Nat → List UInt8)
    (hmore : ∀ i, newline ∉ more i) (fuel : Nat) (hfuel : (splitLines buf).1.length < fuel) :
    ∃ served left, popUntilNone libs (fun _ => []) fuel 0 buf = .ok (some (served, left)) ∧
      ServedOnce libs buf served left ∧
      popUntilNone libs more fuel 0 buf =
        .ok (some (served, left ++ arrived more 0 (served.length + 1))) := by
  have hunbroken := Text.unbroken_splitLines buf
  have hjoin := Text.joinLines_splitLines buf
  have hquiet : ∀ count, arrived (fun _ => []) 0 count = [] := by simp [arrived]
  have halone : popUntilNone libs (fun _ => []) fuel 0 buf =
      .ok (some ((prioritized (hasBroadcast libs) (splitLines buf).1).map servedLine,
        (splitLines buf).2)) := by
    have hnone : ∀ i : Nat, newline ∉ (fun _ => [] : Nat → List UInt8) i :=
      fun _ => List.not_mem_nil
    have h := @popUntilNone_joinLines libs _ hnone fuel 0 _ _ hunbroken hfuel
    rwa [hjoin, hquiet, List.append_nil] at h
  have hwith := @popUntilNone_joinLines libs _ hmore fuel 0 _ _ hunbroken hfuel
  rw [hjoin] at hwith
  have hbytes : ((prioritized (hasBroadcast libs) (splitLines buf).1).map servedLine).map (·.1) =
      prioritized (hasBroadcast libs) (splitLines buf).1 := by
    rw [List.map_map]
    exact List.map_id _
  refine ⟨_, _, halone, ?_, ?_⟩
  · constructor
    · rw [hbytes]
      exact prioritized_perm _ _
    · intro s hs
      obtain ⟨line, -, rfl⟩ := List.mem_map.1 hs
      rfl
    · rfl
    · rw [hbytes]
      exact filter_prioritized _ _
    · rw [hbytes]
      exact filter_not_prioritized _ _
    · rw [hbytes]
      exact prioritized_pairwise _ _
  · rw [hwith, List.length_map, (prioritized_perm _ _).length_eq]

theorem popping_serves_once_twoLines :
    ∃ served left, popUntilNone (sampleLibs []) (fun _ => []) 3 0 [97, 10, 10, 98] =
        .ok (some (served, left)) ∧
      ServedOnce (sampleLibs []) [97, 10, 10, 98] served left ∧
      popUntilNone (sampleLibs []) (fun _ => [99]) 3 0 [97, 10, 10, 98] =
        .ok (some (served, left ++ arrived (fun _ => [99]) 0 (served.length + 1))) :=
  popping_serves_once (sampleLibs []) [97, 10, 10, 98] (fun _ => [99]) (fun _ => by decide) 3
    (by decide)

end BroadcastPool
