import BroadcastPool.Lib.Median
import BroadcastPool.Lib.Outcome
import BroadcastPool.Rpc.Electrum

/-!
# `BroadcastPool.Proofs.Rpc.MedianTime`: when the median time past is exact

The indexer answers each request with whatever it likes: `respond` is any function. The outcome of
`get_median_time_past` is the one of `readAnswer` on the heights, in order (`run_collectTimes`).

BIP 113 wants the median of the times of the last eleven blocks. The client skips an answer that is
no header, and so it takes the median of fewer times, which can be a later one. It panics on an
answer of 68 to 71 bytes. And it reads the height as a 32-bit number. `MedianSafe` leaves out
exactly the answers with which this matters (`median_time_exact_iff`).
-/

set_option autoImplicit false

namespace BroadcastPool

open Effects

variable (respond : RpcCall → Except String Json)

/-- The indexer that gives these answers. -/
def answering : Handler RpcCall RpcCall.Res Unit := fun call _ => (respond call, ())

/-- How a function of the client ends with these answers. -/
def clientOutcome {α : Type} (p : Client α) : Except Failure α := (p.run (answering respond) ()).1

/-- The bytes in an answer to `blockchain.block.header`, if it is a text in hex. -/
def headerBytes (height : Nat) : Option (List UInt8) :=
  match respond (.blockHeader height) with
  | .ok v => v.asStr?.bind Text.hexDecode
  | .error _ => none

/-- The client asked for the header at a height and was given these bytes. -/
def Received (height : Nat) (raw : List UInt8) : Prop :=
  ((), RpcCall.blockHeader height) ∈ getMedianTimePastOfIndexer.trace (answering respond) () ∧
    headerBytes respond height = some raw

/-- The median time past of the tip at a height is exact or an error: no panic, and the answer is
the median of the times of the last eleven blocks, each from a header of 80 bytes. -/
structure MedianExact (height : Nat) : Prop where
  noPanic : ∀ text, clientOutcome respond getMedianTimePastOfIndexer ≠ .error (.panic text)
  median : ∀ m, clientOutcome respond getMedianTimePastOfIndexer = .ok m →
    ∃ headers, List.Forall₂ (fun h raw => Received respond h raw ∧ raw.length = 80)
        (List.range' (height - 10) (min 11 (height + 1))) headers ∧
      IsMedian (headers.map headerTime) m

/-- The request fails, or its answer is no text. -/
def Refuses (height : Nat) : Prop :=
  ∀ hex, respond (.blockHeader height) ≠ .ok (.str hex)

/-- The answer ends inside the time of the header, or right before it. -/
def CutShort (height : Nat) : Prop :=
  ∃ raw, headerBytes respond height = some raw ∧ 68 ≤ raw.length ∧ raw.length < 72

/-- The answers with which the median time past is exact or an error: the first one that ends the
loop does not do so by a panic, and if none does and one has a time then all are whole headers,
below a tip of 32 bits. -/
structure MedianSafe (height : Nat) : Prop where
  uncut : ∀ before h after, medianHeights height = before ++ h :: after →
    (∀ h' ∈ before, ¬ Refuses respond h' ∧ ¬ CutShort respond h') → ¬ CutShort respond h
  whole : (∀ h ∈ medianHeights height, ¬ Refuses respond h) →
    (∃ h ∈ medianHeights height, ∃ raw, headerBytes respond h = some raw ∧ 72 ≤ raw.length) →
    height < 2 ^ 32 ∧
      ∀ h ∈ medianHeights height, ∃ raw, headerBytes respond h = some raw ∧ raw.length = 80

variable {respond}

/-! ### The loop -/

/-- What one turn of the loop reads. -/
def readAnswer (respond : RpcCall → Except String Json) (height : Nat) :
    Except Failure (Option Nat) :=
  match respond (.blockHeader height) with
  | .error e => .error (.error e)
  | .ok v =>
    match v.asStr? with
    | none => .error (.error "Invalid block header response")
    | some headerHex => readTime headerHex

/-- One turn of the loop, and what comes after it. -/
theorem run_turn {β : Type} (h : Nat) (f : Option Nat → Client β) :
    let turn := (rpc (.blockHeader h)).bind fun answer =>
      (context "Invalid block header response" answer.asStr?).bind fun headerHex =>
        (Prog.ofExcept (readTime headerHex)).bind f
    let rest := (Prog.ofExcept (readAnswer respond h)).bind f
    turn.run (answering respond) () = rest.run (answering respond) () ∧
      turn.trace (answering respond) () =
        ((), .blockHeader h) :: rest.trace (answering respond) () := by
  intro turn rest
  simp only [turn, rest, rpc, readAnswer, answering, context, Prog.perform, Prog.bind_eq, Prog.bind,
    Prog.run, Prog.trace]
  cases respond (.blockHeader h) with
  | error e => exact ⟨rfl, rfl⟩
  | ok v =>
    cases hv : v.asStr? with
    | none => simp [Prog.bind, Prog.ofExcept, Prog.trace, hv]
    | some headerHex =>
      cases ht : readTime headerHex <;> simp [Prog.bind, Prog.ofExcept, Prog.trace, hv, ht]

theorem run_collectTimes (heights times : List Nat) :
    (collectTimes heights times).run (answering respond) () =
      ((heights.mapM (readAnswer respond)).map fun found => times ++ found.filterMap id, ()) := by
  induction heights generalizing times with
  | nil => simp [collectTimes, pure, Except.pure, Except.map]
  | cons h hs ih =>
    rw [collectTimes, List.mapM_cons]
    refine (run_turn h _).1.trans ?_
    cases readAnswer respond h with
    | error e => rfl
    | ok time =>
      cases time with
      | none =>
        show (collectTimes hs times).run (answering respond) () = _
        rw [ih]
        cases hs.mapM (readAnswer respond) <;> rfl
      | some t =>
        show (collectTimes hs (times ++ [t])).run (answering respond) () = _
        rw [ih]
        cases hs.mapM (readAnswer respond) <;>
          simp [bind, Except.bind, Except.map, pure, Except.pure]

/-- A loop that returns has asked for every height. -/
theorem trace_collectTimes {heights times : List Nat} {found : List (Option Nat)}
    (hok : heights.mapM (readAnswer respond) = .ok found) :
    (collectTimes heights times).trace (answering respond) () =
      heights.map fun h => ((), .blockHeader h) := by
  induction heights generalizing times found with
  | nil => rfl
  | cons h hs ih =>
    obtain ⟨time, found', hh, hhs, -⟩ := List.forall₂_cons_left_iff.1 (mapM_eq_ok_iff.1 hok)
    rw [collectTimes, List.map_cons]
    refine (run_turn h _).2.trans (congrArg (_ :: ·) ?_)
    rw [hh]
    cases time with
    | none => exact ih (mapM_eq_ok_iff.2 hhs)
    | some t => exact ih (mapM_eq_ok_iff.2 hhs)

/-! ### The whole call -/

section
variable {v : Json} {height : Nat} (hv : respond .headersSubscribe = .ok v)
  (hheight : answeredHeight v = some height)
include hv hheight

theorem run_getBlockHeight :
    getBlockHeight.run (answering respond) () = (.ok height, ()) := by
  simp [getBlockHeight, rpc, context, answering, Prog.perform, Prog.bind, hv, hheight]

theorem trace_getBlockHeight :
    getBlockHeight.trace (answering respond) () = [((), .headersSubscribe)] := by
  simp [getBlockHeight, rpc, context, answering, Prog.perform, Prog.bind, Prog.trace, hv, hheight]

/-- The call fails with the error of the loop. -/
theorem clientOutcome_error {e : Failure}
    (he : (medianHeights height).mapM (readAnswer respond) = .error e) :
    clientOutcome respond getMedianTimePastOfIndexer = .error e := by
  rw [clientOutcome, getMedianTimePastOfIndexer, Prog.bind_eq, Prog.run_bind,
    run_getBlockHeight hv hheight]
  show (((collectTimes (medianHeights height) []).bind _).run (answering respond) ()).1 = _
  rw [Prog.run_bind, run_collectTimes, he]
  rfl

/-- The call ends as its loop does, with the middle of the times. -/
theorem clientOutcome_of_ok {found : List (Option Nat)}
    (hok : (medianHeights height).mapM (readAnswer respond) = .ok found) :
    clientOutcome respond getMedianTimePastOfIndexer = middleTime (found.filterMap id) := by
  rw [clientOutcome, getMedianTimePastOfIndexer, Prog.bind_eq, Prog.run_bind,
    run_getBlockHeight hv hheight]
  show (((collectTimes (medianHeights height) []).bind _).run (answering respond) ()).1 = _
  rw [Prog.run_bind, run_collectTimes, hok]
  show ((Prog.ofExcept (middleTime (found.filterMap id)) : Client Nat).run _ ()).1 = _
  cases middleTime (found.filterMap id) <;> rfl

/-- A call whose loop returns has asked for every height of the loop, and for no other. -/
theorem received_iff {found : List (Option Nat)} {h : Nat} {raw : List UInt8}
    (hok : (medianHeights height).mapM (readAnswer respond) = .ok found) :
    Received respond h raw ↔ h ∈ medianHeights height ∧ headerBytes respond h = some raw := by
  refine and_congr_left fun _ => ?_
  have hquiet : (Prog.ofExcept (middleTime (found.filterMap id)) : Client Nat).trace
      (answering respond) () = [] := by
    cases middleTime (found.filterMap id) <;> rfl
  have htrace : getMedianTimePastOfIndexer.trace (answering respond) () =
      ((), .headersSubscribe) ::
        (medianHeights height).map fun h => ((), RpcCall.blockHeader h) := by
    rw [getMedianTimePastOfIndexer, Prog.bind_eq, Prog.trace_bind,
      trace_getBlockHeight hv hheight, run_getBlockHeight hv hheight]
    show _ ++ ((collectTimes (medianHeights height) []).bind _).trace (answering respond) () = _
    rw [Prog.trace_bind, trace_collectTimes hok, run_collectTimes, hok]
    show _ ++ (_ ++ (Prog.ofExcept (middleTime (found.filterMap id)) : Client Nat).trace _ ()) = _
    rw [hquiet, List.append_nil]
    rfl
  rw [htrace]
  simp

end

theorem middleTime_eq_ok_iff {times : List Nat} {m : Nat} :
    middleTime times = .ok m ↔ times ≠ [] ∧ IsMedian times m := by
  have hlen : (times.insertionSort (· ≤ ·)).length = times.length := List.length_insertionSort ..
  have hempty : (times.insertionSort (· ≤ ·)).isEmpty = true ↔ times = [] := by
    rw [List.isEmpty_iff_length_eq_zero, hlen, List.length_eq_zero_iff]
  rw [middleTime]
  by_cases hnil : times = []
  · simp [hnil]
  · have hlt : times.length / 2 < (times.insertionSort (· ≤ ·)).length := by
      have := List.length_pos_iff.2 hnil
      omega
    have hmid := isMedian_sorted times rfl hlt
    simp only [if_neg (mt hempty.1 hnil), hlen, List.getElem?_eq_getElem hlt, Except.ok.injEq]
    constructor
    · rintro rfl
      exact ⟨hnil, hmid⟩
    · exact fun h => hmid.eq h.2

theorem exists_middleTime {times : List Nat} (h : times ≠ []) :
    ∃ m, middleTime times = .ok m := by
  have hlt : times.length / 2 < (times.insertionSort (· ≤ ·)).length := by
    have := List.length_pos_iff.2 h
    rw [List.length_insertionSort]
    omega
  exact ⟨_, middleTime_eq_ok_iff.2 ⟨h, isMedian_sorted times rfl hlt⟩⟩

theorem middleTime_ne_panic (times : List Nat) (text : String) :
    middleTime times ≠ .error (.panic text) := by
  intro hpanic
  by_cases hnil : times = []
  · rw [hnil] at hpanic
    cases hpanic
  · obtain ⟨m, hm⟩ := exists_middleTime hnil
    rw [hm] at hpanic
    cases hpanic

/-! ### One answer -/

/-- The four ways to read an answer. -/
theorem readAnswer_cases (respond : RpcCall → Except String Json) (h : Nat) :
    (Refuses respond h ∧ headerBytes respond h = none ∧
        ∃ text, readAnswer respond h = .error (.error text)) ∨
      (¬ Refuses respond h ∧ CutShort respond h ∧
        ∃ text, readAnswer respond h = .error (.panic text)) ∨
      (¬ Refuses respond h ∧ (∀ raw, headerBytes respond h = some raw → raw.length < 68) ∧
        readAnswer respond h = .ok none) ∨
      (¬ Refuses respond h ∧ ∃ raw, headerBytes respond h = some raw ∧ 72 ≤ raw.length ∧
        readAnswer respond h = .ok (some (headerTime raw))) := by
  unfold Refuses CutShort headerBytes readAnswer readTime
  cases respond (.blockHeader h) with
  | error e => exact Or.inl ⟨nofun, rfl, e, rfl⟩
  | ok v =>
    cases v with
    | str headerHex =>
      right
      have hne : ¬ ∀ hex, (.ok (.str headerHex) : Except String Json) ≠ .ok (.str hex) :=
        fun hall => hall headerHex rfl
      show _ ∨ _
      simp only [Json.asStr?_str, Option.bind_some]
      cases Text.hexDecode headerHex with
      | none => exact Or.inr (Or.inl ⟨hne, nofun, rfl⟩)
      | some raw =>
        simp only [Option.some.injEq, exists_eq_left']
        by_cases h68 : 68 ≤ raw.length
        · by_cases h72 : 72 ≤ raw.length
          · exact Or.inr (Or.inr ⟨hne, h72, by rw [if_pos h68, if_pos h72]⟩)
          · exact Or.inl ⟨hne, ⟨h68, by omega⟩, _, by rw [if_pos h68, if_neg h72]⟩
        · exact Or.inr (Or.inl ⟨hne, fun r hr => by rw [← hr]; omega, by rw [if_neg h68]⟩)
    | _ => exact Or.inl ⟨fun hex he => (by cases he), rfl, _, rfl⟩

theorem readAnswer_ok_iff {h : Nat} :
    (∃ time, readAnswer respond h = .ok time) ↔
      ¬ Refuses respond h ∧ ¬ CutShort respond h := by
  rcases readAnswer_cases respond h with ⟨hr, -, text, he⟩ | ⟨-, hc, text, he⟩ |
    ⟨hr, hshort, he⟩ | ⟨hr, raw, hraw, hlen, he⟩
  · simp [he, hr]
  · simp [he, hc]
  · refine iff_of_true ⟨_, he⟩ ⟨hr, ?_⟩
    rintro ⟨raw, hraw, hge, -⟩
    have := hshort raw hraw
    omega
  · refine iff_of_true ⟨_, he⟩ ⟨hr, ?_⟩
    rintro ⟨raw', hraw', -, hlt⟩
    rw [hraw] at hraw'
    cases hraw'
    omega

theorem readAnswer_panic_iff {h : Nat} :
    (∃ text, readAnswer respond h = .error (.panic text)) ↔ CutShort respond h := by
  rcases readAnswer_cases respond h with ⟨-, hnone, text, he⟩ | ⟨-, hc, text, he⟩ |
    ⟨hr, hshort, he⟩ | ⟨hr, raw, hraw, hlen, he⟩
  · simp [he, CutShort, hnone]
  · exact iff_of_true ⟨_, he⟩ hc
  · exact iff_of_false (by simp [he]) (readAnswer_ok_iff.1 ⟨_, he⟩).2
  · exact iff_of_false (by simp [he]) (readAnswer_ok_iff.1 ⟨_, he⟩).2

/-- The loop does not panic exactly if its first answer that is no text or cut short is not cut
short. -/
theorem noPanic_iff {heights : List Nat} :
    (∀ text, heights.mapM (readAnswer respond) ≠ .error (.panic text)) ↔
      ∀ before h after, heights = before ++ h :: after →
        (∀ h' ∈ before, ¬ Refuses respond h' ∧ ¬ CutShort respond h') → ¬ CutShort respond h := by
  constructor
  · intro hno before h after heq hbefore hcut
    obtain ⟨text, htext⟩ := readAnswer_panic_iff.2 hcut
    exact hno text (mapM_eq_error_iff.2
      ⟨before, h, after, heq, fun h' hh' => readAnswer_ok_iff.2 (hbefore h' hh'), htext⟩)
  · intro hfirst text hpanic
    obtain ⟨before, h, after, heq, hbefore, he⟩ := mapM_eq_error_iff.1 hpanic
    exact hfirst before h after heq (fun h' hh' => readAnswer_ok_iff.1 (hbefore h' hh'))
      (readAnswer_panic_iff.1 ⟨text, he⟩)

/-- Without a panic, the loop returns exactly if every answer is a text. -/
theorem loop_ok_iff {heights : List Nat}
    (hno : ∀ text, heights.mapM (readAnswer respond) ≠ .error (.panic text)) :
    (∃ found, heights.mapM (readAnswer respond) = .ok found) ↔
      ∀ h ∈ heights, ¬ Refuses respond h := by
  constructor
  · rintro ⟨found, hok⟩ h hmem
    obtain ⟨time, -, htime⟩ := exists_mem_of_mapM_eq_ok hok h hmem
    exact (readAnswer_ok_iff.1 ⟨time, htime⟩).1
  · intro htexts
    cases hloop : heights.mapM (readAnswer respond) with
    | ok found => exact ⟨found, rfl⟩
    | error e =>
      exfalso
      obtain ⟨before, h, after, heq, -, he⟩ := mapM_eq_error_iff.1 hloop
      have hmem : h ∈ heights := by rw [heq]; simp
      rcases readAnswer_cases respond h with ⟨hr, -⟩ | ⟨-, -, text, hp⟩ | ⟨-, -, ht⟩ |
        ⟨-, raw, -, -, ht⟩
      · exact htexts h hmem hr
      · rw [hp] at he
        cases he
        exact hno text hloop
      · rw [ht] at he
        cases he
      · rw [ht] at he
        cases he

theorem readAnswer_some_iff {h t : Nat} :
    readAnswer respond h = .ok (some t) ↔
      ∃ raw, headerBytes respond h = some raw ∧ 72 ≤ raw.length ∧ headerTime raw = t := by
  rcases readAnswer_cases respond h with ⟨-, hnone, text, he⟩ | ⟨-, ⟨raw, hraw, hc⟩, text, he⟩ |
    ⟨hr, hshort, he⟩ | ⟨hr, raw, hraw, hlen, he⟩
  · simp [he, hnone]
  · simp only [he, hraw, Option.some.injEq, exists_eq_left', reduceCtorEq, false_iff]
    omega
  · simp only [he, Except.ok.injEq, reduceCtorEq, false_iff]
    rintro ⟨raw, hraw, hlen, -⟩
    have := hshort raw hraw
    omega
  · simp [he, hraw, hlen]

/-- The loop finds a time exactly if some answer has one. -/
theorem times_ne_nil_iff {heights : List Nat} {found : List (Option Nat)}
    (hok : heights.mapM (readAnswer respond) = .ok found) :
    found.filterMap id ≠ [] ↔
      ∃ h ∈ heights, ∃ raw, headerBytes respond h = some raw ∧ 72 ≤ raw.length := by
  constructor
  · intro hne
    obtain ⟨t, ht⟩ := List.exists_mem_of_ne_nil _ hne
    obtain ⟨time, hmem, rfl⟩ := List.mem_filterMap.1 ht
    obtain ⟨h, hh, hread⟩ := mem_of_mapM_eq_ok hok _ hmem
    obtain ⟨raw, hraw, hlen, -⟩ := readAnswer_some_iff.1 hread
    exact ⟨h, hh, raw, hraw, hlen⟩
  · rintro ⟨h, hh, raw, hraw, hlen⟩
    obtain ⟨time, hmem, htime⟩ := exists_mem_of_mapM_eq_ok hok h hh
    rw [readAnswer_some_iff.2 ⟨raw, hraw, hlen, rfl⟩] at htime
    cases htime
    exact List.ne_nil_of_mem (List.mem_filterMap.2 ⟨_, hmem, rfl⟩)

/-- Whole headers give their times. -/
theorem times_of_whole {heights : List Nat} {found : List (Option Nat)}
    {headers : List (List UInt8)} (hok : heights.mapM (readAnswer respond) = .ok found)
    (hwhole : List.Forall₂ (fun h raw => headerBytes respond h = some raw ∧ raw.length = 80)
      heights headers) : found.filterMap id = headers.map headerTime := by
  induction hwhole generalizing found with
  | nil =>
    cases hok
    rfl
  | cons hraw hrest ih =>
    obtain ⟨time, found', hh, hhs, rfl⟩ := List.forall₂_cons_left_iff.1 (mapM_eq_ok_iff.1 hok)
    rw [readAnswer_some_iff.2 ⟨_, hraw.1, by omega, rfl⟩] at hh
    cases hh
    rw [List.map_cons, ← ih (mapM_eq_ok_iff.2 hhs)]
    rfl

/-! ### Exactness -/

/-- Below a tip of 32 bits, the loop asks for the headers of the last eleven blocks. -/
theorem medianHeights_eq {height : Nat} (h : height < 2 ^ 32) :
    medianHeights height = List.range' (height - 10) (min 11 (height + 1)) := by
  show List.range' (height % 2 ^ 32 - 10) (height % 2 ^ 32 + 1 - (height % 2 ^ 32 - 10)) = _
  rw [Nat.mod_eq_of_lt h]
  congr 1
  omega

/-- The loop never asks for a height above 32 bits. -/
theorem lt_of_mem_medianHeights {height h : Nat} (hmem : h ∈ medianHeights height) :
    h < 2 ^ 32 := by
  obtain ⟨-, hlt⟩ := List.mem_range'_1.1 (show h ∈ List.range' _ _ from hmem)
  have := Nat.mod_lt height (show 0 < 2 ^ 32 by decide)
  omega

/-- The median time past is exact or an error with exactly the answers that `MedianSafe` names. -/
theorem median_time_exact_iff {v : Json} {height : Nat}
    (hv : respond .headersSubscribe = .ok v) (hheight : answeredHeight v = some height) :
    MedianExact respond height ↔ MedianSafe respond height := by
  have hpanic : (∀ text, clientOutcome respond getMedianTimePastOfIndexer ≠ .error (.panic text)) ↔
      ∀ text, (medianHeights height).mapM (readAnswer respond) ≠ .error (.panic text) := by
    cases hloop : (medianHeights height).mapM (readAnswer respond) with
    | error e =>
      rw [clientOutcome_error hv hheight hloop]
      simp
    | ok found =>
      rw [clientOutcome_of_ok hv hheight hloop]
      exact iff_of_true (middleTime_ne_panic _) (by simp)
  constructor
  · rintro ⟨hno, hmedian⟩
    rw [hpanic] at hno
    refine ⟨noPanic_iff.1 hno, fun htexts htime => ?_⟩
    obtain ⟨found, hok⟩ := (loop_ok_iff hno).2 htexts
    -- The loop has found a time, so that the call returns the middle one.
    obtain ⟨m, hm⟩ := exists_middleTime ((times_ne_nil_iff hok).2 htime)
    obtain ⟨headers, hreceived, -⟩ :=
      hmedian m ((clientOutcome_of_ok hv hheight hok).trans hm)
    have hasked : ∀ h ∈ List.range' (height - 10) (min 11 (height + 1)),
        h ∈ medianHeights height ∧ ∃ raw, headerBytes respond h = some raw ∧ raw.length = 80 := by
      intro h hh
      obtain ⟨raw, -, hraw, hlen⟩ := exists_mem_of_forall₂ hreceived h hh
      rw [received_iff hv hheight hok] at hraw
      exact ⟨hraw.1, raw, hraw.2, hlen⟩
    have hlt : height < 2 ^ 32 :=
      lt_of_mem_medianHeights (hasked height (List.mem_range'_1.2 (by omega))).1
    refine ⟨hlt, fun h hh => (hasked h ?_).2⟩
    rwa [← medianHeights_eq hlt]
  · rintro ⟨huncut, hwhole⟩
    have hno := noPanic_iff.2 huncut
    refine ⟨hpanic.2 hno, fun m hm => ?_⟩
    cases hok : (medianHeights height).mapM (readAnswer respond) with
    | error e =>
      rw [clientOutcome_error hv hheight hok] at hm
      cases hm
    | ok found =>
      rw [clientOutcome_of_ok hv hheight hok, middleTime_eq_ok_iff] at hm
      obtain ⟨hlt, hall⟩ :=
        hwhole ((loop_ok_iff hno).1 ⟨found, hok⟩) ((times_ne_nil_iff hok).1 hm.1)
      obtain ⟨headers, hheaders⟩ : ∃ headers, List.Forall₂
          (fun h raw => headerBytes respond h = some raw ∧ raw.length = 80)
          (medianHeights height) headers := by
        refine ⟨(medianHeights height).map fun h => (headerBytes respond h).getD [], ?_⟩
        rw [List.forall₂_map_right_iff, List.forall₂_same]
        intro h hh
        obtain ⟨raw, hraw, hlen⟩ := hall h hh
        simp [hraw, hlen]
      refine ⟨headers, ?_, times_of_whole hok hheaders ▸ hm.2⟩
      rw [← medianHeights_eq hlt]
      have hmem := (List.forall₂_and_left _ _).2
        ⟨fun h (hh : h ∈ medianHeights height) => hh, hheaders⟩
      exact hmem.imp fun h raw hr => ⟨(received_iff hv hheight hok).2 ⟨hr.1, hr.2.1⟩, hr.2.2⟩

/-- An indexer with one block, whose header it answers with these bytes. -/
def oneBlockIndexer (raw : List UInt8) : RpcCall → Except String Json
  | .headersSubscribe => .ok (.obj [("height", .ofInt 0)])
  | .blockHeader _ => .ok (.str (Text.hexEncode raw))

theorem headerBytes_oneBlockIndexer (raw : List UInt8) (h : Nat) :
    headerBytes (oneBlockIndexer raw) h = some raw :=
  Text.hexDecode_hexEncode raw

/-- A header of 80 bytes with this time. -/
def headerOf (time : UInt8) : List UInt8 :=
  List.replicate 68 0 ++ [time, 0, 0, 0] ++ List.replicate 8 0

/-- An indexer with five blocks, whose times are not in their order. -/
def fiveBlockIndexer : RpcCall → Except String Json
  | .headersSubscribe => .ok (.obj [("height", .ofInt 4)])
  | .blockHeader h => .ok (.str (Text.hexEncode (headerOf ([50, 10, 40, 20, 30].getD h 0))))

/-- With whole headers, the median time past is exact. -/
theorem median_time_exact_fiveBlocks :
    MedianExact fiveBlockIndexer 4 ∧
      clientOutcome fiveBlockIndexer getMedianTimePastOfIndexer = .ok 30 := by
  have hwhole : ∀ h, headerBytes fiveBlockIndexer h =
      some (headerOf ([50, 10, 40, 20, 30].getD h 0)) := fun h => Text.hexDecode_hexEncode _
  refine ⟨(median_time_exact_iff rfl rfl).2 ⟨?_, ?_⟩, by decide +kernel⟩
  · rintro before h after - - ⟨raw, hraw, -, hlt⟩
    rw [hwhole] at hraw
    cases hraw
    simp only [headerOf, List.length_append, List.length_replicate, List.length_cons] at hlt
    omega
  · exact fun _ _ => ⟨by decide, fun h _ => ⟨_, hwhole h, by simp [headerOf]⟩⟩

/-- A header of 70 bytes makes the call panic. -/
theorem not_median_time_exact_cutShort :
    ¬ ∀ (respond : RpcCall → Except String Json) (v : Json) (height : Nat),
      respond .headersSubscribe = .ok v → answeredHeight v = some height →
        MedianExact respond height := by
  intro hall
  have hcut : CutShort (oneBlockIndexer (List.replicate 70 0)) 0 :=
    ⟨_, headerBytes_oneBlockIndexer _ 0, by simp, by simp⟩
  have hexact := hall (oneBlockIndexer (List.replicate 70 0)) _ 0 rfl rfl
  obtain ⟨text, htext⟩ := readAnswer_panic_iff.2 hcut
  apply hexact.noPanic text
  refine @clientOutcome_error _ _ 0 rfl rfl _ ?_
  exact mapM_eq_error_iff.2 ⟨[], 0, [], rfl, nofun, htext⟩

end BroadcastPool
