import BroadcastPool.Proofs.Electrum.ByteStream
import BroadcastPool.Proofs.Electrum.LineOrder

/-!
# `BroadcastPool.Proofs.Electrum.Chunks`: what the splitting of a stream can change

The bytes of a wallet arrive in reads of any size. A read serves the lines that it completes, the
broadcasts among them first. So a connection does what it would do if the lines had come one by one
in another order (`servedOrder`), and the two programs are equal (`serveReads_order`): the
broadcasts are in the order of the stream and so are the other lines, but a broadcast may be ahead
of lines that came before it.

How far it gets ahead depends on the reads. The order is the same for every way to split a stream
if and only if no broadcast of the stream comes after another line, and then the splitting has no
effect at all (`splitting_harmless_iff`).
-/

set_option autoImplicit false

namespace BroadcastPool

open Effects
open Text (newline joinLines splitLines Unbroken)

section
variable (settings : SessionSettings) (env : Env) (libs : ElectrumLibs) (headers : HeaderLibs)
variable (p : Proc)

/-- The lines in the order in which the reads of a connection serve them. -/
def servedOrder : List (List UInt8) → List UInt8 → List (List UInt8)
  | [], _ => []
  | read :: reads, buf =>
    if read = [] then []
    else
      prioritized (hasBroadcast libs) (splitLines (buf ++ read)).1 ++
        servedOrder reads (splitLines (buf ++ read)).2

/-- Some lines, each as if it had come alone. -/
def serveEach (sourceLabel : String) : List (List UInt8) → ClientSession → M ClientSession
  | [], session => pure session
  | line :: lines, session => do
    let indexerUrl ← resolveLiveIndexerUrl p
    let session ← processClientLine settings env libs headers p (lineText line) indexerUrl
      sourceLabel session
    serveEach sourceLabel lines session

variable {settings env libs headers p}

theorem serveEach_cons (sourceLabel : String) (line : List UInt8) (lines : List (List UInt8))
    (session : ClientSession) :
    serveEach settings env libs headers p sourceLabel (line :: lines) session =
      (resolveLiveIndexerUrl p).bind fun indexerUrl =>
        (processClientLine settings env libs headers p (lineText line) indexerUrl sourceLabel
          session).bind (serveEach settings env libs headers p sourceLabel lines) := rfl

theorem serveEach_append (sourceLabel : String) (lines more : List (List UInt8))
    (session : ClientSession) :
    serveEach settings env libs headers p sourceLabel (lines ++ more) session =
      (serveEach settings env libs headers p sourceLabel lines session).bind
        (serveEach settings env libs headers p sourceLabel more) := by
  induction lines generalizing session with
  | nil => rfl
  | cons line lines ih =>
    rw [List.cons_append, serveEach_cons, serveEach_cons, Prog.bind_assoc]
    simp only [Prog.bind_assoc, ← ih]

/-- The lines of a read are served in their two groups. -/
theorem serveLines_order (sourceLabel : String) (rounds : Nat) {lines : List (List UInt8)}
    {rest : List UInt8} (h : Unbroken lines rest) (hrounds : lines.length ≤ rounds)
    (session : ClientSession) :
    serveLines settings env libs headers p sourceLabel rounds (joinLines lines rest) session =
      (serveEach settings env libs headers p sourceLabel
        (prioritized (hasBroadcast libs) lines) session).bind fun session =>
          .ret (rest, session) := by
  induction rounds generalizing lines session with
  | zero =>
    rw [List.length_eq_zero_iff.1 (Nat.le_zero.1 hrounds)]
    rfl
  | succ rounds ih =>
    by_cases hnil : lines = []
    · rw [hnil, joinLines, serveLines_rest h.rest]
      rfl
    · obtain ⟨before, line, after, rfl, hserved⟩ := exists_served libs hnil
      have hleft : Unbroken (before ++ after) rest := by
        refine ⟨fun l hl => h.lines l ?_, h.rest⟩
        rcases List.mem_append.1 hl with hl | hl
        · exact List.mem_append_left _ hl
        · exact List.mem_append_right _ (List.mem_cons_of_mem _ hl)
      have hfewer : (before ++ after).length ≤ rounds := by
        simp only [List.length_append, List.length_cons] at hrounds ⊢
        omega
      have hround : serveLines settings env libs headers p sourceLabel (rounds + 1)
          (joinLines (before ++ line :: after) rest) session =
            (resolveLiveIndexerUrl p).bind fun indexerUrl =>
              (processClientLine settings env libs headers p (lineText line) indexerUrl
                sourceLabel session).bind (serveLines settings env libs headers p sourceLabel
                  rounds (joinLines (before ++ after) rest)) := by
        rw [serveLines, popClientLine_joinLines libs h hserved]
        rfl
      rw [hround, prioritized_served hserved, serveEach_cons, Prog.bind_assoc]
      simp only [Prog.bind_assoc, ← ih hleft hfewer]

/-- The bytes that wait for their newline. -/
def unreadBytes (reads : List (List UInt8)) (buf : List UInt8) : List UInt8 :=
  (splitLines (buf ++ receivedBytes reads)).2

theorem unreadBytes_cons (buf read : List UInt8) (reads : List (List UInt8)) (h : read ≠ []) :
    unreadBytes (read :: reads) buf = unreadBytes reads (splitLines (buf ++ read)).2 := by
  have hreceived : receivedBytes (read :: reads) = read ++ receivedBytes reads := by
    simp [receivedBytes, h]
  unfold unreadBytes
  rw [hreceived, ← List.append_assoc, Text.splitLines_append]

theorem serveReads_eq (sourceLabel : String) (reads : List (List UInt8)) {buf : List UInt8}
    (hbuf : newline ∉ buf) (session : ClientSession) :
    serveReads settings env libs headers p sourceLabel reads buf session =
      (serveEach settings env libs headers p sourceLabel (servedOrder libs reads buf)
        session).bind fun session => .ret (unreadBytes reads buf, session) := by
  induction reads generalizing buf session with
  | nil =>
    unfold unreadBytes
    rw [receivedBytes, List.takeWhile_nil, List.flatten_nil, List.append_nil,
      Text.splitLines_of_notMem hbuf]
    rfl
  | cons read reads ih =>
    by_cases hend : read = []
    · have hreceived : receivedBytes (read :: reads) = [] := by simp [receivedBytes, hend]
      rw [serveReads, if_pos hend, servedOrder, if_pos hend, unreadBytes, hreceived,
        List.append_nil, Text.splitLines_of_notMem hbuf]
      rfl
    · have hunbroken := Text.unbroken_splitLines (buf ++ read)
      have hlines : (splitLines (buf ++ read)).1.length ≤ (buf ++ read).length := by
        have hle := Text.length_le_joinLines (splitLines (buf ++ read)).1
          (splitLines (buf ++ read)).2
        rwa [Text.joinLines_splitLines] at hle
      have hserve : serveLines settings env libs headers p sourceLabel (buf ++ read).length
          (buf ++ read) session = (serveEach settings env libs headers p sourceLabel
            (prioritized (hasBroadcast libs) (splitLines (buf ++ read)).1) session).bind
              fun session => .ret ((splitLines (buf ++ read)).2, session) := by
        rw [← serveLines_order sourceLabel (buf ++ read).length hunbroken hlines session,
          Text.joinLines_splitLines]
      rw [serveReads, if_neg hend, hserve, servedOrder, if_neg hend, serveEach_append,
        unreadBytes_cons buf read reads hend]
      rw [Prog.bind_eq, Prog.bind_assoc, Prog.bind_assoc]
      simp only [← ih hunbroken.rest]
      rfl

/-! ### The order -/

/-- The broadcasts are the same in the same order, and so are the other lines. -/
structure SameGroups (libs : ElectrumLibs) (order lines : List (List UInt8)) : Prop where
  broadcasts : order.filter (hasBroadcast libs) = lines.filter (hasBroadcast libs)
  others : (order.filter fun line => !hasBroadcast libs line) =
    lines.filter fun line => !hasBroadcast libs line

theorem sameGroups_prioritized (lines : List (List UInt8)) :
    SameGroups libs (prioritized (hasBroadcast libs) lines) lines :=
  ⟨filter_prioritized _ lines, filter_not_prioritized _ lines⟩

theorem SameGroups.append {order order' lines lines' : List (List UInt8)}
    (h : SameGroups libs order lines) (h' : SameGroups libs order' lines') :
    SameGroups libs (order ++ order') (lines ++ lines') where
  broadcasts := by rw [List.filter_append, List.filter_append, h.broadcasts, h'.broadcasts]
  others := by rw [List.filter_append, List.filter_append, h.others, h'.others]

theorem sameGroups_servedOrder (reads : List (List UInt8)) {buf : List UInt8}
    (hbuf : newline ∉ buf) :
    SameGroups libs (servedOrder libs reads buf) (splitLines (buf ++ receivedBytes reads)).1 := by
  induction reads generalizing buf with
  | nil =>
    rw [receivedBytes, List.takeWhile_nil, List.flatten_nil, List.append_nil,
      Text.splitLines_of_notMem hbuf]
    exact ⟨rfl, rfl⟩
  | cons read reads ih =>
    by_cases hend : read = []
    · have hreceived : receivedBytes (read :: reads) = [] := by simp [receivedBytes, hend]
      rw [servedOrder, if_pos hend, hreceived, List.append_nil, Text.splitLines_of_notMem hbuf]
      exact ⟨rfl, rfl⟩
    · rw [servedOrder, if_neg hend, splitLines_received buf read reads hend]
      exact (sameGroups_prioritized _).append (ih (Text.unbroken_splitLines _).rest)

/-- However a stream is split, the connection does what it would do for its lines one by one, with
the broadcasts in their order and the other lines in theirs. -/
theorem serveReads_order (sourceLabel : String) (reads : List (List UInt8))
    (session : ClientSession) :
    serveReads settings env libs headers p sourceLabel reads [] session =
        (serveEach settings env libs headers p sourceLabel (servedOrder libs reads [])
          session).bind (fun session => .ret ((splitLines (receivedBytes reads)).2, session)) ∧
      SameGroups libs (servedOrder libs reads []) (splitLines (receivedBytes reads)).1 :=
  ⟨serveReads_eq sourceLabel reads List.not_mem_nil session,
    sameGroups_servedOrder reads List.not_mem_nil⟩

/-! ### When the splitting does not matter -/

/-- No broadcast comes after another line. -/
def BroadcastsFirst (libs : ElectrumLibs) (lines : List (List UInt8)) : Prop :=
  lines.Pairwise fun a b => hasBroadcast libs b = true → hasBroadcast libs a = true

theorem prioritized_eq_self_iff {lines : List (List UInt8)} :
    prioritized (hasBroadcast libs) lines = lines ↔ BroadcastsFirst libs lines := by
  constructor
  · intro h
    have hpairwise := prioritized_pairwise (hasBroadcast libs) lines
    rw [h] at hpairwise
    exact hpairwise
  · intro h
    induction lines with
    | nil => rfl
    | cons line lines ih =>
      obtain ⟨hline, hlines⟩ := List.pairwise_cons.1 h
      have hrest := ih hlines
      unfold prioritized at hrest ⊢
      by_cases hfirst : hasBroadcast libs line = true
      · rw [List.filter_cons_of_pos hfirst, List.filter_cons_of_neg (by simp [hfirst]),
          List.cons_append, hrest]
      · -- No broadcast follows this line, so that both lists are the other group.
        have hnone : lines.filter (hasBroadcast libs) = [] := by
          refine List.filter_eq_nil_iff.2 fun l hl hbroadcast => ?_
          exact hfirst (hline l hl hbroadcast)
        rw [hnone, List.nil_append] at hrest
        rw [List.filter_cons_of_neg hfirst, hnone, List.filter_cons_of_pos (by simp [hfirst]),
          List.nil_append, hrest]

/-- A stream whose broadcasts come first is served in its own order. -/
theorem servedOrder_of_broadcastsFirst (reads : List (List UInt8)) {buf : List UInt8}
    (hbuf : newline ∉ buf)
    (h : BroadcastsFirst libs (splitLines (buf ++ receivedBytes reads)).1) :
    servedOrder libs reads buf = (splitLines (buf ++ receivedBytes reads)).1 := by
  induction reads generalizing buf with
  | nil =>
    rw [receivedBytes, List.takeWhile_nil, List.flatten_nil, List.append_nil,
      Text.splitLines_of_notMem hbuf]
    rfl
  | cons read reads ih =>
    by_cases hend : read = []
    · have hreceived : receivedBytes (read :: reads) = [] := by simp [receivedBytes, hend]
      rw [servedOrder, if_pos hend, hreceived, List.append_nil, Text.splitLines_of_notMem hbuf]
    · rw [splitLines_received buf read reads hend] at h ⊢
      obtain ⟨hnow, hlater, -⟩ := List.pairwise_append.1 h
      rw [servedOrder, if_neg hend, prioritized_eq_self_iff.2 hnow,
        ih (Text.unbroken_splitLines _).rest hlater]

/-- One read for every line, and one for the rest. -/
def lineByLine (bytes : List UInt8) : List (List UInt8) :=
  (splitLines bytes).1.map (· ++ [newline]) ++ [(splitLines bytes).2]

theorem receivedBytes_append {reads : List (List UInt8)} (h : ∀ read ∈ reads, read ≠ [])
    (more : List (List UInt8)) :
    receivedBytes (reads ++ more) = reads.flatten ++ receivedBytes more := by
  unfold receivedBytes
  rw [List.takeWhile_append_of_pos (by simpa using h), List.flatten_append]

theorem receivedBytes_singleton (read : List UInt8) : receivedBytes [read] = read := by
  by_cases h : read = [] <;> simp [receivedBytes, h]

theorem flatten_lines (lines : List (List UInt8)) (rest : List UInt8) :
    (lines.map (· ++ [newline])).flatten ++ rest = joinLines lines rest := by
  induction lines with
  | nil => rfl
  | cons line lines ih =>
    rw [List.map_cons, List.flatten_cons, joinLines, ← ih]
    simp

theorem receivedBytes_lineByLine (bytes : List UInt8) :
    receivedBytes (lineByLine bytes) = bytes := by
  unfold lineByLine
  rw [receivedBytes_append (by simp), receivedBytes_singleton, flatten_lines,
    Text.joinLines_splitLines]

/-- Lines that come one by one are served in the order in which they come. -/
theorem servedOrder_lines {lines : List (List UInt8)} (h : ∀ line ∈ lines, newline ∉ line)
    (reads : List (List UInt8)) :
    servedOrder libs (lines.map (· ++ [newline]) ++ reads) [] =
      lines ++ servedOrder libs reads [] := by
  induction lines with
  | nil => rfl
  | cons line lines ih =>
    have hsplit : splitLines (line ++ [newline]) = ([line], []) :=
      Text.splitLines_cons (h line (List.mem_cons_self ..)) []
    have hsingle : prioritized (hasBroadcast libs) [line] = [line] :=
      prioritized_eq_self_iff.2 (List.pairwise_singleton _ _)
    rw [List.map_cons, List.cons_append, servedOrder, if_neg (by simp), List.nil_append, hsplit,
      hsingle, ih fun l hl => h l (List.mem_cons_of_mem _ hl)]
    rfl

theorem servedOrder_lineByLine (bytes : List UInt8) :
    servedOrder libs (lineByLine bytes) [] = (splitLines bytes).1 := by
  have hunbroken := Text.unbroken_splitLines bytes
  unfold lineByLine
  rw [servedOrder_lines hunbroken.lines, servedOrder, List.nil_append,
    Text.splitLines_of_notMem hunbroken.rest]
  split <;> exact List.append_nil _

theorem servedOrder_singleton (bytes : List UInt8) :
    servedOrder libs [bytes] [] = prioritized (hasBroadcast libs) (splitLines bytes).1 := by
  rw [servedOrder]
  split
  · rename_i hempty
    rw [hempty]
    rfl
  · exact List.append_nil _

/-- All ways to split a stream lead to one order exactly if no broadcast comes after another line.
Then a connection does the same for all of them. -/
theorem splitting_harmless_iff (settings : SessionSettings) (env : Env) (libs : ElectrumLibs)
    (headers : HeaderLibs) (p : Proc) (bytes : List UInt8) :
    ((∀ reads reads', receivedBytes reads = bytes → receivedBytes reads' = bytes →
        servedOrder libs reads [] = servedOrder libs reads' []) ↔
      BroadcastsFirst libs (splitLines bytes).1) ∧
    (BroadcastsFirst libs (splitLines bytes).1 →
      ∀ reads reads', receivedBytes reads = bytes → receivedBytes reads' = bytes →
        ∀ sourceLabel session,
          serveReads settings env libs headers p sourceLabel reads [] session =
            serveReads settings env libs headers p sourceLabel reads' [] session) := by
  have hsame : BroadcastsFirst libs (splitLines bytes).1 → ∀ reads, receivedBytes reads = bytes →
      servedOrder libs reads [] = (splitLines bytes).1 := by
    rintro hfirst reads rfl
    exact servedOrder_of_broadcastsFirst reads List.not_mem_nil hfirst
  refine ⟨⟨fun h => ?_, fun h reads reads' hreads hreads' => ?_⟩,
    fun h reads reads' hreads hreads' sourceLabel session => ?_⟩
  · have horder := h [bytes] (lineByLine bytes) (receivedBytes_singleton bytes)
      (receivedBytes_lineByLine bytes)
    rw [servedOrder_singleton, servedOrder_lineByLine] at horder
    exact prioritized_eq_self_iff.1 horder
  · rw [hsame h reads hreads, hsame h reads' hreads']
  · rw [serveReads_eq sourceLabel reads List.not_mem_nil,
      serveReads_eq sourceLabel reads' List.not_mem_nil, hsame h reads hreads,
      hsame h reads' hreads', unreadBytes, unreadBytes, hreads, hreads']

end

end BroadcastPool
