import BroadcastPool.Proofs.Db.Frame
import BroadcastPool.Proofs.Work
import BroadcastPool.Sample

/-!
# `BroadcastPool.Proofs.Archived`: the rows that move into the archive

A pass of `archive_terminal_older_than` reads the rows in one statement, seals each of them, and
deletes each by its id in a statement of its own. `PassRead` is what such a `SELECT` found.
`Undisturbed` is the condition on the statement that deletes: the rows with the id are those that
the pass has read.

`archived_rows_sealed` shows that the pass then deletes exactly one row, which is terminal, older
than the cutoff and what the blob seals, and that the archive gets one blob for each row deleted.
`retried_row_archived` is a run in which a user retries a failed row after the `SELECT`: the pass
deletes the scheduled transaction.
-/

set_option autoImplicit false

namespace BroadcastPool

open Effects

/-- The action deletes a row after it has stored a blob in the archive. -/
def Act.archives : Act → Bool
  | archiveRow .. => true
  | _ => false

/-- The answer of the `SELECT` of a pass, with its network and cutoff. -/
def passAnswer : Seen Act Act.Res → Option (String × String × List BroadcastTx)
  | ⟨.select (.terminalOlderThan network cutoff), .ok txs⟩ => some (network, cutoff, txs)
  | _ => none

/-- The answers that a program has had to the `SELECT` of a pass. -/
def passAnswers (seen : List (Seen Act Act.Res)) : List (String × String × List BroadcastTx) :=
  seen.filterMap passAnswer

/-- The program is a pass that seals under the key. -/
def IsPass (env : Env) (key : Key) (p : M Unit) : Prop :=
  p = retentionPass env .daemon key ∨ p = archiveFlush env .daemon key

/-- A schedule of the program's work and of manual flushes. -/
def IsArchiveSchedule (env : Env) (chs : List (Choice Act Act.Res Failure)) : Prop :=
  ∀ p, Choice.start p ∈ chs → (∃ key, IsPass env key p) ∨ ∃ a : Activity, p = a.prog env

/-! ### What a pass deletes -/

/-- The deletion is of a row that the pass has read, and the blob seals it under one of the
keys. -/
def ArchivesRead (env : Env) (keys : Key → Prop) (seen : List (Seen Act Act.Res)) (a : Act) :
    Prop :=
  ∀ id entry, a = .archiveRow id entry →
    ∃ network cutoff txs, passAnswers seen = [(network, cutoff, txs)] ∧
      ∃ tx ∈ txs, tx.id = id ∧
        ∃ key, keys key ∧ ∃ nonce, entry.blob = env.sealHex key nonce (env.txToJson tx) entry.id

/-- The contract of a pass. -/
abbrev archiveContract (env : Env) (keys : Key → Prop) :
    Contract Act Act.Res (List (Seen Act Act.Res)) :=
  pathContract anyAnswer (ArchivesRead env keys)

section
variable {env : Env} {keys : Key → Prop} {α : Type}

theorem archivesRead_of_not_archives {a : Act} (h : a.archives = false)
    (seen : List (Seen Act Act.Res)) : ArchivesRead env keys seen a := by
  rintro id entry rfl
  cases h

theorem passAnswers_append_clock {seen : List (Seen Act Act.Res)} {a : Act} (r : a.Res)
    (h : a.isClock = true ∨ a.archives = true) :
    passAnswers (seen ++ [⟨a, r⟩]) = passAnswers seen := by
  have hnone : passAnswer ⟨a, r⟩ = none := by
    cases a <;> first | rfl | (rcases h with h | h <;> cases h)
  simp [passAnswers, hnone]

/-- What a clock function does before or after the `SELECT` does not matter. -/
theorem keeps_passAnswers {prog : M α} (h : IsClock prog)
    (answers : List (String × String × List BroadcastTx)) :
    prog.Keeps (archiveContract env keys) fun seen => passAnswers seen = answers := by
  refine Prog.keeps_of_uses (fun a ha seen hseen _ => ⟨?_, ?_⟩) h
  · refine archivesRead_of_not_archives ?_ seen
    cases a <;> first | rfl | cases ha
  · rintro r seen' ⟨-, rfl⟩
    rw [passAnswers_append_clock r (Or.inl ha)]
    exact hseen

/-- The loop body seals a row that was read and deletes it. -/
theorem uses_archiveTx (key : Key) (tx : BroadcastTx) :
    (archiveTx env key tx).Uses fun a => a.isClock = true ∨
      ∃ entry nonce, a = .archiveRow tx.id entry ∧
        entry.blob = env.sealHex key nonce (env.txToJson tx) entry.id := by
  unfold archiveTx
  split
  · exact Prog.uses_ret _
  · refine Prog.uses_bind (uses_act (Or.inl rfl)) fun archiveId => ?_
    refine Prog.uses_bind (uses_act (Or.inl rfl)) fun nonce => ?_
    refine Prog.uses_bind (Prog.Uses.mono (fun _ => Or.inl) (clock_nowText env))
      fun archivedAt => ?_
    exact uses_orRaise (uses_act (Or.inr ⟨_, nonce, rfl, rfl⟩))

theorem keeps_archiveTx {key : Key} (hkey : keys key) {network cutoff : String}
    {txs : List BroadcastTx} {tx : BroadcastTx} (htx : tx ∈ txs) :
    (archiveTx env key tx).Keeps (archiveContract env keys)
      fun seen => passAnswers seen = [(network, cutoff, txs)] := by
  refine Prog.keeps_of_uses (fun a ha seen hseen _ => ?_) (uses_archiveTx key tx)
  rcases ha with hclock | ⟨entry, nonce, rfl, hblob⟩
  · refine ⟨archivesRead_of_not_archives ?_ seen, ?_⟩
    · cases a <;> first | rfl | cases hclock
    · rintro r seen' ⟨-, rfl⟩
      rw [passAnswers_append_clock r (Or.inl hclock)]
      exact hseen
  · refine ⟨fun id entry' harchive => ?_, ?_⟩
    · cases harchive
      exact ⟨network, cutoff, txs, hseen, tx, htx, rfl, key, hkey, nonce, hblob⟩
    · rintro r seen' ⟨-, rfl⟩
      rw [passAnswers_append_clock r (Or.inr rfl)]
      exact hseen

/-- `archive_terminal_older_than`, before which the program has read nothing for a pass. -/
theorem wp_archiveTerminalOlderThan {key : Key} (hkey : keys key) (network cutoff : String)
    {seen : List (Seen Act Act.Res)} (hseen : passAnswers seen = []) :
    (archiveTerminalOlderThan env key network cutoff).wp (archiveContract env keys)
      (fun _ _ => True) seen := by
  unfold archiveTerminalOlderThan selectTerminalOlderThan
  refine (Prog.wp_bind _ _ _ _).2 ((wp_orFail _ _ _ _).2 (Prog.wp_perform_path _ _ _
    (archivesRead_of_not_archives rfl seen) fun r _ => ?_))
  cases r with
  | error e => trivial
  | ok txs =>
    have hread : passAnswers (seen ++
        [⟨.select (.terminalOlderThan network cutoff), .ok txs⟩]) = [(network, cutoff, txs)] := by
      rw [passAnswers, List.filterMap_append, ← passAnswers, hseen]
      rfl
    exact Prog.Keeps.onPaths
      (Prog.keeps_forEach txs fun tx htx => keeps_archiveTx hkey htx) hread

/-- Both kinds of pass. -/
theorem onPaths_pass {key : Key} (hkey : keys key) {p : M Unit} (hp : IsPass env key p) :
    p.OnPaths anyAnswer (ArchivesRead env keys) [] := by
  have hlock : IsClock (orRaise (perform (.lockConfig .daemon))) := uses_orRaise (uses_act rfl)
  have hnow : IsClock (perform .now) := uses_act rfl
  rcases hp with rfl | rfl
  all_goals
    unfold Prog.OnPaths
    refine (Prog.wp_bind _ _ _ _).2 (Prog.wp_mono ?_ _ _ (keeps_passAnswers hlock [] [] rfl))
    rintro (e | config) seen hseen
    · trivial
    refine (Prog.wp_bind _ _ _ _).2 (Prog.wp_mono ?_ _ _ (keeps_passAnswers hnow [] seen hseen))
    rintro (e | now) seen hseen
    · trivial
    exact wp_archiveTerminalOlderThan hkey _ _ hseen

/-- The work that archives is a retention pass or a manual flush. -/
theorem isPass_of_archives {a : Activity} (h : a.archives = true) :
    ∃ key, IsPass env key (a.prog env) := by
  cases a with
  | retention key => exact ⟨key, Or.inl rfl⟩
  | archiveFlush key => exact ⟨key, Or.inr rfl⟩
  | _ => cases h

/-- Work that is no pass deletes nothing for the archive. -/
theorem work_of_not_archives {a : Activity} (h : a.archives = false) :
    IsWork (fun act => act.archives = false) (a.prog env) := by
  refine work_everyActivity a ?_ rfl (fun _ => rfl) fun _ => rfl
  exact
    { update := fun _ _ _ => rfl
      mark := fun _ _ _ _ _ => rfl
      encrypt := fun _ _ _ _ _ => rfl
      insert := fun _ _ _ _ => rfl
      delete := fun _ => rfl
      archive := fun harchives => absurd harchives (by simp [h])
      storePending := fun _ _ _ _ => rfl
      mergePending := fun _ _ _ _ => rfl
      indexerBroadcast := fun _ _ => rfl
      rpcBroadcast := fun _ _ => rfl
      clearSafeMode := rfl
      startProcess := fun _ _ _ _ _ => rfl }

theorem onPaths_of_no_archive {p : M Unit} (h : IsWork (fun act => act.archives = false) p) :
    p.OnPaths anyAnswer (ArchivesRead env keys) [] := by
  refine Prog.Keeps.onPaths (I := fun _ => True) ?_ trivial
  refine Prog.keeps_of_uses (fun a ha seen _ _ =>
    ⟨archivesRead_of_not_archives ?_ seen, fun _ _ _ => trivial⟩) h
  rcases ha with hbasic | hnot
  · cases a <;> first | rfl | cases hbasic
  · exact hnot

end

/-! ### What the pass has read -/

/-- What the `SELECT` of a pass found: the table, the instant, and the answer. -/
structure PassRead where
  network : String
  cutoff : String
  readAt : DateTime
  pool : List Row
  txs : List BroadcastTx

/-- The answer is what the table holds. -/
def PassRead.Faithful (env : Env) (read : PassRead) : Prop :=
  (selectRows (.terminalOlderThan read.network read.cutoff) read.pool).mapM
    (mapBroadcastRow env read.readAt) = .ok read.txs

/-- The `SELECT` of a pass, if the step is one. -/
def passRead (env : Env) (e : Performed Act Act.Res World) : Option PassRead :=
  (passAnswer ⟨e.act, (World.exec env e.act e.state).1⟩).map fun (network, cutoff, txs) =>
    { network, cutoff, readAt := env.clock e.state.tick, pool := e.state.pool, txs }

/-- The reads after a step. -/
def readsAfter (env : Env) (reads : List PassRead) (e : Performed Act Act.Res World) :
    List PassRead :=
  reads ++ (passRead env e).toList

/-- The condition on a step: the rows that a pass deletes are those that it has read. -/
def Undisturbed (reads : List PassRead) (e : Performed Act Act.Res World) : Prop :=
  match e.act with
  | .archiveRow id _ => ∃ read ∈ reads,
      (read.network, read.cutoff, read.txs) ∈ passAnswers e.seen ∧
        rowsOf id e.state.pool = rowsOf id read.pool
  | _ => True

instance (reads : List PassRead) (e : Performed Act Act.Res World) :
    Decidable (Undisturbed reads e) := by
  apply @Act.casesOn (fun a => Decidable (Undisturbed reads ⟨e.state, e.seen, a⟩)) e.act
  all_goals
    intros
    dsimp only [Undisturbed]
    infer_instance

/-- The status is one that `select_terminal_older_than` asks for. -/
def Row.IsExpendable (r : Row) : Prop :=
  r.status = "confirmed" ∨ r.status = "failed" ∨ r.status = "broadcast"

instance (r : Row) : Decidable r.IsExpendable := inferInstanceAs (Decidable (_ ∨ _))

/-- The row that a step moves into the archive, by its id, and the blob. -/
def archived (env : Env) (e : Performed Act Act.Res World) : Option (String × ArchiveRow) :=
  match e.act with
  | .archiveRow id entry =>
      match (World.exec env (.archiveRow id entry) e.state).1 with
      | .ok _ => some (id, entry)
      | .error _ => none
  | _ => none

/-- What the deletion of a row should be. The row is terminal and older than the cutoff of the
pass, and the blob seals what the row reads as. One row goes, and one blob comes. -/
structure ArchivesOneRow (env : Env) (keys : Key → Prop) (e : Performed Act Act.Res World)
    (id : String) (entry : ArchiveRow) (row : Row) : Prop where
  only : rowsOf id e.state.pool = [row]
  terminal : row.IsExpendable
  older : ∃ network cutoff txs, passAnswers e.seen = [(network, cutoff, txs)] ∧
    row.network = network ∧ row.updatedAt < cutoff
  sealed : ∃ readAt tx, mapBroadcastRow env readAt row = .ok tx ∧ ∃ key, keys key ∧
    ∃ nonce, entry.blob = env.sealHex key nonce (env.txToJson tx) entry.id
  pool : (World.exec env e.act e.state).2.pool = e.state.pool.filter (·.id ≠ id)
  archive : (World.exec env e.act e.state).2.archive = e.state.archive ++ [entry]

section
variable {env : Env} {keys : Key → Prop}

theorem faithful_passRead {e : Performed Act Act.Res World} {read : PassRead}
    (h : passRead env e = some read) : read.Faithful env := by
  obtain ⟨w, seen, a⟩ := e
  cases a
  case select q =>
    cases q
    case terminalOlderThan network cutoff =>
      rcases exec_select env w (.terminalOlderThan network cutoff) with
        ⟨e, hexec⟩ | ⟨txs, hmap, hexec⟩
      · unfold passRead at h
        rw [hexec] at h
        cases h
      · unfold passRead at h
        rw [hexec] at h
        cases h
        exact hmap
    all_goals cases h
  all_goals cases h

/-- A row of the answer is a row that was read, and the query selects it. -/
theorem PassRead.Faithful.row {read : PassRead} (h : read.Faithful env) {tx : BroadcastTx}
    (htx : tx ∈ read.txs) :
    ∃ r ∈ read.pool, r.id = tx.id ∧ mapBroadcastRow env read.readAt r = .ok tx ∧
      r.IsExpendable ∧ r.updatedAt < read.cutoff ∧ r.network = read.network := by
  obtain ⟨r, hr, hmap⟩ := mem_of_mapM_eq_ok h tx htx
  obtain ⟨hmem, hselects⟩ := mem_selectRows hr
  simp only [Query.selects, Bool.and_eq_true, Bool.or_eq_true, decide_eq_true_eq] at hselects
  obtain ⟨⟨hstatus, holder⟩, hnetwork⟩ := hselects
  exact ⟨r, hmem, (mapBroadcastRow_spec hmap).id.symm, hmap, or_assoc.1 hstatus, holder, hnetwork⟩

/-- A deletion that succeeds takes the rows with the id and adds the blob. -/
theorem exec_of_archived {e : Performed Act Act.Res World} {id : String} {entry : ArchiveRow}
    (h : archived env e = some (id, entry)) :
    e.act = .archiveRow id entry ∧
      (World.exec env e.act e.state).2.pool = e.state.pool.filter (·.id ≠ id) ∧
        (World.exec env e.act e.state).2.archive = e.state.archive ++ [entry] := by
  obtain ⟨w, seen, a⟩ := e
  unfold archived at h
  cases a
  case archiveRow id' entry' =>
    dsimp only at h ⊢
    rcases exec_archive env w id' entry' with ⟨e, hexec⟩ | hexec
    · rw [hexec] at h
      cases h
    · rw [hexec] at h ⊢
      cases h
      exact ⟨rfl, rfl, rfl⟩
  all_goals cases h

/-- A deletion that meets the condition is what it should be. -/
theorem archivesOneRow_of_undisturbed {reads : List PassRead} {e : Performed Act Act.Res World}
    (hids : e.state.UniqueIds) (hreads : ∀ read ∈ reads, read.Faithful env)
    (hpath : ArchivesRead env keys e.seen e.act) (hcond : Undisturbed reads e) {id : String}
    {entry : ArchiveRow} (h : archived env e = some (id, entry)) :
    ∃ row, ArchivesOneRow env keys e id entry row := by
  obtain ⟨hact, hpool, harchive⟩ := exec_of_archived h
  obtain ⟨network, cutoff, txs, hanswers, tx, htx, hid, hsealed⟩ := hpath id entry hact
  unfold Undisturbed at hcond
  rw [hact] at hcond
  obtain ⟨read, hread, hmine, hrows⟩ := hcond
  rw [hanswers] at hmine
  obtain ⟨rfl, rfl, rfl⟩ : read.network = network ∧ read.cutoff = cutoff ∧ read.txs = txs := by
    simpa using hmine
  obtain ⟨row, hrow, hrowId, hmap, hstatus, holder, hnetwork⟩ := (hreads read hread).row htx
  -- The row that was read is still in the table, and no other row has its id.
  have hnow : row ∈ rowsOf id e.state.pool := by
    rw [hrows]
    exact mem_rowsOf.2 ⟨hrow, hrowId.trans hid⟩
  obtain ⟨hmem, rfl⟩ := mem_rowsOf.1 hnow
  exact ⟨row,
    { only := rowsOf_of_nodup hids hmem
      terminal := hstatus
      older := ⟨_, _, _, hanswers, hnetwork, holder⟩
      sealed := ⟨_, tx, hmap, hsealed⟩
      pool := hpool
      archive := harchive }⟩

theorem statement_archive {w : World} {α : Type} (f : List Row → Except String (α × List Row)) :
    (w.statement env f).2.archive = w.archive := by
  rcases statement_error_or_ok (w := w) (f := f) rfl with ⟨e, h⟩ | ⟨x, pool, -, -, h⟩
  · rw [h]
  · rw [h]

theorem setPm_archive (w : World) (p : Proc) (m : PoolManager) :
    (w.setPm p m).archive = w.archive := by
  cases p <;> rfl

/-- Only the deletion of a pass writes the archive. -/
theorem exec_archive_eq (e : Performed Act Act.Res World) :
    (World.exec env e.act e.state).2.archive =
      e.state.archive ++ (archived env e).toList.map (·.2) := by
  obtain ⟨w, seen, a⟩ := e
  cases a
  case archiveRow id entry =>
    unfold archived
    dsimp only
    rcases exec_archive env w id entry with ⟨e, hexec⟩ | hexec
    · rw [hexec]
      exact (List.append_nil _).symm
    · rw [hexec]
      rfl
  case select | selectLegacy | txHexByTxid | insert | update | delete | reseal | migrate =>
    exact (statement_archive _).trans (List.append_nil _).symm
  all_goals
    refine Eq.trans ?_ (List.append_nil _).symm
    show (World.effect env w _).2.archive = w.archive
    simp only [World.effect]
    repeat' split
    all_goals first | rfl | exact setPm_archive ..

/-- The condition, for every deletion so far and the state. -/
def PassesFaithful (env : Env) (reads : List PassRead) (w : World) : Prop :=
  w.UniqueIds ∧ ∀ read ∈ reads, read.Faithful env

theorem passesFaithful_step {reads : List PassRead} {e : Performed Act Act.Res World}
    (h : PassesFaithful env reads e.state) :
    PassesFaithful env (readsAfter env reads e) (World.exec env e.act e.state).2 := by
  refine ⟨exec_uniqueIds env h.1 e.act, fun read hread => ?_⟩
  rcases List.mem_append.1 hread with hread | hread
  · exact h.2 read hread
  · exact faithful_passRead (Option.mem_toList.1 hread)

end

/-- The key of a pass that the schedule starts. -/
def SealsUnder (env : Env) (chs : List (Choice Act Act.Res Failure)) (key : Key) : Prop :=
  ∃ p, Choice.start p ∈ chs ∧ IsPass env key p

/-- In every interleaving whose steps meet the condition, every deletion of a pass takes one row,
which is terminal, older than the cutoff and what the blob seals, and the archive gets one blob for
each row. -/
theorem archived_rows_sealed (env : Env) (w : World) (hids : w.UniqueIds)
    (chs : List (Choice Act Act.Res Failure)) (hschedule : IsArchiveSchedule env chs)
    (hsteps : Along (readsAfter env) Undisturbed []
      (Config.performed (World.exec env) ⟨w, []⟩ chs)) :
    (∀ e ∈ Config.performed (World.exec env) ⟨w, []⟩ chs, ∀ id entry,
      archived env e = some (id, entry) →
        ∃ row, ArchivesOneRow env (SealsUnder env chs) e id entry row) ∧
      (Config.exec (World.exec env) ⟨w, []⟩ chs).state.archive = w.archive ++
        ((Config.performed (World.exec env) ⟨w, []⟩ chs).filterMap (archived env)).map (·.2) := by
  have hpaths : ∀ e ∈ Config.performed (World.exec env) ⟨w, []⟩ chs,
      ArchivesRead env (SealsUnder env chs) e.seen e.act := by
    refine Config.performed_of_paths (anyAnswer_exec env) _ _
      (fun t ht => by cases ht) fun p hp => ?_
    rcases hschedule p hp with ⟨key, hpass⟩ | ⟨a, rfl⟩
    · have hkey : SealsUnder env chs key := ⟨p, hp, hpass⟩
      exact onPaths_pass hkey hpass
    · cases harchives : a.archives with
      | true =>
        obtain ⟨key, hpass⟩ : ∃ key, IsPass env key (a.prog env) := isPass_of_archives harchives
        exact onPaths_pass ⟨_, hp, hpass⟩ hpass
      | false => exact onPaths_of_no_archive (work_of_not_archives harchives)
  constructor
  · intro e he id entry harchived
    obtain ⟨before, rest, hsplit⟩ := List.append_of_mem he
    obtain ⟨⟨hunique, hreads⟩, -, hcond⟩ := Config.performed_recorded (readsAfter env)
      (I := PassesFaithful env) (J := fun _ _ => True) (fun _ _ _ _ => trivial) chs _ _
      ⟨⟨hids, fun read hread => by cases hread⟩, fun _ _ _ _ => trivial⟩ hsteps
      (fun e _ reads h _ _ => ⟨passesFaithful_step h, trivial⟩) hsplit
    exact archivesOneRow_of_undisturbed hunique hreads (hpaths e he) hcond harchived
  · have hfold := Config.exec_history (I := fun archive w => w.archive = archive)
      (fun archive e => archive ++ (archived env e).toList.map (·.2)) chs
      (⟨w, []⟩ : Effects.Config Act Act.Res Failure World) w.archive rfl
      fun e _ archive harchive => by rw [exec_archive_eq, harchive]
    rw [hfold, List.foldl_append_eq_append, ← List.flatMap_def,
      List.filterMap_eq_flatMap_toList, List.map_flatMap]

/-- A failed row. -/
def failedRow : Row := resealed sampleEnv { sampleRow with status := "failed" }

/-- A manual flush, and what else happens after its `SELECT`. -/
def flushSchedule (between : List (Choice Act Act.Res Failure)) :
    List (Choice Act Act.Res Failure) :=
  .start (archiveFlush sampleEnv .daemon []) :: List.replicate 3 (.step 0) ++ between ++
    List.replicate 4 (.step 0)

/-- A user retries the row. -/
def retryBetween : List (Choice Act Act.Res Failure) :=
  .start ((Activity.retry "id0").prog sampleEnv) :: List.replicate 6 (.step 1)

theorem archived_rows_sealed_flushSchedule :
    (∀ e ∈ Config.performed (World.exec sampleEnv) ⟨servedWorld failedRow, []⟩ (flushSchedule []),
      ∀ id entry, archived sampleEnv e = some (id, entry) →
        ∃ row, ArchivesOneRow sampleEnv (SealsUnder sampleEnv (flushSchedule [])) e id entry row) ∧
      (Config.exec (World.exec sampleEnv) ⟨servedWorld failedRow, []⟩
          (flushSchedule [])).state.archive = (servedWorld failedRow).archive ++
        ((Config.performed (World.exec sampleEnv) ⟨servedWorld failedRow, []⟩
          (flushSchedule [])).filterMap (archived sampleEnv)).map (·.2) := by
  refine archived_rows_sealed sampleEnv (servedWorld failedRow) (by decide) (flushSchedule [])
    (fun p hp => Or.inl ⟨[], Or.inr ?_⟩) (by decide +kernel)
  simp only [flushSchedule, List.append_nil, List.cons_append, List.mem_cons, List.mem_append,
    List.mem_replicate] at hp
  rcases hp with hp | ⟨-, hp⟩ | ⟨-, hp⟩
  all_goals cases hp
  rfl

/-- With a retry between the `SELECT` and the deletion, the flush deletes a scheduled row. -/
theorem retried_row_archived :
    ¬ ∀ e ∈ Config.performed (World.exec sampleEnv) ⟨servedWorld failedRow, []⟩
        (flushSchedule retryBetween),
      ∀ id entry, archived sampleEnv e = some (id, entry) →
        ∃ row, ArchivesOneRow sampleEnv
          (SealsUnder sampleEnv (flushSchedule retryBetween)) e id entry row := by
  have hrun : ∃ e ∈ Config.performed (World.exec sampleEnv) ⟨servedWorld failedRow, []⟩
      (flushSchedule retryBetween),
      (archived sampleEnv e).isSome ∧ ∀ r ∈ e.state.pool, ¬ r.IsExpendable := by
    decide +kernel
  intro h
  obtain ⟨e, he, harchived, hpool⟩ := hrun
  obtain ⟨⟨id, entry⟩, hentry⟩ := Option.isSome_iff_exists.1 harchived
  obtain ⟨row, hrow⟩ := h e he id entry hentry
  have hmem : row ∈ rowsOf id e.state.pool := by
    rw [hrow.only]
    exact List.mem_singleton_self row
  exact hpool row (mem_rowsOf.1 hmem).1 hrow.terminal

end BroadcastPool
