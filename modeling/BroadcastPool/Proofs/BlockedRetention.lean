import BroadcastPool.Proofs.Db.Selection
import BroadcastPool.Sample

/-!
# `BroadcastPool.Proofs.BlockedRetention`: a row that cannot be deleted

`archive_terminal_older_than` archives and deletes one row after the other, and its first error ends
the call. A row that a migration refers to cannot be deleted, and so every row behind it in the
order of the query stays in the pool, in this call and in every later one.

`archives_rest_iff` says when a call reaches every row that can be deleted: the query answers, and
in its order no row that can be deleted comes after one that cannot. `run_archiveLoop` is what the
loop does in any case: it archives the rows before the first failure.
-/

set_option autoImplicit false

namespace BroadcastPool

open Effects

/-- The row has the MAC that its columns call for, as a test. -/
def Row.macInOrder (env : Env) (r : Row) : Bool :=
  r.nlocktime.any fun n => r.rowMac = some (r.expectedMac env n)

/-- The untampered rows of a list, each with the action that deletes it: the loop starts at
`tick`, and a row takes four actions. -/
def turns (env : Env) : Nat → List Row → List (Row × Nat)
  | _, [] => []
  | tick, r :: rs =>
    if r.macInOrder env then (r, tick + 3) :: turns env (tick + 4) rs else turns env tick rs

/-- The row can be deleted when its turn comes: no migration refers to it, and the database does
not fail. -/
def deletes (env : Env) (linked : List String) (turn : Row × Nat) : Bool :=
  !linked.contains turn.1.id && (env.dbFault turn.2).isNone

/-- The blob seals the row as it reads at `now`. -/
def Row.IsArchivedAs (env : Env) (key : Key) (now : DateTime) (r : Row) (entry : ArchiveRow) :
    Prop :=
  ∃ tx nonce, mapBroadcastRow env now r = .ok tx ∧ entry.network = r.network ∧
    entry.blob = env.sealHex key nonce (env.txToJson tx) entry.id

/-- From `w` to `w'` these rows are archived, each in a blob of its own, and deleted. Every other
row stays in the pool, and nothing else is archived. -/
structure Archives (env : Env) (key : Key) (now : DateTime) (rows : List Row) (w w' : World) :
    Prop where
  archive : ∃ entries, w'.archive = w.archive ++ entries ∧
    List.Forall₂ (Row.IsArchivedAs env key now) rows entries
  pool : w'.pool = w.pool.filter fun r => r.id ∉ rows.map (·.id)

/-- A new archive id is unlike any other. -/
def FreshUuids (env : Env) (w : World) : Prop :=
  (∀ entry ∈ w.archive, ∀ t, w.tick ≤ t → env.uuid t ≠ entry.id) ∧
    ∀ s t, w.tick ≤ s → s < t → env.uuid s ≠ env.uuid t

section
variable {env : Env} {key : Key} {now : DateTime}

theorem macInOrder_of_tampered {r : Row} {tx : BroadcastTx}
    (h : mapBroadcastRow env now r = .ok tx) :
    r.macInOrder env = decide (tx.tampered ≠ some true) := by
  obtain ⟨n, nl, bh, fee, cnt, tot, ret, hn, -, -, -, -, -, -, rfl⟩ := mapBroadcastRow_eq_ok.1 h
  simp [Row.macInOrder, hn]

/-! ### One row -/

theorem exec_archiveRow_ok {w : World} {id : String} {entry : ArchiveRow}
    (hdb : env.dbFault w.tick = none) (hfresh : ∀ e ∈ w.archive, e.id ≠ entry.id)
    (hlinked : id ∉ w.linked) :
    World.exec env (.archiveRow id entry) w = (.ok (), { w with
      pool := w.pool.filter (·.id ≠ id), archive := w.archive ++ [entry] }.ticked) := by
  have hnew : ¬ w.archive.any (·.id = entry.id) = true := by simpa using hfresh
  have hdelete : deleteRow w.linked id w.pool = .ok (w.pool.filter (·.id ≠ id)) := by
    unfold deleteRow
    rw [if_neg (by simp [hlinked])]
  simp only [World.exec, World.effect, hdb, if_neg hnew, hdelete]

theorem exec_archiveRow_error {w : World} {id : String} {entry : ArchiveRow}
    (h : env.dbFault w.tick ≠ none ∨ id ∈ w.linked ∧ ∃ r ∈ w.pool, r.id = id) :
    ∃ e, World.exec env (.archiveRow id entry) w = (.error e, w.ticked) := by
  rcases h with hdb | ⟨hlinked, r, hr, hid⟩
  · obtain ⟨e, he⟩ := Option.ne_none_iff_exists'.1 hdb
    simp only [World.exec, World.effect, he]
    exact ⟨e, rfl⟩
  · have hdelete : deleteRow w.linked id w.pool = .error "FOREIGN KEY constraint failed" := by
      have hany : w.pool.any (·.id = id) = true :=
        List.any_eq_true.2 ⟨r, hr, decide_eq_true hid⟩
      unfold deleteRow
      rw [if_pos (by simp [hlinked, hany])]
    simp only [World.exec, World.effect, hdelete]
    split
    · exact ⟨_, rfl⟩
    · split <;> exact ⟨_, rfl⟩

/-- The loop body on a row that is not tampered with. -/
theorem run_archiveTx {tx : BroadcastTx} (htampered : tx.tampered ≠ some true) (w : World) :
    ∃ entry : ArchiveRow, entry.id = env.uuid w.tick ∧ entry.network = tx.network ∧
      (∃ nonce, entry.blob = env.sealHex key nonce (env.txToJson tx) entry.id) ∧
      (archiveTx env key tx).run (World.exec env) w =
        (orRaise (perform (.archiveRow tx.id entry))).run (World.exec env)
          w.ticked.ticked.ticked := by
  refine ⟨{ id := env.uuid w.tick, network := tx.network
            archivedAt := env.toRfc3339 (env.clock (w.tick + 2))
            blob := env.sealHex key (w.tick + 1) (env.txToJson tx) (env.uuid w.tick) },
    rfl, rfl, ⟨_, rfl⟩, ?_⟩
  unfold archiveTx
  rw [if_neg htampered]
  rfl

/-! ### The loop -/

theorem Archives.nil (w : World) {w' : World} (hpool : w'.pool = w.pool)
    (harchive : w'.archive = w.archive) : Archives env key now [] w w' :=
  ⟨⟨[], by simp [harchive], .nil⟩, by simp [hpool]⟩

/-- One more row is archived first. -/
theorem Archives.cons {r : Row} {rows : List Row} {entry : ArchiveRow} {w w₁ w' : World}
    (hentry : r.IsArchivedAs env key now entry) (hpool : w₁.pool = w.pool.filter (·.id ≠ r.id))
    (harchive : w₁.archive = w.archive ++ [entry]) (h : Archives env key now rows w₁ w') :
    Archives env key now (r :: rows) w w' := by
  obtain ⟨⟨entries, hentries, hrows⟩, hrest⟩ := h
  refine ⟨⟨entry :: entries, by simp [hentries, harchive], .cons hentry hrows⟩, ?_⟩
  rw [hrest, hpool, List.filter_filter]
  refine List.filter_congr fun r' _ => ?_
  rw [← Bool.decide_and]
  refine decide_eq_decide.2 ?_
  rw [List.map_cons, List.mem_cons, not_or]
  exact and_comm

/-- The id that a row has used up is not drawn again. -/
theorem FreshUuids.after {w w₁ : World} {entry : ArchiveRow} (h : FreshUuids env w)
    (hentry : entry.id = env.uuid w.tick) (harchive : w₁.archive = w.archive ++ [entry])
    (htick : w₁.tick = w.tick + 4) : FreshUuids env w₁ := by
  refine ⟨fun e he t ht => ?_, fun s t hs hst => h.2 s t (by omega) hst⟩
  rw [harchive] at he
  rcases List.mem_append.1 he with he | he
  · exact h.1 e he t (by omega)
  · rw [List.mem_singleton.1 he, hentry]
    exact (h.2 w.tick t (Nat.le_refl _) (by omega)).symm

/-- The loop archives the rows before the first one that cannot be deleted. -/
theorem run_archiveLoop {rs : List Row} {txs : List BroadcastTx}
    (hread : List.Forall₂ (fun r tx => mapBroadcastRow env now r = .ok tx) rs txs) {w : World}
    (hids : (rs.map (·.id)).Nodup) (hpool : ∀ r ∈ rs, r ∈ w.pool) (huuid : FreshUuids env w) :
    Archives env key now
      (((turns env w.tick rs).takeWhile (deletes env w.linked)).map (·.1)) w
      ((Prog.forEach txs (archiveTx env key)).run (World.exec env) w).2 := by
  induction hread generalizing w with
  | nil => exact Archives.nil w rfl rfl
  | @cons r tx rs txs hr _ ih =>
    obtain ⟨hid, hids⟩ := List.nodup_cons.1 hids
    have hmac := macInOrder_of_tampered hr
    unfold Prog.forEach
    rw [Prog.run_bind]
    by_cases htampered : tx.tampered = some true
    · -- A row that is tampered with is left out, and its turn takes no action.
      rw [show (archiveTx env key tx).run (World.exec env) w = (.ok (), w) by
        simp [archiveTx, htampered]]
      have hturns : turns env w.tick (r :: rs) = turns env w.tick rs := by
        simp [turns, hmac, htampered]
      rw [hturns]
      exact ih hids (fun r' hr' => hpool r' (List.mem_cons_of_mem _ hr')) huuid
    · have hturns : turns env w.tick (r :: rs) = (r, w.tick + 3) :: turns env (w.tick + 4) rs := by
        simp [turns, hmac, htampered]
      obtain ⟨entry, hentry, hnetwork, ⟨nonce, hblob⟩, hrun⟩ :=
        @run_archiveTx env key tx htampered w
      have hsame : tx.id = r.id ∧ tx.network = r.network := by
        obtain ⟨_, _, _, _, _, _, _, -, -, -, -, -, -, -, rfl⟩ := mapBroadcastRow_eq_ok.1 hr
        exact ⟨rfl, rfl⟩
      rw [hturns, hrun, hsame.1]
      by_cases hdeletes : deletes env w.linked (r, w.tick + 3) = true
      · obtain ⟨hlinked, hdb⟩ : r.id ∉ w.linked ∧ env.dbFault (w.tick + 3) = none := by
          simpa [deletes] using hdeletes
        -- The new id is none of those in the archive, so the `INSERT` goes through.
        have hfresh : ∀ e ∈ w.archive, e.id ≠ entry.id := by
          intro e he
          rw [hentry]
          exact (huuid.1 e he w.tick (Nat.le_refl _)).symm
        obtain ⟨w₁, hexec, hpool₁, harchive₁, hlinked₁, htick₁⟩ :
            ∃ w₁, World.exec env (.archiveRow r.id entry) w.ticked.ticked.ticked = (.ok (), w₁) ∧
              w₁.pool = w.pool.filter (·.id ≠ r.id) ∧ w₁.archive = w.archive ++ [entry] ∧
              w₁.linked = w.linked ∧ w₁.tick = w.tick + 4 :=
          ⟨_, exec_archiveRow_ok hdb hfresh hlinked, rfl, rfl, rfl, rfl⟩
        have hpool' : ∀ r' ∈ rs, r' ∈ w₁.pool := by
          intro r' hr'
          rw [hpool₁]
          refine List.mem_filter.2 ⟨hpool r' (List.mem_cons_of_mem _ hr'), decide_eq_true ?_⟩
          intro hsameId
          exact hid (List.mem_map.2 ⟨r', hr', hsameId⟩)
        have hrest := ih (w := w₁) hids hpool' (huuid.after hentry harchive₁ htick₁)
        rw [hlinked₁, htick₁] at hrest
        rw [List.takeWhile_cons_of_pos hdeletes, List.map_cons]
        simp only [run_orRaise, perform, Prog.run_perform, hexec]
        exact Archives.cons ⟨tx, nonce, hr, hnetwork.trans hsame.2, hblob⟩ hpool₁ harchive₁ hrest
      · -- A fault of the database or a linked row refuses the delete. The loop ends here and leaves
        -- the rest.
        have hfails : env.dbFault (w.tick + 3) ≠ none ∨
            r.id ∈ w.linked ∧ ∃ r' ∈ w.pool, r'.id = r.id := by
          by_cases hlinked : r.id ∈ w.linked
          · exact Or.inr ⟨hlinked, r, hpool r (List.mem_cons_self ..), rfl⟩
          · refine Or.inl fun hdb => hdeletes ?_
            simp [deletes, hlinked, hdb]
        obtain ⟨e, hexec⟩ : ∃ e, World.exec env (.archiveRow r.id entry) w.ticked.ticked.ticked =
            (.error e, w.ticked.ticked.ticked.ticked) := exec_archiveRow_error hfails
        rw [List.takeWhile_cons_of_neg hdeletes]
        simp only [run_orRaise, perform, Prog.run_perform, hexec]
        exact Archives.nil w rfl rfl

/-! ### A call -/

/-- What is archived is known by its number, if one list of rows is a part of the other. -/
theorem archives_iff_eq {rows rows' : List Row} {w w' : World}
    (h : Archives env key now rows w w') (hsub : rows.Sublist rows') :
    Archives env key now rows' w w' ↔ rows = rows' := by
  constructor
  · intro h'
    obtain ⟨entries, hentries, hrows⟩ := h.archive
    obtain ⟨entries', hentries', hrows'⟩ := h'.archive
    have hsame : entries = entries' := List.append_cancel_left (hentries.symm.trans hentries')
    refine hsub.eq_of_length ?_
    rw [hrows.length_eq, hrows'.length_eq, hsame]
  · rintro rfl
    exact h

variable (env)

/-- The untampered rows that a call is about, with their turns. -/
def eligible (network cutoff : String) (w : World) : List (Row × Nat) :=
  turns env (w.tick + 1) (selectRows (.terminalOlderThan network cutoff) w.pool)

/-- A call archives and deletes every eligible untampered row that can be deleted. The rows that
cannot be deleted stay in the pool, without a blob. -/
def ArchivesRest (key : Key) (network cutoff : String) (w : World) : Prop :=
  Archives env key (env.clock w.tick)
    (((eligible env network cutoff w).filter (deletes env w.linked)).map (·.1)) w
    ((archiveTerminalOlderThan env key network cutoff).run (World.exec env) w).2

/-- No row can be deleted, or the query answers and in its order no row that can be deleted comes
after one that cannot. -/
def ReachesRest (network cutoff : String) (w : World) : Prop :=
  (∀ turn ∈ eligible env network cutoff w, deletes env w.linked turn = false) ∨
    env.dbFault w.tick = none ∧
      (∀ r ∈ selectRows (.terminalOlderThan network cutoff) w.pool, r.Readable) ∧
      (eligible env network cutoff w).Pairwise fun first second =>
        deletes env w.linked second = true → deletes env w.linked first = true

variable {env}

/-- What a call archives if its query answers. -/
theorem archives_of_query {network cutoff : String} {w : World} (hids : w.UniqueIds)
    (huuid : FreshUuids env w) (hdb : env.dbFault w.tick = none)
    (hread : ∀ r ∈ selectRows (.terminalOlderThan network cutoff) w.pool, r.Readable) :
    Archives env key (env.clock w.tick)
      (((eligible env network cutoff w).takeWhile (deletes env w.linked)).map (·.1)) w
      ((archiveTerminalOlderThan env key network cutoff).run (World.exec env) w).2 := by
  obtain ⟨txs, htxs⟩ := @exists_mapM_of_readable env (env.clock w.tick) _ hread
  have hrun : (archiveTerminalOlderThan env key network cutoff).run (World.exec env) w =
      (Prog.forEach txs (archiveTx env key)).run (World.exec env) w.ticked := by
    unfold archiveTerminalOlderThan selectTerminalOlderThan
    rw [Prog.bind_eq, Prog.run_bind, run_orFail]
    simp only [perform, Prog.run_perform, exec_select_of_ok hdb htxs]
  rw [hrun]
  have hsub : (selectRows (.terminalOlderThan network cutoff) w.pool).Sublist w.pool :=
    List.filter_sublist
  have huuid' : FreshUuids env w.ticked :=
    ⟨fun e he t ht => huuid.1 e he t (Nat.le_of_succ_le ht),
      fun s t hs hst => huuid.2 s t (Nat.le_of_succ_le hs) hst⟩
  have hrows : ∀ r ∈ selectRows (.terminalOlderThan network cutoff) w.pool, r ∈ w.ticked.pool :=
    fun r hr => hsub.subset hr
  have hloop : Archives env key (env.clock w.tick)
      (((eligible env network cutoff w).takeWhile (deletes env w.linked)).map (·.1)) w.ticked
      ((Prog.forEach txs (archiveTx env key)).run (World.exec env) w.ticked).2 :=
    run_archiveLoop (mapM_eq_ok_iff.1 htxs) (hids.sublist (hsub.map _)) hrows huuid'
  exact ⟨hloop.archive, hloop.pool⟩

/-- Without an answer to its query, a call archives nothing. -/
theorem archives_nil_of_no_query {network cutoff : String} {w : World}
    (h : ¬ (env.dbFault w.tick = none ∧
      ∀ r ∈ selectRows (.terminalOlderThan network cutoff) w.pool, r.Readable)) :
    Archives env key (env.clock w.tick) [] w
      ((archiveTerminalOlderThan env key network cutoff).run (World.exec env) w).2 := by
  unfold archiveTerminalOlderThan selectTerminalOlderThan
  rw [Prog.bind_eq, Prog.run_bind, run_orFail]
  rcases exec_select env w (.terminalOlderThan network cutoff) with ⟨e, hexec⟩ | ⟨txs, htxs, hexec⟩
  · simp only [perform, Prog.run_perform, hexec]
    exact Archives.nil w rfl rfl
  · have hok := exec_select_ok_iff.1 (congrArg Prod.fst hexec)
    refine absurd ⟨hok.1, fun r hr => ?_⟩ h
    obtain ⟨tx, -, htx⟩ := exists_mem_of_mapM_eq_ok hok.2 r hr
    exact (readable_iff _).2 ⟨tx, htx⟩

/-- A call archives the rest exactly if it reaches it. -/
theorem archives_rest_iff {key : Key} {network cutoff : String} {w : World}
    (hids : w.UniqueIds) (huuid : FreshUuids env w) :
    ArchivesRest env key network cutoff w ↔ ReachesRest env network cutoff w := by
  have hsub := takeWhile_sublist_filter (deletes env w.linked) (eligible env network cutoff w)
  unfold ArchivesRest ReachesRest
  by_cases hquery : env.dbFault w.tick = none ∧
      ∀ r ∈ selectRows (.terminalOlderThan network cutoff) w.pool, r.Readable
  · have hrows : (((eligible env network cutoff w).takeWhile (deletes env w.linked)).map (·.1) =
        ((eligible env network cutoff w).filter (deletes env w.linked)).map (·.1)) ↔
        (eligible env network cutoff w).Pairwise fun first second =>
          deletes env w.linked second = true → deletes env w.linked first = true := by
      rw [← takeWhile_eq_filter_iff]
      refine ⟨fun h => hsub.eq_of_length ?_, fun h => congrArg _ h⟩
      simpa using congrArg List.length h
    rw [archives_iff_eq (archives_of_query hids huuid hquery.1 hquery.2) (hsub.map _), hrows]
    constructor
    · exact fun hlast => Or.inr ⟨hquery.1, hquery.2, hlast⟩
    · rintro (hnone | ⟨-, -, hlast⟩)
      · refine List.pairwise_of_forall_mem_list fun first _ second hsecond hdeletes => ?_
        rw [hnone second hsecond] at hdeletes
        cases hdeletes
      · exact hlast
  · rw [archives_iff_eq (archives_nil_of_no_query hquery) (List.nil_sublist _), eq_comm,
      List.map_eq_nil_iff, List.filter_eq_nil_iff]
    constructor
    · exact fun hnone => Or.inl fun turn hturn => by simpa using hnone turn hturn
    · rintro (hnone | ⟨hdb, hread, -⟩)
      · exact fun turn hturn => by simp [hnone turn hturn]
      · exact absurd ⟨hdb, hread⟩ hquery

end

/-! ### A row that a migration refers to -/

/-- A world whose ids are never drawn twice. -/
def countingEnv : Env :=
  { sampleEnv with uuid := fun n => String.ofList (List.replicate n 'u') }

theorem freshUuids_countingEnv {w : World} (h : w.archive = []) : FreshUuids countingEnv w := by
  refine ⟨fun e he => ?_, fun s t _ hst hsame => ?_⟩
  · rw [h] at he
    cases he
  · have hlength := congrArg (fun s => s.toList.length) hsame
    simp only [countingEnv, String.toList_ofList, List.length_replicate] at hlength
    omega

/-- A failed transaction that has not been touched for long. -/
def expiredRow (id : String) : Row :=
  resealed countingEnv { sampleRow with id, status := "failed", updatedAt := "0" }

theorem readable_expiredRow (id : String) : (expiredRow id).Readable where
  nlocktime := ⟨0, rfl⟩
  blockHeight _ h := by cases h
  targetFeeRate _ h := by cases h
  utxoCount := ⟨1, rfl⟩
  totalValueBtc h := by cases h
  retryCount := ⟨0, rfl⟩

/-- A pool of two such rows, one of which a migration refers to. -/
def migratedWorld (ids : List String) : World :=
  { sampleWorld with pool := ids.map expiredRow, linked := ["migrated"] }

/-- The row that can be deleted comes first. -/
theorem archives_rest_before_migrated :
    ArchivesRest countingEnv [] "testnet4" "1" (migratedWorld ["free", "migrated"]) := by
  refine (archives_rest_iff (by decide) (freshUuids_countingEnv rfl)).2
    (Or.inr ⟨rfl, fun r hr => ?_, by decide⟩)
  obtain ⟨id, -, rfl⟩ := List.mem_map.1 (List.mem_filter.1 hr).1
  exact readable_expiredRow id

/-- The row that can be deleted comes second, and is not archived. -/
theorem migrated_row_blocks :
    ¬ ArchivesRest countingEnv [] "testnet4" "1" (migratedWorld ["migrated", "free"]) := by
  intro h
  obtain ⟨entries, hentries, hrows⟩ := h.archive
  have hnone : ((archiveTerminalOlderThan countingEnv [] "testnet4" "1").run
      (World.exec countingEnv) (migratedWorld ["migrated", "free"])).2.archive = [] := by decide
  have hempty : entries = [] := hentries.symm.trans hnone
  have hlength := hrows.length_eq
  rw [hempty] at hlength
  revert hlength
  decide

end BroadcastPool
