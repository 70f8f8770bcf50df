import BroadcastPool.Proofs.Mempool.Waiting
import BroadcastPool.Proofs.Work

/-!
# `BroadcastPool.Proofs.Content`: the transaction of a row through a run

A row keeps its transaction as long as it is in the table. Its hex text is sealed when it comes
in, or at a later start of a process, and both leave what it reads back as.

`readsOf` are the hex texts that a program has read, with the ids of their rows. `Grounded` says
of the statements that store a rejection or a sealed text that they are about a row which the
program has read (`grounded_activity`). `KnownHold` says that the rows with an id that was read
still hold the text that was read, and `knownHold_step` that every step keeps it, if no two rows
get the same id.
-/

set_option autoImplicit false

namespace BroadcastPool

open Effects

/-- The hex text that a row reads back as. -/
def Row.hex (env : Env) (r : Row) : String := decOrRaw env r.id r.txHex

/-- The ids and the hex texts that an answer shows. -/
def readsIn (env : Env) : Seen Act Act.Res → List (String × String)
  | ⟨.select _, .ok txs⟩ => txs.map fun tx => (tx.id, tx.txHex)
  | ⟨.selectLegacy, .ok rows⟩ => rows.map fun row => (row.1, decOrRaw env row.1 row.2.1)
  | _ => []

/-- The ids and the hex texts that a program has read. -/
def readsOf (env : Env) (seen : List (Seen Act Act.Res)) : List (String × String) :=
  seen.flatMap (readsIn env)

/-- A new row is pending. The statements that store a rejection or a sealed text are about a row
that the program has read, and the sealed text reads back as the text that it has read. -/
structure Grounded (env : Env) (seen : List (Seen Act Act.Res)) (a : Act) : Prop where
  insert : ∀ row, a = .insert row → row.status = "pending"
  failed : ∀ id error now, a = .update (.txStatus id .failed error now) →
    ∃ hex, (id, hex) ∈ readsOf env seen
  encrypt : ∀ id t d s, a = .update (.encryptFields id t d s) →
    (id, decOrRaw env id t) ∈ readsOf env seen

/-! ### The paths of the program -/

section
variable {α : Type} {env : Env}

abbrev groundedContract (env : Env) : Contract Act Act.Res (List (Seen Act Act.Res)) :=
  pathContract anyAnswer (Grounded env)

/-- An action that needs no read. -/
def Act.IsOrdinary (a : Act) : Prop :=
  (∀ row, a = .insert row → row.status = "pending") ∧
    ∀ u, a = .update u → u.isOrdinary = true

theorem isOrdinary_of_no_write {a : Act} (hinsert : ∀ row, a ≠ .insert row)
    (hupdate : ∀ u, a ≠ .update u) : a.IsOrdinary :=
  ⟨fun row h => absurd h (hinsert row), fun u h => absurd h (hupdate u)⟩

theorem isOrdinary_of_writesPool {a : Act} (h : a.writesPool = false) : a.IsOrdinary := by
  refine isOrdinary_of_no_write ?_ ?_
  all_goals
    rintro _ rfl
    cases h

theorem isOrdinary_update {u : Update} (hu : u.isOrdinary = true) : (Act.update u).IsOrdinary := by
  refine ⟨fun row h => ?_, fun u' h => ?_⟩
  · cases h
  · cases h
    exact hu

theorem isOrdinary_of_isBasic {a : Act} (h : a.isBasic = true) : a.IsOrdinary := by
  refine isOrdinary_of_no_write ?_ ?_
  all_goals
    rintro _ rfl
    cases h

theorem isOrdinary_of_work {a : Act} (h : a.Work Act.IsOrdinary) : a.IsOrdinary := by
  rcases h with h | h
  · exact isOrdinary_of_isBasic h
  · exact h

theorem grounded_of_isOrdinary {seen : List (Seen Act Act.Res)} {a : Act} (h : a.IsOrdinary) :
    Grounded env seen a where
  insert := h.1
  failed id error now ha := by cases h.2 _ ha
  encrypt id t d s ha := by cases h.2 _ ha

/-- The program has read all of these. -/
def HasRead (env : Env) (reads : List (String × String)) (seen : List (Seen Act Act.Res)) :
    Prop :=
  ∀ k ∈ reads, k ∈ readsOf env seen

variable {reads : List (String × String)}

theorem HasRead.append {seen : List (Seen Act Act.Res)} (h : HasRead env reads seen)
    (s : Seen Act Act.Res) : HasRead env reads (seen ++ [s]) := by
  intro k hk
  unfold readsOf
  rw [List.flatMap_append]
  exact List.mem_append_left _ (h k hk)

section
variable {answers : (a : Act) → a.Res → Prop} {required : List (Seen Act Act.Res) → Act → Prop}

/-- A program whose actions are allowed by what it has read before. -/
theorem keeps_hasRead {p : M α}
    (hp : p.Uses fun a => ∀ seen, HasRead env reads seen → required seen a) :
    p.Keeps (pathContract answers required) (HasRead env reads) := by
  refine Prog.keeps_of_uses (fun a ha seen hseen _ => ⟨ha seen hseen, ?_⟩) hp
  rintro r seen' ⟨-, rfl⟩
  exact hseen.append _

/-- A query, and work on what it shows. -/
theorem keeps_select_bind {q : M (List BroadcastTx)} {context : String} {query : Query}
    (hq : q = orFail context (perform (.select query)))
    (hrequired : ∀ seen, required seen (.select query)) {f : List BroadcastTx → M α}
    (hf : ∀ txs, answers (.select query) (.ok txs) → (f txs).Keeps (pathContract answers required)
      (HasRead env (txs.map fun tx => (tx.id, tx.txHex)))) :
    (q.bind f).Keeps (pathContract answers required) (HasRead env []) := by
  subst hq
  intro seen _
  refine (Prog.wp_bind _ _ _ _).2 ((wp_orFail _ _ _ _).2 (Prog.wp_perform_path _ _ _
    (hrequired seen) fun r hr => ?_))
  cases r with
  | error e => exact fun k hk => by cases hk
  | ok txs =>
    refine Prog.wp_mono (fun _ _ _ k hk => by cases hk) _ _ (hf txs hr _ fun k hk => ?_)
    unfold readsOf
    rw [List.flatMap_append]
    refine List.mem_append_right _ ?_
    simpa [readsIn] using hk

end

/-- A program whose actions are grounded in what it has read before. -/
theorem keeps_grounded {p : M α}
    (hp : p.Uses fun a => ∀ seen, HasRead env reads seen → Grounded env seen a) :
    p.Keeps (groundedContract env) (HasRead env reads) := keeps_hasRead hp

/-- Work that needs no read. -/
theorem keeps_ordinary {p : M α} (hp : IsWork Act.IsOrdinary p) :
    p.Keeps (groundedContract env) (HasRead env reads) :=
  keeps_grounded
    (Prog.Uses.mono (fun _ ha _ _ => grounded_of_isOrdinary (isOrdinary_of_work ha)) hp)

/-- The tick stores a rejection only on a row that it has read. -/
theorem keeps_broadcastDueTransactions (p : Proc) :
    (broadcastDueTransactions env p).Keeps (groundedContract env) (HasRead env []) := by
  refine Prog.keeps_bind (keeps_ordinary (work_act (isOrdinary_of_writesPool rfl)))
    fun halted => ?_
  split
  · exact Prog.keeps_ret _
  · refine Prog.keeps_bind (keeps_ordinary (clock_configNetwork p).work) fun network => ?_
    refine Prog.keeps_bind (keeps_ordinary (work_basic rfl)) fun now => ?_
    refine keeps_select_bind rfl
      (fun _ => grounded_of_isOrdinary (isOrdinary_of_writesPool rfl)) fun candidates _ => ?_
    refine Prog.Gives.keeps_bind (gives_dueTxs p now candidates fun tx => ?_) fun due hdue => ?_
    · exact keeps_ordinary (IsClock.work (uses_catchErr (clock_isTxDueForBroadcast p tx now)))
    · refine keeps_grounded (Prog.Uses.mono (fun a ha seen hseen => ?_)
        (work_broadcastDueLoop (K := fun a => ∀ seen,
          HasRead env (candidates.map fun tx => (tx.id, tx.txHex)) seen → Grounded env seen a)
          env p ?_ ?_ now due ?_ ?_ ?_ ?_ ?_))
      · rcases ha with ha | ha
        · exact grounded_of_isOrdinary (isOrdinary_of_isBasic ha)
        · exact ha seen hseen
      · exact fun _ _ => grounded_of_isOrdinary (isOrdinary_of_writesPool rfl)
      · exact fun _ _ _ => grounded_of_isOrdinary (isOrdinary_of_writesPool rfl)
      · exact fun _ _ _ _ => grounded_of_isOrdinary (isOrdinary_of_writesPool rfl)
      · exact fun _ _ _ _ => grounded_of_isOrdinary (isOrdinary_of_writesPool rfl)
      · exact fun _ _ _ _ _ _ => grounded_of_isOrdinary (isOrdinary_update rfl)
      · intro tx htx error now seen hseen
        have hread := hseen (tx.id, tx.txHex) (List.mem_map_of_mem (hdue tx htx))
        refine ⟨fun row h => ?_, fun id e now' h => ?_, fun id t d s h => ?_⟩
        · cases h
        · cases h
          exact ⟨tx.txHex, hread⟩
        · cases h
      · exact fun _ _ _ _ _ _ => grounded_of_isOrdinary (isOrdinary_update rfl)

theorem keeps_broadcastLoopPass (p : Proc) :
    (broadcastLoopPass env p).Keeps (groundedContract env) (HasRead env []) := by
  have hread : Act.IsOrdinary (.isSafeMode p) := isOrdinary_of_writesPool rfl
  refine Prog.keeps_bind (keeps_ordinary (work_act hread)) fun halted => ?_
  split
  · exact Prog.keeps_ret _
  · rw [runSchedulerTick_eq]
    refine Prog.keeps_bind (keeps_ordinary (work_pendingDuePart env p hread
      (fun _ => isOrdinary_of_writesPool rfl) fun _ _ => isOrdinary_update rfl)) fun goesOn => ?_
    split
    · refine Prog.keeps_bind (keeps_ordinary (uses_catchErr (work_requeueRetriableFailures env p
        fun _ _ => isOrdinary_update rfl))) fun _ => ?_
      exact keeps_broadcastDueTransactions p
    · exact Prog.keeps_ret _

/-! ### The start of a process -/

/-- A field that `encrypt_legacy_rows` stores reads back as before. -/
theorem gives_encodeMissing (hseal : env.SealOpens) (s id : String) :
    Prog.Gives (groundedContract env) (HasRead env reads)
      (fun t => decOrRaw env id t = decOrRaw env id s) (encodeMissing env s id) := by
  unfold encodeMissing
  split
  · exact Prog.gives_ret rfl
  · rename_i hplain
    refine Prog.gives_bind (keeps_ordinary (work_basic rfl)).gives fun nonce _ => ?_
    refine Prog.gives_ret ?_
    rw [decOrRaw_encodeField hseal, decOrRaw_of_not_isEncoded (by simpa using hplain)]

theorem keeps_encryptLegacyRow (hseal : env.SealOpens) {row : LegacyRow}
    (hrow : (row.1, decOrRaw env row.1 row.2.1) ∈ reads) :
    (encryptLegacyRow env row).Keeps (groundedContract env) (HasRead env reads) := by
  obtain ⟨id, txHex, dest, source⟩ := row
  refine Prog.Gives.keeps_bind (gives_encodeMissing hseal txHex id) fun encTxHex henc => ?_
  refine Prog.keeps_bind (keeps_ordinary (clock_encodeMissing? env _ _).work) fun encDest => ?_
  refine Prog.keeps_bind (keeps_ordinary (clock_encodeMissing? env _ _).work) fun encSource => ?_
  refine Prog.keeps_bind (keeps_orFail _ (keeps_grounded (uses_act fun seen hseen => ?_)))
    fun _ => keeps_ordinary (work_resealRowMac _)
  refine ⟨fun row h => ?_, fun id' e now h => ?_, fun id' t d s h => ?_⟩
  · cases h
  · cases h
  · cases h
    rw [henc]
    exact hseen _ hrow

theorem keeps_encryptLegacyRows (hseal : env.SealOpens) :
    (encryptLegacyRows env).Keeps (groundedContract env) (HasRead env []) := by
  intro seen _
  refine (Prog.wp_bind _ _ _ _).2 ((wp_orRaise _ _ _).2 (Prog.wp_perform_path _ _ _
    (grounded_of_isOrdinary (isOrdinary_of_writesPool rfl)) fun r _ => ?_))
  cases r with
  | error e => exact fun k hk => by cases hk
  | ok rows =>
    refine Prog.wp_mono (fun _ _ _ k hk => by cases hk) _ _
      (Prog.keeps_forEach rows (I := HasRead env
        (rows.map fun row => (row.1, decOrRaw env row.1 row.2.1)))
        (fun row hrow => keeps_encryptLegacyRow hseal (List.mem_map_of_mem hrow)) _ fun k hk => ?_)
    unfold readsOf
    rw [List.flatMap_append]
    refine List.mem_append_right _ ?_
    simpa [readsIn] using hk

theorem keeps_startUp (hseal : env.SealOpens) (p : Proc) (rpc indexer : Bool) (config : Config) :
    (startUp env p rpc indexer config).Keeps (groundedContract env) (HasRead env []) := by
  refine Prog.keeps_bind (keeps_ordinary (work_act (isOrdinary_of_writesPool rfl))) fun _ => ?_
  refine Prog.keeps_bind ?_ fun _ => ?_
  · refine Prog.keeps_bind (keeps_ordinary (uses_orFail _ (work_basic rfl))) fun _ => ?_
    refine Prog.keeps_bind (keeps_ordinary (uses_catchErr (uses_orRaise (work_basic rfl))))
      fun _ => ?_
    exact Prog.keeps_bind (keeps_catchErr (keeps_encryptLegacyRows hseal)) fun _ => Prog.keeps_ret _
  · refine Prog.keeps_bind (keeps_ordinary (clock_refreshChainHealth p).work) fun _ => ?_
    refine Prog.keeps_bind (keeps_ordinary (uses_catchErr ((memory_loadPendingFromDb env p).work
      (fun _ _ _ => isOrdinary_of_writesPool rfl) fun _ _ _ => isOrdinary_of_writesPool rfl)))
      fun _ => ?_
    exact Prog.keeps_bind (keeps_ordinary (uses_catchErr (work_requeueRetriableFailures env p
      fun _ _ => isOrdinary_update rfl))) fun _ => Prog.keeps_ret _

theorem allows_isOrdinary {a : Activity} (ha : a.opensDatabase = false) :
    a.Allows env Act.IsOrdinary where
  update _ hu _ := isOrdinary_update hu
  mark _ _ _ _ _ := isOrdinary_update rfl
  encrypt h := by
    rw [ha] at h
    cases h
  insert newTx _ row hnew := by
    refine ⟨fun row' h => ?_, fun u h => ?_⟩
    · cases h
      obtain ⟨-, id, now, encTxHex, encDest, encSource, rfl⟩ := hnew
      rfl
    · cases h
  delete _ := isOrdinary_of_no_write (by simp) (by simp)
  archive _ _ _ := isOrdinary_of_no_write (by simp) (by simp)
  storePending _ _ _ _ := isOrdinary_of_writesPool rfl
  mergePending _ _ _ _ := isOrdinary_of_writesPool rfl
  indexerBroadcast _ _ := isOrdinary_of_writesPool rfl
  rpcBroadcast _ _ := isOrdinary_of_writesPool rfl
  clearSafeMode := isOrdinary_of_writesPool rfl
  startProcess _ _ _ _ _ := isOrdinary_of_writesPool rfl

/-- Every piece of work, on each of its paths. -/
theorem grounded_activity (hseal : env.SealOpens) (a : Activity) :
    (a.prog env).OnPaths anyAnswer (Grounded env) [] := by
  refine Prog.Keeps.onPaths (I := HasRead env []) ?_ (fun k hk => by cases hk)
  by_cases hopen : a.opensDatabase = true
  · cases a with
    | restart rpc indexer config => exact keeps_startUp hseal .daemon rpc indexer config
    | command rpc indexer config c =>
      exact Prog.keeps_bind (keeps_startUp hseal .cli rpc indexer config) fun _ =>
        keeps_ordinary (work_command (allows_isOrdinary (a := .acknowledge) rfl) config.network c
          (fun newTx _ => (allows_isOrdinary (a := .ingest "" "") rfl).insert newTx trivial)
          (fun _ _ _ _ _ => isOrdinary_update rfl) (fun _ _ => isOrdinary_of_writesPool rfl)
          fun _ _ => isOrdinary_of_writesPool rfl)
    | _ => cases hopen
  · by_cases hloop : a = .broadcastLoop
    · subst hloop
      exact keeps_broadcastLoopPass .daemon
    · by_cases hnow : ∃ id, a = .broadcastNow id
      · obtain ⟨id, rfl⟩ := hnow
        exact Prog.keeps_bind (keeps_ordinary (work_broadcastNow env .daemon
          (isOrdinary_of_writesPool rfl) (fun _ => isOrdinary_of_writesPool rfl)
          (fun _ => isOrdinary_of_writesPool rfl) (fun _ => isOrdinary_of_writesPool rfl)
          fun _ _ _ _ => isOrdinary_update rfl)) fun _ => Prog.keeps_ret _
      · exact keeps_ordinary (work_activity a (allows_isOrdinary (by simpa using hopen)) hloop
          fun id h => hnow ⟨id, h⟩)

/-! ### One step on the table -/

/-- What a run has shown so far: the ids of the rows at its start and of the inserted rows, and
the hex texts that were read. -/
structure Record where
  ids : List String
  reads : List (String × String)

/-- The id that an `INSERT` brings. -/
def insertedId (e : Performed Act Act.Res World) : Option String :=
  match e.act with
  | .insert row => some row.id
  | _ => none

/-- The record after a step. -/
def Record.after (env : Env) (g : Record) (e : Performed Act Act.Res World) : Record where
  ids := g.ids ++ (insertedId e).toList
  reads := g.reads ++ readsIn env ⟨e.act, (World.exec env e.act e.state).1⟩

/-- The rows with an id that was read hold the text that was read. -/
structure KnownHold (env : Env) (g : Record) (w : World) : Prop where
  ids : ∀ r ∈ w.pool, r.id ∈ g.ids
  same : ∀ r ∈ w.pool, ∀ r' ∈ w.pool, r.id = r'.id → r.hex env = r'.hex env
  readIds : ∀ k ∈ g.reads, k.1 ∈ g.ids
  hold : ∀ k ∈ g.reads, ∀ r ∈ w.pool, r.id = k.1 → r.hex env = k.2

/-- Nothing has been read before the start. -/
theorem knownHold_start {w : World} (hkey : (w.pool.map (·.id)).Nodup) :
    KnownHold env ⟨w.pool.map (·.id), []⟩ w where
  ids _ hr := List.mem_map_of_mem hr
  same r hr r' hr' hid := by rw [List.inj_on_of_nodup_map hkey hr hr' hid]
  readIds k hk := by cases hk
  hold k hk := by cases hk

namespace Update

theorem set_hex {u : Update} (hu : ∀ id t d s, u ≠ .encryptFields id t d s) (r : Row) :
    (u.set env r).hex env = r.hex env := by
  cases u
  case encryptFields id t d s => exact absurd rfl (hu id t d s)
  all_goals rfl

/-- Only one statement stores `failed`. -/
theorem set_failed {u : Update} {r : Row} (h : (u.set env r).status = "failed") :
    r.status = "failed" ∨ ∃ id error now, u = .txStatus id .failed error now := by
  cases u
  case txStatus id status error now =>
    cases status
    case failed => exact Or.inr ⟨id, error, now, rfl⟩
    all_goals simp [set, TxStatus.asStr] at h
  case broadcastMiss | rebroadcastAt | encryptFields => exact Or.inl h
  all_goals simp [set] at h

/-- Only `mark_broadcast` stores a txid. -/
theorem set_txid (u : Update) (r : Row) :
    (u.set env r).txid = r.txid ∨ ∃ id txid fee now, u = .broadcast id txid fee now ∧
      (u.set env r).txid = some txid := by
  cases u
  case broadcast id txid fee now => exact Or.inr ⟨id, txid, fee, now, rfl, rfl⟩
  all_goals exact Or.inl rfl

/-- No statement writes the locktime. -/
theorem set_nlocktime (u : Update) (r : Row) : (u.set env r).nlocktime = r.nlocktime := by
  cases u <;> rfl

end Update

/-- The row `r'` is what a step has left of `r`. -/
structure Row.LeftAs (env : Env) (a : Act) (r r' : Row) : Prop where
  id : r'.id = r.id
  hex : r'.hex env = r.hex env
  failed : r'.status = "failed" → r.status = "failed" ∨
    ∃ error now, a = .update (.txStatus r.id .failed error now)
  txid : r'.txid = r.txid ∨
    ∃ txid fee now, a = .update (.broadcast r.id txid fee now) ∧ r'.txid = some txid
  nlocktime : r'.nlocktime = r.nlocktime

/-- A row after a step is what the step has left of a row, or has come in as pending. -/
theorem exec_leftAs {g : Record} {w : World} {seen : List (Seen Act Act.Res)} {a : Act}
    (h : KnownHold env g w) (hgrounded : Grounded env seen a)
    (hreads : ∀ k ∈ readsOf env seen, k ∈ g.reads) {r' : Row}
    (hr' : r' ∈ (World.exec env a w).2.pool) :
    (∃ r ∈ w.pool, r.LeftAs env a r') ∨ a = .insert r' ∧ r'.status = "pending" := by
  -- Three kinds of steps: an `INSERT`, which brings one row, an `UPDATE`, and the rest, which leave
  -- of a row what `Row.Serviced` says.
  by_cases hinsert : ∃ row, a = .insert row
  · obtain ⟨row, rfl⟩ := hinsert
    rcases exec_insert env w row with ⟨e, hexec⟩ | ⟨pool, hins, hexec⟩
    · rw [hexec] at hr'
      exact Or.inl ⟨r', hr', rfl, rfl, Or.inl, Or.inl rfl, rfl⟩
    · rw [hexec] at hr'
      unfold insertRow at hins
      split at hins
      · cases hins
      · cases hins
        rcases List.mem_append.1 hr' with hr' | hr'
        · exact Or.inl ⟨r', hr', rfl, rfl, Or.inl, Or.inl rfl, rfl⟩
        · cases List.mem_singleton.1 hr'
          exact Or.inr ⟨rfl, hgrounded.insert _ rfl⟩
  · refine Or.inl ?_
    by_cases hupdate : ∃ u, a = .update u
    · obtain ⟨u, rfl⟩ := hupdate
      rcases exec_update env w u with ⟨e, hexec⟩ | hexec
      · rw [hexec] at hr'
        exact ⟨r', hr', rfl, rfl, Or.inl, Or.inl rfl, rfl⟩
      · rw [hexec] at hr'
        obtain ⟨r, hr, rfl⟩ := List.mem_map.1 hr'
        refine ⟨r, hr, Update.onRow_id u r, ?_, ?_, ?_, ?_⟩
        all_goals
          unfold Update.onRow
          split
        · rename_i hmatch
          by_cases hencrypt : ∃ id t d s, u = .encryptFields id t d s
          · -- The sealed text reads back as the text that was read under this id.
            obtain ⟨id, t, d, s, rfl⟩ := hencrypt
            obtain rfl : r.id = id := hmatch.1
            exact (h.hold _ (hreads _ (hgrounded.encrypt _ t d s rfl)) r hr rfl).symm
          · exact Update.set_hex (fun id t d s hu => hencrypt ⟨id, t, d, s, hu⟩) r
        · rfl
        · rename_i hmatch
          intro hfailed
          rcases Update.set_failed hfailed with hfailed | ⟨id, error, now, rfl⟩
          · exact Or.inl hfailed
          · obtain rfl : r.id = id := hmatch.1
            exact Or.inr ⟨error, now, rfl⟩
        · exact Or.inl
        · rename_i hmatch
          rcases Update.set_txid u r with hsame | ⟨id, txid, fee, now, rfl, hset⟩
          · exact Or.inl hsame
          · obtain rfl : r.id = id := hmatch.1
            exact Or.inr ⟨txid, fee, now, rfl, hset⟩
        · exact Or.inl rfl
        · exact Update.set_nlocktime u r
        · rfl
    · obtain ⟨r, hr, hserviced⟩ := exec_serviced env (fun row ha => hinsert ⟨row, ha⟩)
        (fun u ha => hupdate ⟨u, ha⟩) w r' hr'
      rw [hserviced.eq]
      exact ⟨r, hr, rfl, rfl, Or.inl, Or.inl rfl, rfl⟩

/-- The texts that a step shows are those of rows in the table. -/
theorem readsIn_exec {a : Act} {w : World} {k : String × String}
    (hk : k ∈ readsIn env ⟨a, (World.exec env a w).1⟩) :
    a.writesPool = false ∧ ∃ r ∈ w.pool, r.id = k.1 ∧ r.hex env = k.2 := by
  cases a
  case select q =>
    refine ⟨rfl, ?_⟩
    rcases exec_select env w q with ⟨e, hexec⟩ | ⟨txs, hmap, hexec⟩
    · rw [hexec] at hk
      cases hk
    · rw [hexec] at hk
      obtain ⟨tx, htx, rfl⟩ := List.mem_map.1 hk
      obtain ⟨r, hr, hreads⟩ := mem_of_mapM_eq_ok hmap tx htx
      have hspec := mapBroadcastRow_spec hreads
      exact ⟨r, (mem_selectRows hr).1, hspec.id.symm, hspec.txHex.symm⟩
  case selectLegacy =>
    refine ⟨rfl, ?_⟩
    rcases exec_selectLegacy env w with ⟨e, hexec⟩ | hexec
    · rw [hexec] at hk
      cases hk
    · rw [hexec] at hk
      obtain ⟨row, hrow, rfl⟩ := List.mem_map.1 hk
      obtain ⟨r, hr, rfl⟩ := List.mem_map.1 hrow
      exact ⟨r, (List.mem_filter.1 hr).1, rfl, rfl⟩
  all_goals cases hk

/-- An inserted row is the only one with its id. -/
theorem not_mem_of_fresh {g : Record} {w : World} {r : Row} (h : KnownHold env g w)
    (hfresh : r.id ∉ g.ids) : ∀ r' ∈ w.pool, r'.id ≠ r.id :=
  fun r' hr' hid => hfresh (hid ▸ h.ids r' hr')

/-- One step keeps the texts known, if it brings no id for the second time. -/
theorem knownHold_step {g : Record} {e : Performed Act Act.Res World}
    (h : KnownHold env g e.state) (hgrounded : Grounded env e.seen e.act)
    (hreads : ∀ k ∈ readsOf env e.seen, k ∈ g.reads)
    (hfresh : ∀ id ∈ insertedId e, id ∉ g.ids) :
    KnownHold env (g.after env e) (World.exec env e.act e.state).2 := by
  obtain ⟨w, seen, a⟩ := e
  have hnew : ∀ row, a = .insert row → row.id ∉ g.ids := by
    rintro row rfl
    exact hfresh row.id rfl
  have hleft : ∀ r' ∈ (World.exec env a w).2.pool,
      (∃ r ∈ w.pool, r.LeftAs env a r') ∨ a = .insert r' ∧ r'.status = "pending" :=
    fun r' hr' => exec_leftAs h hgrounded hreads hr'
  -- The ids of the rows, equal texts under equal ids, the ids that were read, and the texts that
  -- were read. A row that has just come in has a new id, so it meets none of the old ones.
  refine ⟨fun r' hr' => ?_, fun r₁' hr₁' r₂' hr₂' hid => ?_, fun k hk => ?_,
    fun k hk r' hr' hid => ?_⟩
  · rcases hleft r' hr' with ⟨r, hr, hleft⟩ | ⟨rfl, -⟩
    · exact List.mem_append_left _ (hleft.id ▸ h.ids r hr)
    · exact List.mem_append_right _ (List.mem_singleton_self _)
  · rcases hleft r₁' hr₁' with ⟨r₁, hr₁, hleft₁⟩ | ⟨ha₁, -⟩ <;>
      rcases hleft r₂' hr₂' with ⟨r₂, hr₂, hleft₂⟩ | ⟨ha₂, -⟩
    · rw [hleft₁.hex, hleft₂.hex]
      exact h.same r₁ hr₁ r₂ hr₂ (hleft₁.id.symm.trans (hid.trans hleft₂.id))
    · exact absurd (hleft₁.id.symm.trans hid) (not_mem_of_fresh h (hnew r₂' ha₂) r₁ hr₁)
    · exact absurd (hleft₂.id.symm.trans hid.symm) (not_mem_of_fresh h (hnew r₁' ha₁) r₂ hr₂)
    · rw [ha₁] at ha₂
      cases ha₂
      rfl
  · rcases List.mem_append.1 hk with hk | hk
    · exact List.mem_append_left _ (h.readIds k hk)
    · obtain ⟨-, r, hr, hid, -⟩ := readsIn_exec hk
      exact List.mem_append_left _ (hid ▸ h.ids r hr)
  · rcases List.mem_append.1 hk with hk | hk
    · rcases hleft r' hr' with ⟨r, hr, hleft⟩ | ⟨ha, -⟩
      · rw [hleft.hex]
        exact h.hold k hk r hr (hleft.id.symm.trans hid)
      · exact absurd (hid ▸ h.readIds k hk) (hnew r' ha)
    · obtain ⟨hsame, r, hr, hrid, hhex⟩ := readsIn_exec hk
      have hpool : (World.exec env a w).2.pool = w.pool := exec_pool hsame
      rw [← hhex]
      exact h.same r' (hpool ▸ hr') r hr (hid.trans hrid.symm)

end

end BroadcastPool
