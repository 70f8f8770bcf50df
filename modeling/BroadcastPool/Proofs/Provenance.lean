import BroadcastPool.Proofs.Accepted
import BroadcastPool.Proofs.Releases

/-!
# `BroadcastPool.Proofs.Provenance`: where transactions come from and what became of them

The two ends of a transaction's way through the pool, over whole runs. A transaction that is
handed over is the text of a row that was there at the start, or was inserted before, under its
id; and the work that hands it over has its grounds (`handed_over_held`). A row that is stored as
broadcast or confirmed was so at the start, or a backend has taken its own text (`emitted_taken`).

`Origins` is what a run has shown by then, and `Traced` the invariant that ties it to the table.
The work reads a row in one step and acts on it in a later one, and other work runs in between. So
the invariant also says that what was read stays true of the id (`KnownHold`).
-/

set_option autoImplicit false

namespace BroadcastPool

open Effects

/-- The id of a row and the text that it reads back as. -/
def Row.key (env : Env) (r : Row) : String × String := (r.id, r.hex env)

/-- The row is stored as handed over. -/
def Row.Emitted (r : Row) : Prop := r.status = "broadcast" ∨ r.status = "confirmed"

instance (r : Row) : Decidable r.Emitted := inferInstanceAs (Decidable (_ ∨ _))

/-- What a step has put into the table. -/
def insertedKey (env : Env) (e : Performed Act Act.Res World) : Option (String × String) :=
  match e.act with
  | .insert row =>
      match (World.exec env (.insert row) e.state).1 with
      | .ok _ => some (row.key env)
      | .error _ => none
  | _ => none

/-- What a backend has taken, by an answer. -/
def takenBy : Seen Act Act.Res → Option (String × String)
  | ⟨.indexerBroadcast tx, .ok _⟩ | ⟨.rpcBroadcast tx, .ok _⟩ => some (tx.id, tx.txHex)
  | _ => none

/-- What a backend takes in a step. -/
def takenKey (env : Env) (e : Performed Act Act.Res World) : Option (String × String) :=
  takenBy ⟨e.act, (World.exec env e.act e.state).1⟩

/-- The rows that an answer shows as broadcast. -/
def broadcastIn : Seen Act Act.Res → List (String × String)
  | ⟨.select (.list status _ _), .ok txs⟩ =>
      if status = some "broadcast" then txs.map fun tx => (tx.id, tx.txHex) else []
  | _ => []

/-- What a run has shown: what was read, what was in the table, and what is known to be taken. -/
structure Origins where
  record : Record
  held : List (String × String)
  taken : List (String × String)

def Origins.after (env : Env) (g : Origins) (e : Performed Act Act.Res World) : Origins where
  record := g.record.after env e
  held := g.held ++ (insertedKey env e).toList
  taken := g.taken ++ (takenKey env e).toList

/-- The start of a run. -/
def Origins.initial (env : Env) (w : World) : Origins where
  record := ⟨w.pool.map (·.id), []⟩
  held := w.pool.map (·.key env)
  taken := (w.pool.filter fun r => r.Emitted).map (·.key env)

/-- What was shown agrees with the table. -/
structure Traced (env : Env) (g : Origins) (w : World) : Prop where
  known : KnownHold env g.record w
  held : ∀ r ∈ w.pool, r.key env ∈ g.held
  read : ∀ k ∈ g.record.reads, k ∈ g.held
  emitted : ∀ r ∈ w.pool, r.Emitted → r.key env ∈ g.taken

/-- An answer is recorded. -/
structure Origins.Records (env : Env) (g : Origins) (s : Seen Act Act.Res) : Prop where
  reads : ∀ k ∈ readsIn env s, k ∈ g.record.reads
  taken : ∀ k ∈ takenBy s, k ∈ g.taken
  broadcast : ∀ k ∈ broadcastIn s, k ∈ g.taken

section
variable {env : Env}

/-- A list that every step extends. -/
theorem foldl_collect {G E A : Type} (step : G → E → G) (part : G → List A) (new : E → Option A)
    (h : ∀ g e, part (step g e) = part g ++ (new e).toList) (es : List E) (g : G) :
    part (es.foldl step g) = part g ++ es.filterMap new := by
  induction es generalizing g with
  | nil => simp
  | cons e es ih =>
    rw [List.foldl_cons, ih, h]
    cases hnew : new e <;> simp [hnew]

theorem foldl_after_held (es : List (Performed Act Act.Res World)) (g : Origins) :
    (es.foldl (Origins.after env) g).held = g.held ++ es.filterMap (insertedKey env) :=
  foldl_collect _ _ _ (fun _ _ => rfl) es g

theorem foldl_after_taken (es : List (Performed Act Act.Res World)) (g : Origins) :
    (es.foldl (Origins.after env) g).taken = g.taken ++ es.filterMap (takenKey env) :=
  foldl_collect _ _ _ (fun _ _ => rfl) es g

/-! ### One step -/

theorem insertedId_of_insertedKey {e : Performed Act Act.Res World} {k : String × String}
    (h : insertedKey env e = some k) : insertedId e = some k.1 := by
  obtain ⟨w, seen, a⟩ := e
  cases a
  case insert row =>
    unfold insertedKey at h
    dsimp only at h
    split at h
    · cases h
      rfl
    · cases h
  all_goals cases h

theorem Update.set_emitted {u : Update} {r : Row} (h : (u.set env r).Emitted)
    (hfailed : ∀ id status error now, u = .txStatus id status error now → status = .failed) :
    r.Emitted ∨ (∃ id txid fee now, u = .broadcast id txid fee now) ∨
      ∃ id height now, u = .confirmed id height now := by
  cases u
  case broadcast id txid fee now => exact Or.inr (Or.inl ⟨id, txid, fee, now, rfl⟩)
  case confirmed id height now => exact Or.inr (Or.inr ⟨id, height, now, rfl⟩)
  case txStatus id status error now =>
    obtain rfl := hfailed id status error now rfl
    simp [set, Row.Emitted, TxStatus.asStr] at h
  case broadcastMiss | rebroadcastAt | encryptFields => exact Or.inl h
  all_goals simp [set, Row.Emitted] at h

/-- A row that is stored as handed over was so before, or is marked by this step, or comes in. -/
theorem exec_emitted {R : List (Seen Act Act.Res) → BroadcastTx → Prop} {w : World}
    {seen : List (Seen Act Act.Res)} {a : Act} (hearned : Earned R seen a) {r' : Row}
    (hr' : r' ∈ (World.exec env a w).2.pool) (hemitted : r'.Emitted) :
    (∃ r ∈ w.pool, r.id = r'.id ∧ (r.Emitted ∨
      (∃ txid fee now, a = .update (.broadcast r.id txid fee now)) ∨
        ∃ height now, a = .update (.confirmed r.id height now))) ∨ a = .insert r' := by
  -- An `INSERT` brings a row, an `UPDATE` may set the status, the rest does not.
  by_cases hinsert : ∃ row, a = .insert row
  · obtain ⟨row, rfl⟩ := hinsert
    rcases exec_insert env w row with ⟨e, hexec⟩ | ⟨pool, hins, hexec⟩
    · rw [hexec] at hr'
      exact Or.inl ⟨r', hr', rfl, Or.inl hemitted⟩
    · rw [hexec] at hr'
      unfold insertRow at hins
      split at hins
      · cases hins
      · cases hins
        rcases List.mem_append.1 hr' with hr' | hr'
        · exact Or.inl ⟨r', hr', rfl, Or.inl hemitted⟩
        · cases List.mem_singleton.1 hr'
          exact Or.inr rfl
  · refine Or.inl ?_
    by_cases hupdate : ∃ u, a = .update u
    · obtain ⟨u, rfl⟩ := hupdate
      rcases exec_update env w u with ⟨e, hexec⟩ | hexec
      · rw [hexec] at hr'
        exact ⟨r', hr', rfl, Or.inl hemitted⟩
      · rw [hexec] at hr'
        obtain ⟨r, hr, rfl⟩ := List.mem_map.1 hr'
        refine ⟨r, hr, (Update.onRow_id u r).symm, ?_⟩
        unfold Update.onRow at hemitted
        split at hemitted
        · rename_i hmatch
          rcases Update.set_emitted hemitted (fun id status error now h =>
            hearned.failed id status error now (congrArg Act.update h)) with
            h | ⟨id, txid, fee, now, rfl⟩ | ⟨id, height, now, rfl⟩
          · exact Or.inl h
          · obtain rfl : r.id = id := hmatch.1
            exact Or.inr (Or.inl ⟨txid, fee, now, rfl⟩)
          · obtain rfl : r.id = id := hmatch.1
            exact Or.inr (Or.inr ⟨height, now, rfl⟩)
        · exact Or.inl hemitted
    · obtain ⟨r, hr, hserviced⟩ := exec_serviced env (fun row ha => hinsert ⟨row, ha⟩)
        (fun u ha => hupdate ⟨u, ha⟩) w r' hr'
      rw [hserviced.eq] at hemitted ⊢
      exact ⟨r, hr, rfl, Or.inl hemitted⟩

/-- A row of the table after a step was there before under its key, or has been inserted. -/
theorem exec_key {g : Record} {e : Performed Act Act.Res World} (h : KnownHold env g e.state)
    (hgrounded : Grounded env e.seen e.act) (hreads : ∀ k ∈ readsOf env e.seen, k ∈ g.reads)
    {r' : Row} (hr' : r' ∈ (World.exec env e.act e.state).2.pool) :
    (∃ r ∈ e.state.pool, r.key env = r'.key env) ∨ insertedKey env e = some (r'.key env) := by
  rcases exec_leftAs h hgrounded hreads hr' with ⟨r, hr, hleft⟩ | ⟨ha, -⟩
  · exact Or.inl ⟨r, hr, by rw [Row.key, Row.key, hleft.id, hleft.hex]⟩
  · obtain ⟨w, seen, a⟩ := e
    subst ha
    rcases exec_insert env w r' with ⟨error, hexec⟩ | ⟨pool, -, hexec⟩
    · rw [hexec] at hr'
      exact Or.inl ⟨r', hr', rfl⟩
    · refine Or.inr ?_
      show (match (World.exec env (.insert r') w).1 with
        | .ok _ => some (r'.key env)
        | .error _ => none) = _
      rw [hexec]

theorem broadcastIn_list (status : Option String) (network : String) (limit : Int)
    (txs : List BroadcastTx) :
    broadcastIn ⟨.select (.list status network limit), .ok txs⟩ =
      if status = some "broadcast" then txs.map fun tx => (tx.id, tx.txHex) else [] := rfl

/-- The rows that a query shows as broadcast are so. -/
theorem broadcastIn_exec {a : Act} {w : World} {k : String × String}
    (hk : k ∈ broadcastIn ⟨a, (World.exec env a w).1⟩) :
    ∃ r ∈ w.pool, r.Emitted ∧ r.key env = k := by
  cases a
  case select q =>
    cases q
    case list status network limit =>
      rcases exec_select env w (.list status network limit) with ⟨e, hexec⟩ | ⟨txs, hmap, hexec⟩
      · rw [hexec] at hk
        cases hk
      · rw [hexec, broadcastIn_list] at hk
        split at hk
        · rename_i hstatus
          subst hstatus
          obtain ⟨tx, htx, rfl⟩ := List.mem_map.1 hk
          obtain ⟨r, hr, hreads⟩ := mem_of_mapM_eq_ok hmap tx htx
          have hspec := mapBroadcastRow_spec hreads
          obtain ⟨hmem, hselects⟩ := mem_selectRows hr
          rw [Query.selects, Bool.and_eq_true] at hselects
          refine ⟨r, hmem, Or.inl (of_decide_eq_true hselects.2), ?_⟩
          rw [Row.key, hspec.id, hspec.txHex]
          rfl
        · cases hk
    all_goals cases hk
  all_goals cases hk

theorem Shown.broadcast {seen : List (Seen Act Act.Res)} {network : String} {limit : Int}
    {tx : BroadcastTx} (h : Shown seen (.list (some "broadcast") network limit) tx) :
    ∃ s ∈ seen, (tx.id, tx.txHex) ∈ broadcastIn s := by
  obtain ⟨txs, hmem, htx⟩ := h
  refine ⟨_, hmem, ?_⟩
  rw [broadcastIn_list, if_pos rfl]
  exact List.mem_map_of_mem htx

theorem Taken.taken {seen : List (Seen Act Act.Res)} {tx : BroadcastTx} {txid : String}
    (h : Taken seen tx txid) : ∃ s ∈ seen, takenBy s = some (tx.id, tx.txHex) := by
  rcases h with h | h
  · exact ⟨_, h, rfl⟩
  · exact ⟨_, h, rfl⟩

/-- One step keeps the record in agreement with the table, and its answer is recorded. -/
theorem traced_step {R : List (Seen Act Act.Res) → BroadcastTx → Prop} {g : Origins}
    {e : Performed Act Act.Res World} (h : Traced env g e.state)
    (hgrounded : Grounded env e.seen e.act) (hearned : Earned R e.seen e.act)
    (hrecords : ∀ s ∈ e.seen, g.Records env s) (hfresh : ∀ id ∈ insertedId e, id ∉ g.record.ids) :
    Traced env (g.after env e) (World.exec env e.act e.state).2 ∧
      (g.after env e).Records env ⟨e.act, (World.exec env e.act e.state).1⟩ := by
  have hreads : ∀ k ∈ readsOf env e.seen, k ∈ g.record.reads := by
    intro k hk
    obtain ⟨s, hs, hk⟩ := List.mem_flatMap.1 hk
    exact (hrecords s hs).reads k hk
  have hkey : ∀ r' ∈ (World.exec env e.act e.state).2.pool,
      (∃ r ∈ e.state.pool, r.key env = r'.key env) ∨ insertedKey env e = some (r'.key env) :=
    fun r' hr' => exec_key h.known hgrounded hreads hr'
  refine ⟨⟨knownHold_step h.known hgrounded hreads hfresh, fun r' hr' => ?_, fun k hk => ?_,
    fun r' hr' hemitted => ?_⟩, ⟨fun k hk => ?_, fun k hk => ?_, fun k hk => ?_⟩⟩
  · rcases hkey r' hr' with ⟨r, hr, hsame⟩ | hnew
    · exact List.mem_append_left _ (hsame ▸ h.held r hr)
    · exact List.mem_append_right _ (Option.mem_toList.2 hnew)
  · rcases List.mem_append.1 hk with hk | hk
    · exact List.mem_append_left _ (h.read k hk)
    · obtain ⟨-, r, hr, hid, hhex⟩ := readsIn_exec hk
      have hheld := h.held r hr
      rw [Row.key, hid, hhex] at hheld
      exact List.mem_append_left _ hheld
  · refine List.mem_append_left _ ?_
    rcases exec_emitted hearned hr' hemitted with ⟨r, hr, hid, hwas⟩ | ha
    · have hsame : r.key env = r'.key env := by
        rcases hkey r' hr' with ⟨r₀, hr₀, hsame⟩ | hnew
        · rw [← hsame]
          have hids : r.id = r₀.id := hid.trans (congrArg Prod.fst hsame).symm
          rw [Row.key, Row.key, hids, h.known.same r hr r₀ hr₀ hids]
        · have hknown : r'.id ∈ g.record.ids := hid ▸ h.known.ids r hr
          exact absurd hknown (hfresh _ (insertedId_of_insertedKey hnew))
      rw [← hsame]
      rcases hwas with hwas | ⟨txid, fee, now, ha⟩ | ⟨height, now, ha⟩
      · exact h.emitted r hr hwas
      · -- What the backend has taken is the text that was read under this id.
        obtain ⟨q, tx, hshown, htx, htaken⟩ := hearned.mark _ _ _ _ ha
        obtain ⟨s, hs, htakes⟩ := htaken.taken
        have hhold := h.known.hold _ (hreads _ hshown.read) r hr htx.symm
        have hmem := (hrecords s hs).taken _ htakes
        rw [Row.key, hhold, ← htx]
        exact hmem
      · obtain ⟨tx, htx, ⟨network, limit, hshown⟩, -⟩ := hearned.confirm _ _ _ ha
        obtain ⟨s, hs, hbroadcast⟩ := hshown.broadcast
        have hhold := h.known.hold _ (hreads _ hshown.read) r hr htx.symm
        rw [Row.key, hhold, ← htx]
        exact (hrecords s hs).broadcast _ hbroadcast
    · have hpending := hgrounded.insert _ ha
      rcases hemitted with hstatus | hstatus
      all_goals
        rw [hpending] at hstatus
        exact absurd hstatus (by decide)
  · exact List.mem_append_right _ hk
  · exact List.mem_append_right _ (Option.mem_toList.2 hk)
  · obtain ⟨r, hr, hemitted, rfl⟩ := broadcastIn_exec hk
    exact List.mem_append_left _ (h.emitted r hr hemitted)

theorem traced_initial {w : World} (hkey : (w.pool.map (·.id)).Nodup) :
    Traced env (Origins.initial env w) w where
  known := knownHold_start hkey
  held _ hr := List.mem_map_of_mem hr
  read k hk := by cases hk
  emitted r hr hemitted :=
    List.mem_map_of_mem (List.mem_filter.2 ⟨hr, decide_eq_true hemitted⟩)

/-! ### A run -/

/-- A piece of work of the schedule has its grounds to hand the transaction over. -/
def ReleasedBy (env : Env) (chs : List (Choice Act Act.Res Failure))
    (seen : List (Seen Act Act.Res)) (tx : BroadcastTx) : Prop :=
  ∃ a : Activity, Choice.start (a.prog env) ∈ chs ∧ a.Releases seen tx

theorem earned_of_schedule {w : World} {chs : List (Choice Act Act.Res Failure)}
    (hschedule : IsWorkSchedule env chs) :
    ∀ e ∈ Config.performed (World.exec env) ⟨w, []⟩ chs,
      Earned (ReleasedBy env chs) e.seen e.act := by
  refine Config.performed_of_paths (readsById_exec env) _ _ (fun t ht => by cases ht) fun p hp => ?_
  obtain ⟨a, rfl⟩ := hschedule p hp
  exact (earned_activity a).mono fun seen act h =>
    { h with release := fun tx ha => ⟨a, hp, h.release tx ha⟩ }

theorem grounded_of_schedule (hseal : env.SealOpens) {w : World}
    {chs : List (Choice Act Act.Res Failure)} (hschedule : IsWorkSchedule env chs) :
    ∀ e ∈ Config.performed (World.exec env) ⟨w, []⟩ chs, Grounded env e.seen e.act := by
  refine Config.performed_of_paths (anyAnswer_exec env) _ _ (fun t ht => by cases ht) fun p hp => ?_
  obtain ⟨a, rfl⟩ := hschedule p hp
  exact grounded_activity hseal a

theorem Origins.Records.mono {g : Origins} {s : Seen Act Act.Res} (h : g.Records env s)
    (e : Performed Act Act.Res World) : (g.after env e).Records env s where
  reads k hk := List.mem_append_left _ (h.reads k hk)
  taken k hk := List.mem_append_left _ (h.taken k hk)
  broadcast k hk := List.mem_append_left _ (h.broadcast k hk)

end

/-- In every interleaving of single statements, with any crash or error of the database, a
transaction that is handed over is the text of a row that was in the table at the start or has been
inserted before, under the id of this row, and a piece of work has its grounds to do so. -/
theorem handed_over_held (env : Env) (hseal : env.SealOpens) (w : World)
    (chs : List (Choice Act Act.Res Failure)) (hschedule : IsWorkSchedule env chs)
    (hids : DistinctIds w (Config.performed (World.exec env) ⟨w, []⟩ chs))
    {before after : List (Performed Act Act.Res World)} {e : Performed Act Act.Res World}
    (hsplit : Config.performed (World.exec env) ⟨w, []⟩ chs = before ++ e :: after)
    {tx : BroadcastTx} (hsends : e.act.handsOver = some tx) :
    (tx.id, tx.txHex) ∈ w.pool.map (·.key env) ++ before.filterMap (insertedKey env) ∧
      ReleasedBy env chs e.seen tx := by
  have hearned := earned_of_schedule (w := w) hschedule
  have hgrounded := grounded_of_schedule hseal (w := w) hschedule
  have hstart : Traced env (Origins.initial env w) w :=
    traced_initial (List.nodup_append.1 hids).1
  have hfresh := (along_of_nodup insertedId hids).comap (g := Origins.initial env w)
    (fun g => g.record.ids) (Origins.after env) fun _ _ => rfl
  obtain ⟨htraced, hrecords, -⟩ := Config.performed_recorded (Origins.after env)
    (I := Traced env) (J := Origins.Records env) (fun g e s hs => hs.mono e) chs ⟨w, []⟩ _
    ⟨hstart, fun t ht => by cases ht⟩ hfresh (fun e he g hg hrecords hnew =>
      traced_step hg (hgrounded e he) (hearned e he) hrecords hnew) hsplit
  have he : e ∈ Config.performed (World.exec env) ⟨w, []⟩ chs := by
    rw [hsplit]
    exact List.mem_append_right _ (List.mem_cons_self ..)
  have hreleased := (hearned e he).release tx hsends
  refine ⟨?_, hreleased⟩
  obtain ⟨a, -, hreleases⟩ := hreleased
  obtain ⟨q, hshown⟩ := hreleases.shown
  have hread : (tx.id, tx.txHex) ∈ readsOf env e.seen := hshown.read
  obtain ⟨s, hs, hk⟩ := List.mem_flatMap.1 hread
  have hheld := htraced.read _ ((hrecords s hs).reads _ hk)
  rw [foldl_after_held] at hheld
  exact hheld

/-- The steps of a tick that hands the sample row over. -/
def tickPerformed : List (Performed Act Act.Res World) :=
  Config.performed (World.exec sampleEnv) ⟨servedWorld dueRow, []⟩ tickSchedule

theorem handed_over_held_tickSchedule :
    ∃ e ∈ tickPerformed, ∃ tx, e.act.handsOver = some tx ∧
      (tx.id, tx.txHex) ∈ (servedWorld dueRow).pool.map (·.key sampleEnv) ++
        (tickPerformed.take 15).filterMap (insertedKey sampleEnv) ∧
      ReleasedBy sampleEnv tickSchedule e.seen tx := by
  have hindex : 15 < tickPerformed.length := by decide
  have hsplit : tickPerformed =
      tickPerformed.take 15 ++ tickPerformed[15] :: tickPerformed.drop 16 := by
    rw [← List.drop_eq_getElem_cons hindex, List.take_append_drop]
  obtain ⟨tx, hsends⟩ : ∃ tx, tickPerformed[15].act.handsOver = some tx :=
    Option.isSome_iff_exists.1 (by decide)
  exact ⟨_, List.getElem_mem hindex, tx, hsends, handed_over_held sampleEnv (fun _ _ _ => rfl)
    (servedWorld dueRow) tickSchedule isWorkSchedule_tickSchedule (by decide) hsplit hsends⟩

/-- In every such run, a row that is stored as broadcast or confirmed in the end was so at the
start, or a backend has taken its own text under its id. -/
theorem emitted_taken (env : Env) (hseal : env.SealOpens) (w : World)
    (chs : List (Choice Act Act.Res Failure)) (hschedule : IsWorkSchedule env chs)
    (hids : DistinctIds w (Config.performed (World.exec env) ⟨w, []⟩ chs)) :
    ∀ r ∈ (Config.exec (World.exec env) ⟨w, []⟩ chs).state.pool, r.Emitted →
      r.key env ∈ (w.pool.filter fun r => r.Emitted).map (·.key env) ++
        (Config.performed (World.exec env) ⟨w, []⟩ chs).filterMap (takenKey env) := by
  have hearned := earned_of_schedule (w := w) hschedule
  have hgrounded := grounded_of_schedule hseal (w := w) hschedule
  have hstart : Traced env (Origins.initial env w) w :=
    traced_initial (List.nodup_append.1 hids).1
  have hfresh := (along_of_nodup insertedId hids).comap (g := Origins.initial env w)
    (fun g => g.record.ids) (Origins.after env) fun _ _ => rfl
  have hend := Config.exec_recorded (Origins.after env)
    (I := Traced env) (J := Origins.Records env) (fun g e s hs => hs.mono e) chs ⟨w, []⟩ _
    ⟨hstart, fun t ht => by cases ht⟩ hfresh fun e he g hg hrecords hnew =>
      traced_step hg (hgrounded e he) (hearned e he) hrecords hnew
  intro r hr hemitted
  have htaken := hend.state.emitted r hr hemitted
  rw [foldl_after_taken] at htaken
  exact htaken

theorem emitted_taken_tickSchedule :
    (∃ r ∈ (Config.exec (World.exec sampleEnv) ⟨servedWorld dueRow, []⟩ tickSchedule).state.pool,
      r.Emitted) ∧
    ∀ r ∈ (Config.exec (World.exec sampleEnv) ⟨servedWorld dueRow, []⟩ tickSchedule).state.pool,
      r.Emitted → r.key sampleEnv ∈
        ((servedWorld dueRow).pool.filter fun r => r.Emitted).map (·.key sampleEnv) ++
          tickPerformed.filterMap (takenKey sampleEnv) :=
  ⟨by decide, emitted_taken sampleEnv (fun _ _ _ => rfl) (servedWorld dueRow) tickSchedule
    isWorkSchedule_tickSchedule (by decide)⟩

end BroadcastPool
