import BroadcastPool.Proofs.Archived
import BroadcastPool.Proofs.Provenance

/-!
# `BroadcastPool.Proofs.Balance`: every transaction is accounted for

What has come into the table and what has left it make up what is there, over whole runs. A
transaction is counted by the id of its row and the text that the row reads as, so the balance says
that neither was changed, that none was lost, and that none is there twice.

`departedKeys` is about the table alone: the rows that are there before a step and whose ids are
not there after it. `departs_of_schedule` says which steps these can be. The `DELETE` is that of a
removal that a user asked for, for this id, or that of a retention pass or of a manual flush, which
stores a blob in the archive in the same step.
-/

set_option autoImplicit false

namespace BroadcastPool

open Effects

/-- What a step has taken out of the table. -/
def departedKeys (env : Env) (e : Performed Act Act.Res World) : List (String × String) :=
  (e.state.pool.filter fun r => ¬ r.id ∈ (World.exec env e.act e.state).2.pool.map (·.id)).map
    (·.key env)

/-- The id that a user's request removes. -/
def Activity.removes : Activity → Option String
  | remove id => some id
  | command _ _ _ (.remove id) => some id
  | _ => none

/-- The id of a `DELETE` without a blob. -/
def Act.deletes : Act → Option String
  | delete id => some id
  | _ => none

/-- Why a row with the id leaves the table in a step. -/
def DepartsBy (env : Env) (chs : List (Choice Act Act.Res Failure))
    (e : Performed Act Act.Res World) (id : String) : Prop :=
  (∃ a : Activity, Choice.start (a.prog env) ∈ chs ∧ a.removes = some id ∧ e.act = .delete id) ∨
    ∃ a : Activity, Choice.start (a.prog env) ∈ chs ∧ a.archives = true ∧
      ∃ entry, archived env e = some (id, entry)

/-- What a run has shown: the texts that were read, what has come in and what has left. -/
structure Balance where
  record : Record
  held : List (String × String)
  departed : List (String × String)

def Balance.after (env : Env) (g : Balance) (e : Performed Act Act.Res World) : Balance where
  record := g.record.after env e
  held := g.held ++ (insertedKey env e).toList
  departed := g.departed ++ departedKeys env e

/-- The table has what has come in and has not left. -/
structure Balanced (env : Env) (g : Balance) (w : World) : Prop where
  known : KnownHold env g.record w
  unique : w.UniqueIds
  balance : g.held.Perm (w.pool.map (·.key env) ++ g.departed)

section
variable {env : Env}

theorem foldl_after_balanceHeld (es : List (Performed Act Act.Res World)) (g : Balance) :
    (es.foldl (Balance.after env) g).held = g.held ++ es.filterMap (insertedKey env) :=
  foldl_collect _ _ _ (fun _ _ => rfl) es g

theorem foldl_after_departed (es : List (Performed Act Act.Res World)) (g : Balance) :
    (es.foldl (Balance.after env) g).departed = g.departed ++ es.flatMap (departedKeys env) := by
  induction es generalizing g with
  | nil => simp
  | cons e es ih =>
    rw [List.foldl_cons, ih, List.flatMap_cons, ← List.append_assoc]
    rfl

/-! ### One step -/

theorem mem_departedKeys {e : Performed Act Act.Res World} {k : String × String} :
    k ∈ departedKeys env e ↔ ∃ r ∈ e.state.pool,
      (∀ r' ∈ (World.exec env e.act e.state).2.pool, r'.id ≠ r.id) ∧ r.key env = k := by
  unfold departedKeys
  simp only [List.mem_map, List.mem_filter, decide_eq_true_eq, not_exists, not_and, and_assoc]

/-- An insertion that succeeds puts its row into the table. -/
theorem mem_of_insertedKey {e : Performed Act Act.Res World} {k : String × String}
    (h : insertedKey env e = some k) :
    ∃ r ∈ (World.exec env e.act e.state).2.pool, r.key env = k := by
  obtain ⟨w, seen, a⟩ := e
  cases a
  case insert row =>
    unfold insertedKey at h
    dsimp only at h ⊢
    rcases exec_insert env w row with ⟨error, hexec⟩ | ⟨pool, hins, hexec⟩
    · rw [hexec] at h
      cases h
    · rw [hexec] at h ⊢
      cases h
      unfold insertRow at hins
      split at hins
      · cases hins
      · cases hins
        exact ⟨row, List.mem_append_right _ (List.mem_singleton_self _), rfl⟩
  all_goals cases h

theorem nodup_keys {rows : List Row} (h : (rows.map (·.id)).Nodup) :
    (rows.map (·.key env)).Nodup := by
  refine List.Nodup.of_map Prod.fst ?_
  rw [List.map_map]
  exact h

/-- What a step brings and what it takes make up the difference that it makes. -/
theorem balance_step {g : Record} {e : Performed Act Act.Res World} (h : KnownHold env g e.state)
    (hunique : e.state.UniqueIds) (hgrounded : Grounded env e.seen e.act)
    (hreads : ∀ k ∈ readsOf env e.seen, k ∈ g.reads) (hfresh : ∀ id ∈ insertedId e, id ∉ g.ids) :
    (e.state.pool.map (·.key env) ++ (insertedKey env e).toList).Perm
      ((World.exec env e.act e.state).2.pool.map (·.key env) ++ departedKeys env e) := by
  have hnew : ∀ k, insertedKey env e = some k → ∀ r ∈ e.state.pool, r.id ≠ k.1 :=
    fun k hk r hr hid => hfresh _ (insertedId_of_insertedKey hk) (hid ▸ h.ids r hr)
  -- Both sides list each row once, so it is enough that they have the same members.
  have hleft : (e.state.pool.map (·.key env) ++ (insertedKey env e).toList).Nodup := by
    refine List.nodup_append.2 ⟨nodup_keys hunique, ?_, fun k hk k' hk' heq => ?_⟩
    · cases insertedKey env e with
      | none => exact List.nodup_nil
      | some k => exact List.nodup_singleton k
    · obtain ⟨r, hr, rfl⟩ := List.mem_map.1 hk
      exact hnew k' (Option.mem_toList.1 hk') r hr (congrArg Prod.fst heq)
  have hright : ((World.exec env e.act e.state).2.pool.map (·.key env) ++
      departedKeys env e).Nodup := by
    refine List.nodup_append.2 ⟨nodup_keys (exec_uniqueIds env hunique e.act), ?_, ?_⟩
    · exact (nodup_keys hunique).sublist (List.Sublist.map _ List.filter_sublist)
    · intro k hk k' hk' heq
      obtain ⟨r', hr', rfl⟩ := List.mem_map.1 hk
      obtain ⟨r, -, hgone, rfl⟩ := mem_departedKeys.1 hk'
      exact hgone r' hr' (congrArg Prod.fst heq)
  refine (List.perm_ext_iff_of_nodup hleft hright).2 fun k => ?_
  simp only [List.mem_append, List.mem_map, Option.mem_toList]
  constructor
  · rintro (⟨r, hr, rfl⟩ | hk)
    · by_cases hstays : ∃ r' ∈ (World.exec env e.act e.state).2.pool, r'.id = r.id
      · -- The row with this id reads as before.
        obtain ⟨r', hr', hid⟩ := hstays
        refine Or.inl ⟨r', hr', ?_⟩
        rcases exec_key h hgrounded hreads hr' with ⟨r₀, hr₀, hkey⟩ | hk
        · have hids : r₀.id = r.id := (congrArg Prod.fst hkey).trans hid
          rw [← hkey, Row.key, Row.key, hids, h.same r₀ hr₀ r hr hids]
        · exact absurd hid.symm (hnew _ hk r hr)
      · exact Or.inr (mem_departedKeys.2
          ⟨r, hr, fun r' hr' hid => hstays ⟨r', hr', hid⟩, rfl⟩)
    · exact Or.inl (mem_of_insertedKey hk)
  · rintro (⟨r', hr', rfl⟩ | hk)
    · exact exec_key h hgrounded hreads hr'
    · obtain ⟨r, hr, -, rfl⟩ := mem_departedKeys.1 hk
      exact Or.inl ⟨r, hr, rfl⟩

/-- One step keeps the balance, and its answer is recorded. -/
theorem balanced_step {g : Balance} {e : Performed Act Act.Res World} (h : Balanced env g e.state)
    (hgrounded : Grounded env e.seen e.act)
    (hrecords : ∀ s ∈ e.seen, ∀ k ∈ readsIn env s, k ∈ g.record.reads)
    (hfresh : ∀ id ∈ insertedId e, id ∉ g.record.ids) :
    Balanced env (g.after env e) (World.exec env e.act e.state).2 := by
  have hreads : ∀ k ∈ readsOf env e.seen, k ∈ g.record.reads := by
    intro k hk
    obtain ⟨s, hs, hk⟩ := List.mem_flatMap.1 hk
    exact hrecords s hs k hk
  have hstep := balance_step h.known h.unique hgrounded hreads hfresh
  refine ⟨knownHold_step h.known hgrounded hreads hfresh, exec_uniqueIds env h.unique e.act, ?_⟩
  show (g.held ++ (insertedKey env e).toList).Perm
    ((World.exec env e.act e.state).2.pool.map (·.key env) ++ (g.departed ++ departedKeys env e))
  calc
    List.Perm (g.held ++ (insertedKey env e).toList)
        (e.state.pool.map (·.key env) ++ g.departed ++ (insertedKey env e).toList) :=
      h.balance.append_right _
    List.Perm _ (e.state.pool.map (·.key env) ++ (insertedKey env e).toList ++ g.departed) := by
      rw [List.append_assoc, List.append_assoc]
      exact List.perm_append_comm.append_left _
    List.Perm _ ((World.exec env e.act e.state).2.pool.map (·.key env) ++ departedKeys env e ++
        g.departed) := hstep.append_right _
    List.Perm _ _ := by
      rw [List.append_assoc]
      exact List.perm_append_comm.append_left _

/-! ### Which steps take a row out -/

/-- A step that neither deletes nor archives leaves a row with each id. -/
theorem exec_stays {a : Act} (hdeletes : a.deletes = none) (harchives : a.archives = false)
    (w : World) {r : Row} (hr : r ∈ w.pool) :
    ∃ r' ∈ (World.exec env a w).2.pool, r'.id = r.id := by
  -- The statements that rewrite rows map the table by a function that keeps the ids.
  have hmap : ∀ f : Row → Row, (∀ r, (f r).id = r.id) → ∃ r' ∈ w.pool.map f, r'.id = r.id :=
    fun f hf => ⟨f r, List.mem_map_of_mem hr, hf r⟩
  by_cases hw : a.writesPool = false
  · exact ⟨r, (exec_pool hw).symm ▸ hr, rfl⟩
  · cases a <;> first | exact absurd rfl hw | skip
    -- A refused insert changes nothing, an accepted one puts its row after the others.
    case insert row =>
      rcases exec_insert env w row with ⟨error, hexec⟩ | ⟨pool, hins, hexec⟩
      · rw [hexec]
        exact ⟨r, hr, rfl⟩
      · rw [hexec]
        unfold insertRow at hins
        split at hins
        · cases hins
        · cases hins
          exact ⟨r, List.mem_append_left _ hr, rfl⟩
    case update u =>
      rcases exec_update env w u with ⟨error, hexec⟩ | hexec
      · rw [hexec]
        exact ⟨r, hr, rfl⟩
      · rw [hexec]
        exact hmap _ fun r => Update.onRow_id u r
    case reseal id =>
      rcases exec_reseal env w id with ⟨-, error, hexec⟩ | hexec
      · rw [hexec]
        exact ⟨r, hr, rfl⟩
      · rw [hexec]
        cases hreseal : resealRow env id w.pool with
        | error error => exact ⟨r, hr, rfl⟩
        | ok rows =>
          unfold resealRow at hreseal
          split at hreseal
          · cases hreseal
          · split at hreseal
            · cases hreseal
            · cases hreseal
              refine hmap _ fun r => ?_
              split
              · rw [Row.Serviced.eq (Or.inr (Or.inr (Or.inr rfl)))]
              · rfl
    case migrate =>
      rcases exec_migrate env w with ⟨error, hexec⟩ | hexec
      · rw [hexec]
        exact ⟨r, hr, rfl⟩
      · rw [hexec]
        simp only [World.ticked_pool]
        split
        · exact ⟨r, hr, rfl⟩
        · refine hmap _ fun r => ?_
          have hserviced : r.Serviced env (migration007 r) := Or.inr (Or.inl rfl)
          rw [hserviced.eq]
    case backfill =>
      obtain ⟨r', hr', h | h⟩ := exec_backfill_mem env w r hr
      · exact ⟨r', hr', congrArg Row.id h⟩
      · refine ⟨r', hr', ?_⟩
        rw [h, Row.Serviced.eq (Or.inr (Or.inr (Or.inl rfl)))]
    -- The two steps that take rows out are excluded.
    case delete id => cases hdeletes
    case archiveRow id entry => cases harchives

/-- A row leaves by a `DELETE` of its own id. -/
theorem departs_cases {e : Performed Act Act.Res World} {k : String × String}
    (hk : k ∈ departedKeys env e) :
    e.act = .delete k.1 ∨ ∃ entry, archived env e = some (k.1, entry) := by
  obtain ⟨r, hr, hgone, rfl⟩ := mem_departedKeys.1 hk
  by_cases hdeletes : e.act.deletes = none
  · by_cases harchives : e.act.archives = false
    · have hstays : ∃ r' ∈ (World.exec env e.act e.state).2.pool, r'.id = r.id :=
        exec_stays hdeletes harchives e.state hr
      obtain ⟨r', hr', hid⟩ := hstays
      exact absurd hid (hgone r' hr')
    · obtain ⟨w, seen, a⟩ := e
      cases a
      case archiveRow id entry =>
        unfold archived
        dsimp only at hr hgone ⊢
        rcases exec_archive env w id entry with ⟨error, hexec⟩ | hexec
        · rw [hexec] at hgone
          exact absurd rfl (hgone r hr)
        · rw [hexec] at hgone ⊢
          by_cases hid : r.id = id
          · exact Or.inr ⟨entry, by rw [← hid]; rfl⟩
          · exact absurd rfl (hgone r (List.mem_filter.2 ⟨hr, decide_eq_true hid⟩))
      all_goals exact absurd rfl harchives
  · obtain ⟨w, seen, a⟩ := e
    cases a
    case delete id =>
      dsimp only at hr hgone ⊢
      rcases exec_delete env w id with ⟨error, hexec⟩ | hexec
      · rw [hexec] at hgone
        exact absurd rfl (hgone r hr)
      · rw [hexec] at hgone
        by_cases hid : r.id = id
        · exact Or.inl (by rw [← hid]; rfl)
        · exact absurd rfl (hgone r (List.mem_filter.2 ⟨hr, decide_eq_true hid⟩))
    all_goals exact absurd rfl hdeletes

/-- The `DELETE` is one that a user asked for. -/
def DeletesOnly (a : Activity) (act : Act) : Prop :=
  ∀ id, act.deletes = some id → a.removes = some id

theorem deletesOnly_of_none {a : Activity} {act : Act} (h : act.deletes = none) :
    DeletesOnly a act := by
  intro id hid
  rw [h] at hid
  cases hid

/-- Only a removal deletes a row, and only the row that it was asked to remove. -/
theorem deletesOnly_activity (a : Activity) : IsWork (DeletesOnly a) (a.prog env) := by
  have hno : ∀ {act : Act}, act.deletes = none → DeletesOnly a act := deletesOnly_of_none
  -- A `DELETE` stands in `remove_transaction` alone, so every other piece of work has none to show.
  cases a with
  | broadcastLoop =>
    exact work_broadcastLoopPass env .daemon (hno rfl) (fun _ => hno rfl) (fun _ => hno rfl)
      (fun _ => hno rfl) fun _ => hno rfl
  | blockHeightMonitor => exact work_blockHeightMonitorPass env .daemon fun _ _ => hno rfl
  | priceMonitor prices => exact work_checkPriceTriggers env .daemon fun _ _ => hno rfl
  | rebroadcastLoop =>
    refine Prog.uses_bind (work_basic rfl) fun health => ?_
    split
    · exact work_rebroadcastPending env .daemon (fun _ => hno rfl) (fun _ => hno rfl)
        fun _ _ => hno rfl
    · exact Prog.uses_ret _
  | confirmationChecker =>
    refine Prog.uses_bind (work_basic rfl) fun health => ?_
    split
    · exact work_checkConfirmations env .daemon fun _ _ _ => hno rfl
    · exact Prog.uses_ret _
  | retention key => exact work_retentionPass env .daemon key fun _ _ => hno rfl
  | chainHealthPoll => exact (clock_refreshChainHealth .daemon).work
  | importTx newTx =>
    exact Prog.uses_bind (work_importTransaction env newTx fun _ _ => hno rfl)
      fun _ => Prog.uses_ret _
  | scheduleAt id time fee =>
    exact Prog.uses_bind (work_scheduleAt env .daemon fun _ _ _ _ => hno rfl)
      fun _ => Prog.uses_ret _
  | scheduleByPrice id target currency condition fee =>
    exact Prog.uses_bind (work_scheduleByPrice env .daemon fun _ _ _ => hno rfl)
      fun _ => Prog.uses_ret _
  | scheduleTransaction id minDelay maxDelay minFee maxFee fixedFee =>
    exact Prog.uses_bind (work_scheduleTransaction env .daemon fun _ _ _ => hno rfl)
      fun _ => Prog.uses_ret _
  | retry id =>
    exact Prog.uses_bind (work_retryFailedTransaction env .daemon fun _ => hno rfl)
      fun _ => Prog.uses_ret _
  | broadcastNow id =>
    exact Prog.uses_bind (work_broadcastNow env .daemon (hno rfl) (fun _ => hno rfl)
      (fun _ => hno rfl) (fun _ => hno rfl) fun _ _ _ _ => hno rfl) fun _ => Prog.uses_ret _
  | remove id => exact work_removeTransaction env .daemon fun _ h => h
  | acknowledge => exact work_act (hno rfl)
  | archiveFlush key => exact work_archiveFlush env .daemon key fun _ _ => hno rfl
  | saveConfig request => exact work_saveConfig .daemon request
  | preAck txHex => exact work_preAckStore env .daemon txHex fun _ _ => hno rfl
  | ingest txHex source =>
    exact work_ingestTask env .daemon (fun _ _ _ => hno rfl) (fun _ _ => hno rfl)
      (fun _ _ _ => hno rfl) fun _ _ => hno rfl
  | restart rpc indexer config =>
    exact work_startUp env .daemon (hno rfl) (fun _ _ _ _ => hno rfl) (fun _ _ _ => hno rfl)
      (fun _ _ _ => hno rfl) fun _ _ => hno rfl
  | command rpc indexer config c =>
    refine Prog.uses_bind (work_startUp env .cli (hno rfl) (fun _ _ _ _ => hno rfl)
      (fun _ _ _ => hno rfl) (fun _ _ _ => hno rfl) fun _ _ => hno rfl) fun _ => ?_
    cases c with
    | importTxs txs =>
      refine Prog.uses_forEach txs fun newTx _ => ?_
      refine Prog.uses_bind (work_importTransaction env newTx fun _ _ => hno rfl) fun tx => ?_
      split
      · exact Prog.uses_bind (work_scheduleTransaction env .cli fun _ _ _ => hno rfl)
          fun _ => Prog.uses_ret _
      · exact Prog.uses_ret _
    | broadcast id =>
      exact Prog.uses_bind (work_broadcastSingle env (fun _ => hno rfl) (fun _ => hno rfl)
        fun _ _ _ => hno rfl) fun _ => Prog.uses_ret _
    | broadcastAll =>
      exact work_broadcastAllPending env config.network (fun _ => hno rfl) (fun _ => hno rfl)
        fun _ _ _ _ => hno rfl
    | schedule id minDelay maxDelay minFee maxFee =>
      exact Prog.uses_bind (work_scheduleTransaction env .cli fun _ _ _ => hno rfl)
        fun _ => Prog.uses_ret _
    | scheduleAll => exact work_scheduleAllPending env .cli fun _ _ _ _ => hno rfl
    | remove id => exact work_removeTransaction env .cli fun _ h => h
    | display => exact Prog.uses_ret _

/-- The action takes rows out only as the work may. -/
structure DepartsFor (a : Activity) (act : Act) : Prop where
  deletes : DeletesOnly a act
  archives : act.archives = true → a.archives = true

theorem departsFor_activity (a : Activity) : (a.prog env).Uses (DepartsFor a) := by
  have hbasic : ∀ act : Act, act.isBasic = true → act.deletes = none ∧ act.archives = false := by
    intro act h
    cases act <;> first | exact ⟨rfl, rfl⟩ | cases h
  have hdeletes : IsWork (DeletesOnly a) (a.prog env) := deletesOnly_activity a
  by_cases hpass : a.archives = true
  · refine hdeletes.mono fun act h => ⟨?_, fun _ => hpass⟩
    rcases h with h | h
    · exact deletesOnly_of_none (hbasic act h).1
    · exact h
  · have harchives : IsWork (fun act => act.archives = false) (a.prog env) :=
      work_of_not_archives (by simpa using hpass)
    refine (hdeletes.and harchives).mono fun act ⟨h, h'⟩ => ⟨?_, fun harchive => ?_⟩
    · rcases h with h | h
      · exact deletesOnly_of_none (hbasic act h).1
      · exact h
    · rcases h' with h' | h'
      · rw [(hbasic act h').2] at harchive
        cases harchive
      · rw [h'] at harchive
        cases harchive

/-- Every row that leaves is one that a user has removed, or that a pass archives. -/
theorem departs_of_schedule {w : World} {chs : List (Choice Act Act.Res Failure)}
    (hschedule : IsWorkSchedule env chs) :
    ∀ e ∈ Config.performed (World.exec env) ⟨w, []⟩ chs, ∀ k ∈ departedKeys env e,
      DepartsBy env chs e k.1 := by
  have huses : ∀ e ∈ Config.performed (World.exec env) ⟨w, []⟩ chs,
      ∃ a : Activity, Choice.start (a.prog env) ∈ chs ∧ DepartsFor a e.act := by
    refine Config.performed_of_uses
      (U := fun act => ∃ a : Activity, Choice.start (a.prog env) ∈ chs ∧ DepartsFor a act)
      chs w fun p hp => ?_
    obtain ⟨a, rfl⟩ := hschedule p hp
    exact (departsFor_activity a).mono fun act h => ⟨a, hp, h⟩
  intro e he k hk
  obtain ⟨a, hstarted, hdeparts⟩ := huses e he
  rcases departs_cases hk with hact | ⟨entry, harchived⟩
  · exact Or.inl ⟨a, hstarted, hdeparts.deletes _ (by rw [hact]; rfl), hact⟩
  · obtain ⟨hact, -⟩ := exec_of_archived harchived
    have harchives : a.archives = true := hdeparts.archives (by rw [hact]; rfl)
    exact Or.inr ⟨a, hstarted, harchives, entry, harchived⟩

end

/-- In every interleaving of single statements, with any crash or error of the database, the
transactions of the table at the start and those that were inserted are, each once and with its own
text, those of the table in the end and those that have left it. Each of these was removed by a
user's request for its id, or a retention pass or a manual flush has archived it in the step that
deleted it. -/
theorem transactions_balanced (env : Env) (hseal : env.SealOpens) (w : World)
    (chs : List (Choice Act Act.Res Failure)) (hschedule : IsWorkSchedule env chs)
    (hids : DistinctIds w (Config.performed (World.exec env) ⟨w, []⟩ chs)) :
    (w.pool.map (·.key env) ++
        (Config.performed (World.exec env) ⟨w, []⟩ chs).filterMap (insertedKey env)).Perm
      ((Config.exec (World.exec env) ⟨w, []⟩ chs).state.pool.map (·.key env) ++
        (Config.performed (World.exec env) ⟨w, []⟩ chs).flatMap (departedKeys env)) ∧
    ∀ e ∈ Config.performed (World.exec env) ⟨w, []⟩ chs, ∀ k ∈ departedKeys env e,
      DepartsBy env chs e k.1 := by
  refine ⟨?_, departs_of_schedule hschedule⟩
  have hgrounded := grounded_of_schedule hseal (w := w) hschedule
  have hunique := (List.nodup_append.1 hids).1
  have hfresh := (along_of_nodup insertedId hids).comap
    (g := (⟨⟨w.pool.map (·.id), []⟩, w.pool.map (·.key env), []⟩ : Balance))
    (fun g => g.record.ids) (Balance.after env) fun _ _ => rfl
  have hend := Config.exec_recorded (Balance.after env) (I := Balanced env)
    (J := fun g s => ∀ k ∈ readsIn env s, k ∈ g.record.reads)
    (fun g e s hs k hk => List.mem_append_left _ (hs k hk)) chs ⟨w, []⟩ _
    ⟨⟨knownHold_start hunique, hunique, by rw [List.append_nil]⟩, fun t ht => by cases ht⟩ hfresh
    fun e he g hg hrecords hnew =>
      ⟨balanced_step hg (hgrounded e he) hrecords hnew, fun k hk => List.mem_append_right _ hk⟩
  have hbalance := hend.state.balance
  rw [foldl_after_balanceHeld, foldl_after_departed, List.nil_append] at hbalance
  exact hbalance

/-- A removal of the sample row, and an import that runs between its two statements. -/
def removalSchedule : List (Choice Act Act.Res Failure) :=
  .start ((Activity.remove "id0").prog sampleEnv) :: .step 0 ::
    .start ((Activity.importTx sampleImport).prog sampleEnv) :: List.replicate 6 (.step 1) ++
      List.replicate 3 (.step 0)

theorem isWorkSchedule_removalSchedule : IsWorkSchedule sampleEnv removalSchedule := by
  intro p hp
  simp only [removalSchedule, List.cons_append, List.mem_cons, List.mem_append,
    List.mem_replicate] at hp
  rcases hp with hp | hp | hp | ⟨-, hp⟩ | ⟨-, hp⟩
  all_goals cases hp
  · exact ⟨.remove "id0", rfl⟩
  · exact ⟨.importTx sampleImport, rfl⟩

theorem transactions_balanced_removalSchedule :
    (∃ e ∈ Config.performed (World.exec sampleEnv) ⟨servedWorld sampleRow, []⟩ removalSchedule,
      departedKeys sampleEnv e ≠ []) ∧
    (Config.performed (World.exec sampleEnv) ⟨servedWorld sampleRow, []⟩ removalSchedule).filterMap
      (insertedKey sampleEnv) ≠ [] ∧
    ((servedWorld sampleRow).pool.map (·.key sampleEnv) ++
        (Config.performed (World.exec sampleEnv) ⟨servedWorld sampleRow, []⟩
          removalSchedule).filterMap (insertedKey sampleEnv)).Perm
      ((Config.exec (World.exec sampleEnv) ⟨servedWorld sampleRow, []⟩
          removalSchedule).state.pool.map (·.key sampleEnv) ++
        (Config.performed (World.exec sampleEnv) ⟨servedWorld sampleRow, []⟩
          removalSchedule).flatMap (departedKeys sampleEnv)) ∧
    ∀ e ∈ Config.performed (World.exec sampleEnv) ⟨servedWorld sampleRow, []⟩ removalSchedule,
      ∀ k ∈ departedKeys sampleEnv e, DepartsBy sampleEnv removalSchedule e k.1 :=
  ⟨by decide, by decide, transactions_balanced sampleEnv (fun _ _ _ => rfl) (servedWorld sampleRow)
    removalSchedule isWorkSchedule_removalSchedule (by decide)⟩

end BroadcastPool
