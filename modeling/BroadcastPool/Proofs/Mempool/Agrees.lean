import BroadcastPool.Proofs.Mempool.Obligations
import BroadcastPool.Proofs.Mempool.Restart
import BroadcastPool.Proofs.SafeMode

/-!
# `BroadcastPool.Proofs.Mempool.Agrees`: the virtual mempool and the waiting rows

The keys of the virtual mempool are meant to be the txids of the waiting rows. `KeepsAgreement`
says of one step, from the state before it, that it takes no turn that separates the two:
a row comes to wait under a key only, and a waiting row is given up by a program that takes the
key out as well, or while another row waits with its txid.

`differs_is_owed` follows a life whose steps all meet it: whatever differs is owed by a program
between its two writes. `mempool_agrees` follows the daemon over its lives: a start rebuilds the
keys from the table, and whenever no program owes anything, the two agree.
-/

set_option autoImplicit false

namespace BroadcastPool

open Effects

/-- The virtual mempool and the table disagree about the txid. -/
def Differs (env : Env) (network : String) (w : World) (t : String) : Prop :=
  ¬ (Holds w t ↔ IsWaiting env network w t)

/-- A waiting row can be given up: its txid is no key, another row waits with it, or the program
owes the removal of the key. -/
def MayLeave (env : Env) (network : String) (w : World) (seen : List (Seen Act Act.Res))
    (row : Row) (t : String) : Prop :=
  ¬ Holds w t ∨ (∃ row' ∈ w.pool, row'.id ≠ row.id ∧ row'.WaitsAs env network t) ∨
    Owes env network seen t

/-- The condition on one step, with the answer `r` that it gets. `seen` are the answers that its
program has had before. -/
structure KeepsAgreement (env : Env) (network : String) (w : World)
    (seen : List (Seen Act Act.Res)) (a : Act) (r : a.Res) : Prop where
  /-- A program between its two writes is served. -/
  served : (ledgerOf env network seen).owed ≠ [] → isServed network ⟨a, r⟩ = true
  /-- A stored txid waits, or belongs to a wallet's broadcast that inserts its row next. -/
  stored : ∀ txid ∈ a.stored?,
    IsWaiting env network w txid ∨ Owes env network (seen ++ [⟨a, r⟩]) txid
  /-- The lock can be taken for a removal, and no row waits with the txid. -/
  removed : ∀ txid ∈ a.removed?,
    env.pendingPoisoned w.tick = false ∧ ¬ IsWaiting env network w txid
  /-- The txid of an inserted row is a key. -/
  inserted : ∀ row ∈ a.inserted?, ∀ t ∈ row.hexTxid env, row.WaitsAs env network t → Holds w t
  /-- The txid of a row that an `UPDATE` makes wait is a key, or waits before. -/
  gained : ∀ u ∈ a.update?, ∀ row ∈ w.pool, row.id = u.target → u.guard row = true →
    ∀ t ∈ (u.set env row).hexTxid env, (u.set env row).WaitsAs env network t →
      Holds w t ∨ IsWaiting env network w t
  /-- A row goes on waiting through an `UPDATE`, or can be given up. -/
  kept : ∀ u ∈ a.update?, ∀ row ∈ w.pool, row.id = u.target → u.guard row = true →
    ∀ t ∈ row.hexTxid env, row.WaitsAs env network t →
      (u.set env row).WaitsAs env network t ∨
        MayLeave env network w (seen ++ [⟨a, r⟩]) row t
  /-- A waiting row that is taken out of the table can be given up. -/
  taken : ∀ id ∈ a.taken?, ∀ row ∈ w.pool, row.id = id →
    ∀ t ∈ row.hexTxid env, row.WaitsAs env network t →
      MayLeave env network w (seen ++ [⟨a, r⟩]) row t

instance (env : Env) (network : String) (seen : List (Seen Act Act.Res)) (t : String) :
    Decidable (Owes env network seen t) :=
  inferInstanceAs (Decidable (t ∈ (ledgerOf env network seen).owed))

instance (env : Env) (network : String) (w : World) (seen : List (Seen Act Act.Res)) (row : Row)
    (t : String) : Decidable (MayLeave env network w seen row t) :=
  inferInstanceAs (Decidable (_ ∨ _))

instance (env : Env) (network : String) (w : World) (seen : List (Seen Act Act.Res)) (a : Act)
    (r : a.Res) : Decidable (KeepsAgreement env network w seen a r) :=
  decidable_of_iff (_ ∧ _ ∧ _ ∧ _ ∧ _ ∧ _ ∧ _)
    ⟨fun h => ⟨h.1, h.2.1, h.2.2.1, h.2.2.2.1, h.2.2.2.2.1, h.2.2.2.2.2.1, h.2.2.2.2.2.2⟩,
      fun h => ⟨h.served, h.stored, h.removed, h.inserted, h.gained, h.kept, h.taken⟩⟩

/-- The step of a running program meets the condition. -/
def Agreeable (env : Env) (network : String) (e : Performed Act Act.Res World) : Prop :=
  KeepsAgreement env network e.state e.seen e.act (World.exec env e.act e.state).1

instance (env : Env) (network : String) (e : Performed Act Act.Res World) :
    Decidable (Agreeable env network e) :=
  inferInstanceAs (Decidable (KeepsAgreement ..))

section
variable {env : Env} {network t : String} {w : World} {seen : List (Seen Act Act.Res)}

/-! ### One step -/

/-- What pays a debt: the row in the table, or the removal of the key. -/
def Act.pays (a : Act) : Bool := a.inserted?.isSome || a.removed?.isSome

theorem pays_of_no_write {a : Act} (hpending : a.writesPending = false)
    (hpool : a.writesPool = false) : a.pays = false := by
  cases a <;> first | rfl | exact hpool | cases hpending

/-- No other action takes a txid off the ledger. -/
theorem owes_append {a : Act} (ha : a.pays = false) (r : a.Res)
    (h : Owes env network seen t) : Owes env network (seen ++ [⟨a, r⟩]) t := by
  unfold Owes at h ⊢
  rw [ledgerOf_append]
  unfold Ledger.note
  split <;> rename_i heq
  all_goals first
    | exact h
    | (obtain ⟨rfl, -⟩ := Sigma.mk.inj heq
       first
         | (cases ha; done)
         | (split
            · exact h
            · first
                | exact List.mem_cons_of_mem _ h
                | exact List.mem_append_right _ h))

/-- An `INSERT` takes only the txid of the new row off. -/
theorem owes_insert {row : Row} {r : Except String Unit}
    (hnot : ¬ (row.WaitsAs env network t ∧ r = .ok ())) (h : Owes env network seen t) :
    Owes env network (seen ++ [⟨.insert row, r⟩]) t := by
  unfold Owes at h ⊢
  rw [ledgerOf_append]
  cases r with
  | error e => exact h
  | ok u =>
    refine List.mem_filter.2 ⟨h, ?_⟩
    simpa using fun hrow => hnot ⟨hrow, rfl⟩

/-- A removal takes only its own txid off. -/
theorem owes_removePending {txid : String} {r : (Act.removePending .daemon txid).Res}
    (hne : t ≠ txid)
    (h : Owes env network seen t) :
    Owes env network (seen ++ [⟨.removePending .daemon txid, r⟩]) t := by
  unfold Owes at h ⊢
  rw [ledgerOf_append]
  exact List.mem_filter.2 ⟨h, by simpa using hne⟩

/-- What differs after the action is owed by its program, or differed before and is not its
concern. -/
def Accounts (env : Env) (network : String) (w : World) (seen : List (Seen Act Act.Res))
    (a : Act) : Prop :=
  ∀ t, Differs env network (World.exec env a w).2 t →
    Owes env network (seen ++ [⟨a, (World.exec env a w).1⟩]) t ∨
      Differs env network w t ∧ ¬ Owes env network seen t

/-- An action that changes neither store for the txid. -/
theorem accounts_of_unchanged {a : Act} {r : a.Res} {w' : World}
    (howes : Owes env network seen t → Owes env network (seen ++ [⟨a, r⟩]) t)
    (hholds : Holds w' t ↔ Holds w t)
    (hwaiting : IsWaiting env network w' t ↔ IsWaiting env network w t)
    (h : Differs env network w' t) :
    Owes env network (seen ++ [⟨a, r⟩]) t ∨
      Differs env network w t ∧ ¬ Owes env network seen t := by
  by_cases hbefore : Owes env network seen t
  · exact Or.inl (howes hbefore)
  · refine Or.inr ⟨fun hagree => h ?_, hbefore⟩
    rw [hholds, hwaiting]
    exact hagree

theorem accounts_insert {row : Row}
    (h : KeepsAgreement env network w seen (.insert row) (World.exec env (.insert row) w).1) :
    Accounts env network w seen (.insert row) := by
  intro t hdiffers
  have hholds : Holds (World.exec env (.insert row) w).2 t ↔ Holds w t :=
    holds_exec_of_not_writes rfl
  by_cases hnew : row.WaitsAs env network t ∧ (World.exec env (.insert row) w).1 = .ok ()
  · -- The txid waits now, and is a key.
    have hkey : Holds w t := h.inserted row rfl t hnew.1.2.2 hnew.1
    exact absurd (iff_of_true (hholds.2 hkey) (isWaiting_insert_self hnew.1 hnew.2)) hdiffers
  · refine accounts_of_unchanged (owes_insert hnew) hholds ⟨fun hafter => ?_,
      isWaiting_insert_of_isWaiting⟩ hdiffers
    rcases exec_insert env w row with ⟨e, hexec⟩ | ⟨pool, hins, hexec⟩
    · rw [hexec] at hafter
      exact hafter
    · rcases isWaiting_insert hafter with hrow | hbefore
      · exact absurd ⟨hrow, congrArg Prod.fst hexec⟩ hnew
      · exact hbefore

theorem accounts_update {u : Update}
    (h : KeepsAgreement env network w seen (.update u) (World.exec env (.update u) w).1) :
    Accounts env network w seen (.update u) := by
  intro t hdiffers
  have hholds : Holds (World.exec env (.update u) w).2 t ↔ Holds w t :=
    holds_exec_of_not_writes rfl
  by_cases hbefore : IsWaiting env network w t
  · rcases isWaiting_update_of_isWaiting (u := u) hbefore with
      hafter | ⟨-, row, hrow, hid, hguard, hwaits, hset, honly⟩
    · exact accounts_of_unchanged (owes_append rfl _) hholds (iff_of_true hafter hbefore) hdiffers
    · -- The last row that waited is given up.
      rcases h.kept u rfl row hrow hid hguard t hwaits.2.2 hwaits with
        hstays | hkey | ⟨row', hrow', hother, hwaits'⟩ | howed
      · exact absurd hstays hset
      · refine accounts_of_unchanged (owes_append rfl _) hholds ?_ hdiffers
        by_contra hchanged
        refine hdiffers (iff_of_false (fun hafter => hkey (hholds.1 hafter)) fun hafter => ?_)
        exact hchanged (iff_of_true hafter hbefore)
      · exact absurd ((honly row' hrow' hwaits').trans hid.symm) hother
      · exact Or.inl howed
  · by_cases hafter : IsWaiting env network (World.exec env (.update u) w).2 t
    · rcases isWaiting_update hafter with hwas | ⟨row, hrow, hid, hguard, hwaits⟩
      · exact absurd hwas hbefore
      · rcases h.gained u rfl row hrow hid hguard t hwaits.2.2 hwaits with hkey | hwas
        · exact absurd (iff_of_true (hholds.2 hkey) hafter) hdiffers
        · exact absurd hwas hbefore
    · exact accounts_of_unchanged (owes_append rfl _) hholds (iff_of_false hafter hbefore) hdiffers

/-- A row is taken out of the table. -/
theorem accounts_take {a : Act} {id : String} (hpending : a.writesPending = false)
    (hpays : a.pays = false) (htaken : a.taken? = some id)
    (hexec : (World.exec env a w).2.pool = w.pool ∨
      (World.exec env a w).2.pool = w.pool.filter (·.id ≠ id))
    (h : KeepsAgreement env network w seen a (World.exec env a w).1) :
    Accounts env network w seen a := by
  intro t hdiffers
  have hholds : Holds (World.exec env a w).2 t ↔ Holds w t := holds_exec_of_not_writes hpending
  rcases hexec with hsame | hfilter
  · exact accounts_of_unchanged (owes_append hpays _) hholds (isWaiting_congr hsame) hdiffers
  · obtain ⟨hback, hgone⟩ : (_ → IsWaiting env network w t) ∧ (_ → _ ∨ _) :=
      isWaiting_filter hfilter
    by_cases hbefore : IsWaiting env network w t
    · rcases hgone hbefore with hafter | ⟨row, hrow, hid, hwaits, honly⟩
      · exact accounts_of_unchanged (owes_append hpays _) hholds (iff_of_true hafter hbefore)
          hdiffers
      · rcases h.taken id htaken row hrow hid t hwaits.2.2 hwaits with
          hkey | ⟨row', hrow', hother, hwaits'⟩ | howed
        · refine accounts_of_unchanged (owes_append hpays _) hholds ?_ hdiffers
          by_contra hchanged
          refine hdiffers (iff_of_false (fun hafter => hkey (hholds.1 hafter)) fun hafter => ?_)
          exact hchanged (iff_of_true hafter hbefore)
        · exact absurd ((honly row' hrow' hwaits').trans hid.symm) hother
        · exact Or.inl howed
    · exact accounts_of_unchanged (owes_append hpays _) hholds
        (iff_of_false (fun hafter => hbefore (hback hafter)) hbefore) hdiffers

theorem accounts_storePending {txid : String} {info : PendingTxInfo}
    (h : KeepsAgreement env network w seen (.storePending .daemon txid info)
      (World.exec env (.storePending .daemon txid info) w).1) :
    Accounts env network w seen (.storePending .daemon txid info) := by
  intro t hdiffers
  have hwaiting : IsWaiting env network
      (World.exec env (.storePending .daemon txid info) w).2 t ↔ IsWaiting env network w t :=
    isWaiting_exec_of_not_writes rfl
  by_cases hkeys : Holds (World.exec env (.storePending .daemon txid info) w).2 t ↔ Holds w t
  · exact accounts_of_unchanged (owes_append rfl _) hkeys hwaiting hdiffers
  · -- The txid is a key now and was none before.
    have hnew : Holds (World.exec env (.storePending .daemon txid info) w).2 t := by
      by_contra hnot
      exact hkeys (iff_of_false hnot fun hbefore => hnot (holds_storePending_of_holds hbefore))
    rcases holds_storePending hnew with rfl | hbefore
    · rcases h.stored t rfl with hbefore | howed
      · exact absurd (iff_of_true hnew (hwaiting.2 hbefore)) hdiffers
      · exact Or.inl howed
    · exact absurd (iff_of_true hnew hbefore) hkeys

theorem accounts_removePending {txid : String}
    (h : KeepsAgreement env network w seen (.removePending .daemon txid)
      (World.exec env (.removePending .daemon txid) w).1) :
    Accounts env network w seen (.removePending .daemon txid) := by
  intro t hdiffers
  obtain ⟨hlock, hnone⟩ := h.removed txid rfl
  have hwaiting : IsWaiting env network
      (World.exec env (.removePending .daemon txid) w).2 t ↔ IsWaiting env network w t :=
    isWaiting_exec_of_not_writes rfl
  have hholds : Holds (World.exec env (.removePending .daemon txid) w).2 t ↔
      t ≠ txid ∧ Holds w t := holds_removePending hlock
  by_cases htxid : t = txid
  · subst htxid
    have hgone : ¬ Holds (World.exec env (.removePending .daemon t) w).2 t := fun hafter =>
      (hholds.1 hafter).1 rfl
    exact absurd (iff_of_false hgone fun hafter => hnone (hwaiting.1 hafter)) hdiffers
  · exact accounts_of_unchanged (owes_removePending htxid)
      (hholds.trans (and_iff_right htxid)) hwaiting hdiffers

/-- Every action that meets the condition accounts for what differs. -/
theorem accounts_exec {a : Act} (hstart : a.startsDaemon = false)
    (h : KeepsAgreement env network w seen a (World.exec env a w).1) :
    Accounts env network w seen a := by
  have hsame : ∀ {t}, a.pays = false →
      (Holds (World.exec env a w).2 t ↔ Holds w t) →
      (IsWaiting env network (World.exec env a w).2 t ↔ IsWaiting env network w t) →
      Differs env network (World.exec env a w).2 t →
      Owes env network (seen ++ [⟨a, (World.exec env a w).1⟩]) t ∨
        Differs env network w t ∧ ¬ Owes env network seen t :=
    fun hpays => accounts_of_unchanged (owes_append hpays _)
  -- By the store that the action writes: neither, the table, or the map. The map of the other
  -- process counts for nothing.
  by_cases hpending : a.writesPending = false
  · by_cases hpool : a.writesPool = false
    · refine fun t => hsame ?_ (holds_exec_of_not_writes hpending)
        (isWaiting_exec_of_not_writes hpool)
      exact pays_of_no_write hpending hpool
    · cases a <;> first | exact absurd rfl hpool | skip
      case insert row => exact accounts_insert h
      case update u => exact accounts_update h
      case delete id =>
        refine accounts_take rfl rfl rfl ?_ h
        rcases exec_delete env w id with ⟨e, hexec⟩ | hexec
        · exact Or.inl (congrArg (·.2.pool) hexec)
        · exact Or.inr (congrArg (·.2.pool) hexec)
      case archiveRow id entry => exact accounts_take rfl rfl rfl (exec_archiveRow env w id entry) h
      case reseal id => exact fun t => hsame rfl (holds_exec_of_not_writes rfl) isWaiting_reseal
      case migrate => exact fun t => hsame rfl (holds_exec_of_not_writes rfl) isWaiting_migrate
      case backfill => exact fun t => hsame rfl (holds_exec_of_not_writes rfl) isWaiting_backfill
  · cases a <;> first | exact absurd rfl hpending | skip
    case startProcess p rpc indexer config =>
      cases p with
      | daemon => cases hstart
      | cli => exact fun t => hsame rfl Iff.rfl Iff.rfl
    case storePending p txid info =>
      cases p with
      | daemon => exact accounts_storePending h
      | cli =>
        refine fun t => hsame rfl ?_ (isWaiting_exec_of_not_writes rfl)
        simp only [World.exec, World.effect]
        split <;> exact Iff.rfl
    case mergePending p txid extra =>
      exact fun t => hsame rfl holds_mergePending (isWaiting_exec_of_not_writes rfl)
    case removePending p txid =>
      cases p with
      | daemon => exact accounts_removePending h
      | cli => exact fun t => hsame rfl holds_removePending_cli (isWaiting_exec_of_not_writes rfl)

/-! ### One life -/

theorem isPart_of_isRestart {a : Activity} (h : a.isRestart = true) : a.isPart = true := by
  cases a <;> first | rfl | exact h

/-- No work of a life starts the daemon. -/
theorem allows_not_startsDaemon {a : Activity} (ha : a.isPart = false) :
    a.Allows env fun act => act.startsDaemon = false where
  update _ _ _ := rfl
  mark _ _ _ _ _ := rfl
  encrypt _ _ _ _ _ := rfl
  insert _ _ _ _ := rfl
  delete _ := rfl
  archive _ _ _ := rfl
  storePending _ _ _ _ := rfl
  mergePending _ _ _ _ := rfl
  indexerBroadcast _ _ := rfl
  rpcBroadcast _ _ := rfl
  clearSafeMode := rfl
  startProcess p rpc indexer config hrestart := by
    cases p with
    | cli => rfl
    | daemon => exact absurd (isPart_of_isRestart (hrestart rfl)) (by simp [ha])

theorem startsDaemon_of_work {a : Act} (h : a.Work fun a => a.startsDaemon = false) :
    a.startsDaemon = false := by
  rcases h with h | h
  · cases a <;> first | rfl | cases h
  · exact h

theorem uses_of_isSchedule {life : Life} (h : life.IsSchedule env) {p : M Unit}
    (hp : Choice.start p ∈ life.schedule) : p.Uses fun a => a.startsDaemon = false := by
  refine Prog.Uses.mono (fun _ => startsDaemon_of_work) ?_
  rcases h p hp with ⟨txHex, source, hprog⟩ | ⟨a, ha, hprog⟩
  · rw [hprog]
    unfold walletBroadcast
    split
    · exact Prog.uses_bind (work_act rfl) fun _ => work_ingestTask env .daemon
        (fun _ _ _ => rfl) (fun _ _ => rfl) (fun _ _ _ => rfl) fun _ _ => rfl
    · exact Prog.uses_ret _
  · rw [hprog]
    exact work_everyActivity a (allows_not_startsDaemon ha) rfl (fun _ => rfl) fun _ => rfl

/-- The daemon starts from the world `w` with the network and an indexer, the start returns, every
action of the start and of the life meets its condition, and a program that is cancelled owes
nothing. -/
structure Life.Meets (env : Env) (network : String) (w : World) (life : Life) : Prop where
  configured : life.config.network = network
  indexer : ∃ url, life.config.indexerUrl = some url
  schedule : life.IsSchedule env
  returns : ((life.start env).run (World.exec env) w).1 = .ok ()
  rebuilds : ∀ e ∈ (life.start env).trace (World.exec env) w, Rebuilds env network e.1 e.2
  agreeable : ∀ e ∈ Config.performed (World.exec env) ⟨life.started env w, []⟩ life.schedule,
    Agreeable env network e
  dropped : ∀ chs i rest, life.schedule = chs ++ .drop i :: rest → ∀ task,
    (Config.exec (World.exec env) ⟨life.started env w, []⟩ chs).tasks[i]? = some task →
      NothingOwed env network task.seen

/-- After the start, the keys are the waiting txids, which the start has not changed. -/
theorem started_starting {life : Life} (h : life.Meets env network w) :
    Starting env network w (IsWaiting env network w) (life.started env w) := by
  obtain ⟨url, hurl⟩ := h.indexer
  exact (Prog.run_trace_of_wp (World.exec env) (life.start env) w
    (wp_startUp h.configured hurl w) h.rebuilds).1 h.returns

/-- In a life, every program settles and whatever differs is owed. -/
theorem settled_life (hseal : env.SealOpens) (hdecode : env.DecodesLockTimes) {life : Life}
    (h : life.Meets env network w) {chs rest : List (Choice Act Act.Res Failure)}
    (hsplit : life.schedule = chs ++ rest) :
    (Config.exec (World.exec env) ⟨life.started env w, []⟩ chs).Settled
      (ledgerAnswers env network) (Owes env network) (Differs env network) fun _ => True := by
  have hmem : ∀ {ch}, ch ∈ chs → ch ∈ life.schedule := fun hch =>
    hsplit ▸ List.mem_append_left _ hch
  refine Config.exec_settled chs _ ⟨fun t ht => ?_, trivial, fun t ht => ?_⟩
    (fun before i after hdrop task htask t ht => ?_) (fun p hp => ?_) fun e he _ => ?_
  · exact absurd ht List.not_mem_nil
  · have hstart := started_starting h
    refine absurd ?_ ht
    rw [hstart.holds, hstart.waiting]
  · have hnothing := h.dropped before i (after ++ rest) (by rw [hsplit, hdrop]; simp) task htask
    unfold Owes at ht
    rw [hnothing] at ht
    cases ht
  · rcases h.schedule p (hmem hp) with ⟨txHex, source, hprog⟩ | ⟨a, ha, hprog⟩
    · rw [hprog]
      exact settles_walletBroadcast hseal hdecode txHex source
    · rw [hprog]
      exact settles_activity a ha
  · have hperformed : e ∈ Config.performed (World.exec env) ⟨life.started env w, []⟩
        life.schedule := by
      rw [hsplit, Config.performed_append]
      exact List.mem_append_left _ he
    have hmeets := h.agreeable e hperformed
    have hstart := Config.performed_of_uses life.schedule (life.started env w)
      (fun p hp => uses_of_isSchedule h.schedule hp) e hperformed
    exact ⟨hmeets.served, trivial, accounts_exec hstart hmeets⟩

/-! ### All the lives -/

/-- Life after life meets its conditions, each from the world that the one before it leaves. -/
def LivesMeet (env : Env) (network : String) : World → List Life → Prop
  | _, [] => True
  | w, life :: lives =>
      life.Meets env network w ∧ LivesMeet env network (life.ending env w).state lives

theorem LivesMeet.at {before after : List Life} {life : Life}
    (h : LivesMeet env network w (before ++ life :: after)) :
    life.Meets env network (w.afterLives env before) := by
  induction before generalizing w with
  | nil => exact h.1
  | cons b before ih => exact ih h.2

/-- Over all lives of the daemon whose steps meet their conditions: a start rebuilds the keys
from the table, so that they are the same as before if they agreed. At any time, whatever differs
is owed by a program between its two writes. When every program has finished, the keys are the
txids of the waiting rows. -/
theorem mempool_agrees (hseal : env.SealOpens) (hdecode : env.DecodesLockTimes)
    {before after : List Life} {life : Life}
    (h : LivesMeet env network w (before ++ life :: after)) :
    (∀ t, Holds (life.started env (w.afterLives env before)) t ↔
      IsWaiting env network (w.afterLives env before) t) ∧
    ∀ chs rest, life.schedule = chs ++ rest →
      ∀ c, c = Config.exec (World.exec env)
          ⟨life.started env (w.afterLives env before), []⟩ chs →
        (∀ t, Differs env network c.state t →
          ∃ task ∈ c.tasks, task.prog.isFinished = false ∧ Owes env network task.seen t) ∧
        (c.idle = true → ∀ t, Holds c.state t ↔ IsWaiting env network c.state t) := by
  have hlife := h.at
  refine ⟨fun t => (started_starting hlife).holds t, fun chs rest hsplit c hc => ?_⟩
  have hsettled := settled_life hseal hdecode hlife hsplit
  rw [← hc] at hsettled
  refine ⟨fun t hdiffers => ?_, fun hidle t => ?_⟩
  · obtain ⟨task, htask, howes⟩ := hsettled.owed t hdiffers
    refine ⟨task, htask, ?_, howes⟩
    by_contra hfinished
    exact Prog.not_owes_of_isFinished (hsettled.settles task htask) (by simpa using hfinished) t
      howes
  · exact not_not.1 (Config.not_bad_of_idle hsettled hidle t)

end

/-! ### Concrete lives -/

/-- A life with an indexer and one piece of work. -/
def lifeOf (p : M Unit) (steps : Nat) : Life where
  rpc := false
  indexer := true
  config := sampleConfig
  schedule := .start p :: List.replicate steps (.step 0)

/-- A life in which a wallet sends a transaction. -/
def broadcastLife : Life := lifeOf (walletBroadcast sampleEnv "07" "Sparrow") 20

/-- A life in which its row is removed. -/
def removalLife : Life := lifeOf ((Activity.remove "id22").prog sampleEnv) 3

/-- A life in which the dashboard imports a transaction. -/
def importLife : Life := lifeOf ((Activity.importTx sampleImport).prog sampleEnv) 9

theorem isSchedule_lifeOf {p : M Unit} {steps : Nat}
    (h : (∃ txHex source, p = walletBroadcast sampleEnv txHex source) ∨
      ∃ a : Activity, a.isPart = false ∧ p = a.prog sampleEnv) :
    (lifeOf p steps).IsSchedule sampleEnv := by
  intro q hq
  rcases List.mem_cons.1 hq with hq | hq
  · cases hq
    exact h
  · cases List.eq_of_mem_replicate hq

theorem not_dropped_lifeOf {p : M Unit} {steps i : Nat}
    {chs rest : List (Choice Act Act.Res Failure)} :
    (lifeOf p steps).schedule ≠ chs ++ .drop i :: rest := by
  intro h
  have hmem : Choice.drop i ∈ (lifeOf p steps).schedule := h ▸ by simp
  rcases List.mem_cons.1 hmem with hi | hi
  · cases hi
  · cases List.eq_of_mem_replicate hi

/-- Two lives: a wallet's broadcast, and after a restart the removal of its row. -/
theorem mempool_agrees_removal :
    (∀ t,
      Holds (removalLife.started sampleEnv (sampleWorld.afterLives sampleEnv [broadcastLife])) t ↔
      IsWaiting sampleEnv "testnet4" (sampleWorld.afterLives sampleEnv [broadcastLife]) t) ∧
    ∀ t, Holds (removalLife.ending sampleEnv
        (sampleWorld.afterLives sampleEnv [broadcastLife])).state t ↔
      IsWaiting sampleEnv "testnet4" (removalLife.ending sampleEnv
        (sampleWorld.afterLives sampleEnv [broadcastLife])).state t := by
  have hlives :
      LivesMeet sampleEnv "testnet4" sampleWorld ([broadcastLife] ++ removalLife :: []) := by
    refine ⟨⟨rfl, ⟨_, rfl⟩, isSchedule_lifeOf (Or.inl ⟨_, _, rfl⟩), by decide +kernel,
      by decide +kernel, by decide +kernel, fun _ _ _ h => absurd h not_dropped_lifeOf⟩,
      ⟨rfl, ⟨_, rfl⟩, isSchedule_lifeOf (Or.inr ⟨_, rfl, rfl⟩), by decide +kernel,
      by decide +kernel, by decide +kernel, fun _ _ _ h => absurd h not_dropped_lifeOf⟩, trivial⟩
  obtain ⟨hstart, hlife⟩ :=
    mempool_agrees sealOpens_sampleEnv (decodesLockTimes_of_sample rfl) hlives
  refine ⟨hstart, (hlife removalLife.schedule [] (List.append_nil _).symm _ rfl).2 ?_⟩
  decide +kernel

/-- A dashboard import makes a txid wait that is no key, with nothing running. -/
theorem not_mempool_agrees_always :
    ¬ ∀ (env : Env) (network : String) (w : World) (life : Life), env.SealOpens →
      env.DecodesLockTimes → life.config.network = network →
      life.config.indexerUrl.isSome → life.IsSchedule env → w.pool = [] →
      ((life.start env).run (World.exec env) w).1 = .ok () → (life.ending env w).idle = true →
      ∀ t, Holds (life.ending env w).state t ↔
        IsWaiting env network (life.ending env w).state t := by
  intro h
  have hagree := h sampleEnv "testnet4" sampleWorld importLife sealOpens_sampleEnv
    (decodesLockTimes_of_sample rfl) rfl rfl (isSchedule_lifeOf (Or.inr ⟨_, rfl, rfl⟩)) rfl
    (by decide +kernel) (by decide +kernel) "7"
  have hwaits :
      IsWaiting sampleEnv "testnet4" (importLife.ending sampleEnv sampleWorld).state "7" := by
    decide +kernel
  have hnone : ¬ Holds (importLife.ending sampleEnv sampleWorld).state "7" := by decide +kernel
  exact hnone (hagree.2 hwaits)

end BroadcastPool
