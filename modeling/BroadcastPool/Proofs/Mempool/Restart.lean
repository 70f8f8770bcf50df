import BroadcastPool.Proofs.Db.Selection
import BroadcastPool.Proofs.Mempool.Waiting

/-!
# `BroadcastPool.Proofs.Mempool.Restart`: the virtual mempool after a start

A start of the daemon forgets the virtual mempool, opens the database and stores an entry for
every row that waits (`load_pending_from_db`). `Rebuilds` is what this rests on, action by
action. `wp_startUp` is the result: the start leaves the waiting txids as they were, and they are
the held ones.
-/

set_option autoImplicit false

namespace BroadcastPool

open Effects

/-- A listing of the rows that wait under one of the two statuses, and its limit. -/
def Act.waitingList? : Act → Option (Query × Int)
  | .select (.list (some status) network limit) =>
      if status = "pending" ∨ status = "scheduled" then
        some (.list (some status) network limit, limit)
      else none
  | _ => none

/-- The condition on one action of the start. The locks are not poisoned. The listings of the
waiting rows are answered, in full, and a txid in the column is the txid of the hex text. A
statement on a row neither makes a txid wait that waits in no other row, nor takes a waiting
row away. -/
structure Rebuilds (env : Env) (network : String) (w : World) (a : Act) : Prop where
  configLock : a.locksConfig = true → env.configPoisoned w.tick = false
  pendingLock : a.stored?.isSome → env.pendingPoisoned w.tick = false
  listed : ∀ l ∈ a.waitingList?,
    (World.exec env (.select l.1) w).1.toOption.isSome ∧
      ((w.pool.filter l.1.selects).length : Int) ≤ l.2 ∧
      ∀ r ∈ w.pool, ∀ t ∈ r.hexTxid env, r.WaitsAs env network t →
        r.txid = none ∨ r.txid = some t
  gained : ∀ u ∈ a.update?, ∀ r ∈ w.pool, r.id = u.target → u.guard r = true →
    ∀ t ∈ (u.set env r).hexTxid env, (u.set env r).WaitsAs env network t →
      IsWaiting env network w t
  kept : ∀ u ∈ a.update?, ∀ r ∈ w.pool, r.id = u.target → u.guard r = true →
    ∀ t ∈ r.hexTxid env, r.WaitsAs env network t → (u.set env r).WaitsAs env network t

instance (env : Env) (network : String) (w : World) (a : Act) :
    Decidable (Rebuilds env network w a) :=
  decidable_of_iff (_ ∧ _ ∧ _ ∧ _ ∧ _)
    ⟨fun h => ⟨h.1, h.2.1, h.2.2.1, h.2.2.2.1, h.2.2.2.2⟩,
      fun h => ⟨h.configLock, h.pendingLock, h.listed, h.gained, h.kept⟩⟩

/-- The action can insert rows or take rows away. -/
def Act.resizesPool : Act → Bool
  | insert _ | delete _ | archiveRow .. => true
  | _ => false

section
variable {env : Env} {network : String}

/-- No other action of a start changes what waits. -/
theorem isWaiting_rebuilds {a : Act} {w : World} (ha : a.resizesPool = false)
    (h : Rebuilds env network w a) (t : String) :
    IsWaiting env network (World.exec env a w).2 t ↔ IsWaiting env network w t := by
  by_cases hw : a.writesPool = false
  · exact isWaiting_exec_of_not_writes hw
  · cases a <;> first | exact absurd rfl hw | skip
    case insert | delete | archiveRow => cases ha
    case update u =>
      constructor
      · intro hafter
        rcases isWaiting_update hafter with hbefore | ⟨r, hr, hid, hguard, hwaits⟩
        · exact hbefore
        · exact h.gained u rfl r hr hid hguard t hwaits.2.2 hwaits
      · intro hbefore
        rcases isWaiting_update_of_isWaiting (u := u) hbefore with
          hafter | ⟨-, r, hr, hid, hguard, hwaits, hnot, -⟩
        · exact hafter
        · exact absurd (h.kept u rfl r hr hid hguard t hwaits.2.2 hwaits) hnot
    case reseal id => exact isWaiting_reseal
    case migrate => exact isWaiting_migrate
    case backfill => exact isWaiting_backfill

/-- The network and the indexer of a configuration. -/
def PoolManager.settings (m : PoolManager) : String × Option String :=
  (m.config.network, m.config.indexerUrl)

/-- The daemon of a life keeps its network and its indexer. -/
theorem exec_settings (w : World) {a : Act}
    (h : ∀ rpc indexer config, a ≠ .startProcess .daemon rpc indexer config) :
    (World.exec env a w).2.daemon.settings = w.daemon.settings := by
  show ((World.exec env a w).2.pm .daemon).settings = (w.pm .daemon).settings
  rw [show (World.exec env a w).2.pm .daemon = (w.effect env a).2.pm .daemon from
    World.ticked_pm _ _]
  cases a
  case startProcess p rpc indexer config =>
    cases p
    · exact absurd rfl (h rpc indexer config)
    · rfl
  case select | selectLegacy | txHexByTxid | insert | update | delete | reseal | migrate =>
    exact congrArg PoolManager.settings (statement_pm _ .daemon)
  all_goals
    simp only [World.effect]
    repeat' split
    all_goals
      first
        | rfl
        | (apply setPm_field PoolManager.settings
           rfl)

/-! ### The start, step by step -/

/-- A world in the course of the start from `before`: the settings are those of the new process,
what waits has not changed, and the txids in `held` are the held ones. -/
structure Starting (env : Env) (network : String) (before : World) (held : String → Prop)
    (w : World) : Prop where
  settings : ∃ url, w.daemon.settings = (network, some url)
  waiting : ∀ t, IsWaiting env network w t ↔ IsWaiting env network before t
  holds : ∀ t, Holds w t ↔ held t

/-- The contract of the start. -/
abbrev rebuildContract (env : Env) (network : String) : Contract Act Act.Res World :=
  (World.exec env).contract (Rebuilds env network) fun _ _ => True

/-- An action that neither resizes the table nor writes the virtual mempool. -/
def Act.isStill (a : Act) : Bool := !a.resizesPool && !a.writesPending

section Steps
variable {α : Type} {before : World} {held : String → Prop}

theorem starting_exec {a : Act} {w : World} (ha : a.isStill = true)
    (h : Rebuilds env network w a) (hw : Starting env network before held w) :
    Starting env network before held (World.exec env a w).2 := by
  obtain ⟨hpool, hpending⟩ : a.resizesPool = false ∧ a.writesPending = false := by
    simpa [Act.isStill] using ha
  refine ⟨?_, fun t => ?_, fun t => ?_⟩
  · rw [exec_settings]
    · exact hw.settings
    · rintro rpc indexer config rfl
      cases hpending
  · rw [isWaiting_rebuilds hpool h]
    exact hw.waiting t
  · rw [holds_exec_of_not_writes hpending]
    exact hw.holds t

theorem keeps_starting {p : M α} (hp : p.Uses fun a => a.isStill = true) :
    p.Keeps (rebuildContract env network) (Starting env network before held) := by
  refine Prog.keeps_of_uses (fun a ha w hw h => ⟨trivial, ?_⟩) hp
  intro r w' hstep
  have hnext := starting_exec ha h hw
  rw [show World.exec env a w = (r, w') from hstep] at hnext
  exact hnext

theorem isStill_of_isClock {a : Act} (h : a.isClock = true) : a.isStill = true := by
  cases a <;> first | rfl | cases h

theorem IsClock.still {p : M α} (h : IsClock p) : p.Uses fun a => a.isStill = true :=
  Prog.Uses.mono (fun _ => isStill_of_isClock) h

theorem still_updateAndReseal (context : String) (u : Update) :
    (updateAndReseal context u).Uses fun a => a.isStill = true :=
  Prog.uses_bind (uses_orFail _ (uses_act rfl)) fun _ => uses_orFail _ (uses_act rfl)

theorem still_openDatabase : (openDatabase env).Uses fun a => a.isStill = true := by
  refine Prog.uses_bind (uses_orFail _ (uses_act rfl)) fun _ => ?_
  refine Prog.uses_bind (uses_catchErr (uses_orRaise (uses_act rfl))) fun _ => ?_
  refine Prog.uses_bind (uses_catchErr ?_) fun _ => Prog.uses_ret _
  refine Prog.uses_bind (uses_orRaise (uses_act rfl)) fun rows => ?_
  refine Prog.uses_forEach rows fun row _ => ?_
  obtain ⟨id, txHex, dest, source⟩ := row
  refine Prog.uses_bind (clock_encodeMissing env _ _).still fun _ => ?_
  refine Prog.uses_bind (clock_encodeMissing? env _ _).still fun _ => ?_
  refine Prog.uses_bind (clock_encodeMissing? env _ _).still fun _ => ?_
  exact still_updateAndReseal _ _

theorem still_requeueRetriableFailures (p : Proc) :
    (requeueRetriableFailures env p).Uses fun a => a.isStill = true := by
  refine Prog.uses_bind (clock_configNetwork p).still fun network => ?_
  refine Prog.uses_bind (uses_orFail _ (uses_act rfl)) fun failed => ?_
  refine Prog.uses_forEach failed fun tx _ => ?_
  unfold requeueFailure
  split
  · refine Prog.uses_bind (clock_nowText env).still fun now => ?_
    refine Prog.uses_bind (uses_orFail _ (uses_act rfl)) fun updated => ?_
    exact Prog.uses_bind (uses_ensure _ _) fun _ => uses_orFail _ (uses_act rfl)
  · exact Prog.uses_ret _

/-! ### The rebuild -/

/-- While the virtual mempool is rebuilt, the table is `pool`. -/
def Loading (env : Env) (network : String) (before : World) (pool : List Row)
    (held : String → Prop) (w : World) : Prop :=
  Starting env network before held w ∧ w.pool = pool

variable {pool : List Row}

theorem loading_clock {a : Act} (ha : a.isClock = true) {P : a.Res → Prop}
    (hP : ∀ w, Loading env network before pool held w → Rebuilds env network w a →
      P (World.exec env a w).1) :
    Prog.Returns (rebuildContract env network) (Loading env network before pool held) P
      (perform a : M a.Res) := by
  refine Prog.returns_perform fun w hw h => ⟨trivial, fun r w' hstep => ?_⟩
  have hr := hP w hw h
  have hnext := starting_exec (isStill_of_isClock ha) h hw.1
  have hpool : (World.exec env a w).2.pool = w.pool :=
    exec_pool (no_write_of_isQuiet (isQuiet_of_isClock ha)).1
  rw [show World.exec env a w = (r, w') from hstep] at hr hnext hpool
  exact ⟨⟨hnext, hpool.trans hw.2⟩, hr⟩

/-- The configuration that the rebuild reads. -/
theorem loading_lockConfig :
    Prog.Returns (rebuildContract env network) (Loading env network before pool held)
      (fun r => ∃ config url, r = .ok config ∧ config.network = network ∧
        config.indexerUrl = some url)
      (perform (.lockConfig .daemon) : M (Except String Config)) := by
  refine loading_clock rfl fun w hw hlock => ?_
  obtain ⟨url, hsettings⟩ := hw.1.settings
  obtain ⟨hname, hurl⟩ := Prod.mk.inj hsettings
  have hopen : env.configPoisoned w.tick = false := hlock.configLock rfl
  simp only [World.exec, World.effect, hopen]
  exact ⟨w.daemon.config, url, rfl, hname, hurl⟩

/-- The rows with one status in the network, and how they read back. -/
structure Lists (env : Env) (network status : String) (pool : List Row)
    (txs : List BroadcastTx) : Prop where
  sound : ∀ tx ∈ txs, ∃ now, ∃ r ∈ pool, r.status = status ∧ r.network = network ∧
    ReadsAs env now r tx
  complete : ∀ r ∈ pool, r.status = status → r.network = network →
    ∃ tx ∈ txs, ∃ now, ReadsAs env now r tx
  column : ∀ r ∈ pool, ∀ t, r.WaitsAs env network t → r.txid = none ∨ r.txid = some t

/-- A listing whose limit is not reached has every row it selects. -/
theorem mem_selectRows_list {status : Option String} {name : String} {limit : Int}
    {rows : List Row}
    (hlimit : ((rows.filter (Query.list status name limit).selects).length : Int) ≤ limit)
    {r : Row} (hr : r ∈ rows) (hsel : (Query.list status name limit).selects r = true) :
    r ∈ selectRows (.list status name limit) rows := by
  have hmem : r ∈ (rows.filter (Query.list status name limit).selects).insertionSort
      fun a b => b.createdAt ≤ a.createdAt := by
    rw [List.mem_insertionSort]
    exact List.mem_filter.2 ⟨hr, hsel⟩
  simp only [selectRows, limitRows]
  split
  · exact hmem
  · rw [List.take_of_length_le]
    · exact hmem
    · rw [List.length_insertionSort]
      omega

/-- A listing of the waiting rows is complete. -/
theorem loading_list {status : String} (hstatus : status = "pending" ∨ status = "scheduled") :
    Prog.Returns (rebuildContract env network) (Loading env network before pool held)
      (Lists env network status pool) (listBroadcastTxs (some status) network 10000) := by
  refine Prog.returns_bind (P := fun r => ∃ txs, r = .ok txs ∧ Lists env network status pool txs)
    ?_ fun r hr => ?_
  · refine Prog.returns_perform fun w hw h => ⟨trivial, fun r w' hstep => ?_⟩
    have hlisting : (Query.list (some status) network 10000, (10000 : Int)) ∈
        (Act.select (.list (some status) network 10000)).waitingList? :=
      if_pos hstatus
    obtain ⟨hok, hlimit, hcolumn⟩ := h.listed _ hlisting
    have hnext : Starting env network before held
        (World.exec env (.select (.list (some status) network 10000)) w).2 :=
      starting_exec rfl h hw.1
    rcases exec_select env w (.list (some status) network 10000) with
      ⟨e, hexec⟩ | ⟨txs, hmap, hexec⟩
    · rw [hexec] at hok
      cases hok
    · rw [show World.exec env (.select (.list (some status) network 10000)) w = (r, w') from
        hstep] at hexec hnext
      obtain ⟨rfl, rfl⟩ := Prod.mk.inj hexec
      refine ⟨⟨hnext, hw.2⟩, txs, rfl, ?_⟩
      rw [hw.2] at hmap hcolumn hlimit
      refine ⟨fun tx htx => ?_, fun r hr hs hn => ?_,
        fun r hr t hwaits => hcolumn r hr t hwaits.2.2 hwaits⟩
      · obtain ⟨now, r, hr, hsel, hreads⟩ := answers_of_mapM hmap tx htx
        simp only [Query.selects, Bool.and_eq_true, decide_eq_true_eq] at hsel
        exact ⟨now, r, hr, hsel.2, hsel.1, hreads⟩
      · have hsel : (Query.list (some status) network 10000).selects r = true := by
          simp [Query.selects, hs, hn]
        obtain ⟨tx, htx, hf⟩ := exists_mem_of_mapM_eq_ok hmap r
          (mem_selectRows_list hlimit hr hsel)
        exact ⟨tx, htx, _, mapBroadcastRow_spec hf⟩
  · obtain ⟨txs, rfl, hlists⟩ := hr
    exact Prog.returns_ret hlists

/-- The affected scripthashes of a transaction can always be found, those of a text that is no
transaction never. -/
theorem loading_extractAffectedScripthashes (txHex : String) :
    Prog.Returns (rebuildContract env network) (Loading env network before pool held)
      (fun o => (computeTxid env txHex).toOption.isSome ↔ ∃ l, o = .ok l)
      (catchErr (extractAffectedScripthashes env txHex)) := by
  have hfetch : ∀ inputs, Prog.Returns (rebuildContract env network)
      (Loading env network before pool held) (fun _ => True)
      (fetchInputScripthashes env inputs) := by
    intro inputs
    induction inputs with
    | nil => exact Prog.returns_ret trivial
    | cons input inputs ih =>
      refine Prog.returns_bind (loading_clock (P := fun _ => True) rfl fun _ _ _ => trivial)
        fun prev _ => ?_
      refine Prog.returns_bind ih fun rest _ => ?_
      cases prev <;> exact Prog.returns_ret trivial
  unfold extractAffectedScripthashes computeTxid
  cases hdec : decodeTx env txHex with
  | error e =>
    refine Prog.returns_ret ⟨fun h => ?_, fun ⟨l, hl⟩ => ?_⟩
    · cases h
    · cases hl
  | ok tx =>
    refine Prog.returns_bind (Prog.returns_bind (hfetch tx.input)
      fun spent _ => Prog.returns_ret (P := fun _ => True) trivial).attempt fun o ho => ?_
    obtain ⟨l, rfl, -⟩ := ho
    exact Prog.returns_ret ⟨fun _ => ⟨l, rfl⟩, fun _ => rfl⟩

theorem Loading.congr {held' : String → Prop} {w : World} (hheld : ∀ t, held t ↔ held' t)
    (h : Loading env network before pool held w) : Loading env network before pool held' w :=
  ⟨⟨h.1.settings, h.1.waiting, fun t => (h.1.holds t).trans (hheld t)⟩, h.2⟩

/-- An entry is stored. -/
theorem loading_storePending {txid : String} {info : PendingTxInfo} {w : World}
    (hlock : env.pendingPoisoned w.tick = false) (hw : Loading env network before pool held w) :
    Loading env network before pool (fun t => held t ∨ t = txid)
      (World.exec env (.storePending .daemon txid info) w).2 := by
  have hpool : (World.exec env (.storePending .daemon txid info) w).2.pool = w.pool :=
    exec_pool rfl
  refine ⟨⟨?_, fun t => ?_, fun t => ⟨fun h => ?_, fun h => ?_⟩⟩, hpool.trans hw.2⟩
  · rw [exec_settings w (by simp)]
    exact hw.1.settings
  · exact (isWaiting_congr hpool).trans (hw.1.waiting t)
  · rcases holds_storePending h with rfl | h
    · exact Or.inr rfl
    · exact Or.inl ((hw.1.holds t).1 h)
  · rcases h with h | rfl
    · exact holds_storePending_of_holds ((hw.1.holds t).2 h)
    · exact holds_storePending_self hlock

/-- The txid of the hex text of a transaction. -/
def BroadcastTx.hexTxid (env : Env) (tx : BroadcastTx) : Option String :=
  (computeTxid env tx.txHex).toOption

/-- One row is rehydrated: its entry is stored under the txid of its hex text, if it has one. -/
theorem wp_rehydrateTx {tx : BroadcastTx}
    (hcolumn : ∀ t, tx.hexTxid env = some t → tx.txid = none ∨ tx.txid = some t) {w : World}
    (hw : Loading env network before pool held w) :
    (rehydrateTx env .daemon tx).wp (rebuildContract env network)
      (fun o w' => o = .ok () ∧
        Loading env network before pool (fun t => held t ∨ tx.hexTxid env = some t) w') w := by
  unfold BroadcastTx.hexTxid at hcolumn ⊢
  cases htxid : computeTxid env tx.txHex with
  | error e =>
    have hsame : ∀ {w'}, Loading env network before pool held w' →
        Loading env network before pool
          (fun t => held t ∨ (Except.error e : Except String String).toOption = some t) w' :=
      fun h => h.congr fun t => by simp [Except.toOption]
    -- A text that is no transaction: nothing is stored, with a txid in the column or without one.
    cases hcol : tx.txid with
    | none =>
      have hskip : rehydrateTx env .daemon tx = .ret () := by
        unfold rehydrateTx
        rw [htxid, hcol]
        rfl
      rw [hskip, Prog.wp_ret]
      exact ⟨rfl, hsame hw⟩
    | some txid =>
      have hstore : rehydrateTx env .daemon tx = storeRehydrated env .daemon tx txid := by
        unfold rehydrateTx
        rw [hcol]
      rw [hstore]
      unfold storeRehydrated
      refine Prog.Returns.wp_bind (loading_extractAffectedScripthashes tx.txHex)
        (fun o ho w' hw' => ?_) hw
      rw [htxid] at ho
      cases o with
      | error e =>
        simp only [Prog.pure_eq_ret, Prog.wp_ret]
        exact ⟨trivial, hsame hw'⟩
      | ok l => exact absurd (ho.2 ⟨l, rfl⟩) (by simp [Except.toOption])
  | ok txid =>
    -- The column, where it is set, agrees with the text, so the entry goes under the txid of the
    -- text.
    have hstore : rehydrateTx env .daemon tx = storeRehydrated env .daemon tx txid := by
      rw [htxid] at hcolumn
      unfold rehydrateTx
      rw [htxid]
      rcases hcolumn txid rfl with h | h <;> rw [h]
    rw [hstore]
    unfold storeRehydrated
    refine Prog.Returns.wp_bind (loading_extractAffectedScripthashes tx.txHex)
      (fun o ho w' hw' => ?_) hw
    rw [htxid] at ho
    obtain ⟨l, rfl⟩ := ho.1 rfl
    show Prog.wp _ (Prog.perform _) _ w'
    rw [Prog.wp_perform]
    intro hrebuilds
    have hlock : env.pendingPoisoned w'.tick = false := hrebuilds.pendingLock rfl
    refine ⟨trivial, fun r w'' hstep => ⟨rfl, ?_⟩⟩
    have hnext : ∀ info, Loading env network before pool (fun t => held t ∨ t = txid)
        (World.exec env (.storePending .daemon txid info) w').2 :=
      fun info => loading_storePending hlock hw'
    have hw'' : (World.exec env _ w').2 = w'' := congrArg Prod.snd hstep
    rw [← hw'']
    exact (hnext _).congr fun t => by simp [Except.toOption, eq_comm]

/-- All the rows are rehydrated. -/
theorem wp_rehydrateAll {txs : List BroadcastTx}
    (hcolumn : ∀ tx ∈ txs, ∀ t, tx.hexTxid env = some t → tx.txid = none ∨ tx.txid = some t)
    {w : World} (hw : Loading env network before pool held w) :
    (Prog.forEach txs (rehydrateTx env .daemon)).wp (rebuildContract env network)
      (fun o w' => o = .ok () ∧ Loading env network before pool
        (fun t => held t ∨ ∃ tx ∈ txs, tx.hexTxid env = some t) w') w := by
  induction txs generalizing held w with
  | nil =>
    show Prog.wp _ (Prog.ret ()) _ w
    rw [Prog.wp_ret]
    exact ⟨rfl, hw.congr fun t => by simp⟩
  | cons tx txs ih =>
    refine (Prog.wp_bind _ _ _ _).2 (Prog.wp_mono ?_ _ w
      (wp_rehydrateTx (hcolumn tx (List.mem_cons_self ..)) hw))
    rintro o w' ⟨rfl, hw'⟩
    refine Prog.wp_mono ?_ _ w' (ih (fun tx' h => hcolumn tx' (List.mem_cons_of_mem _ h)) hw')
    rintro o w'' ⟨rfl, hw''⟩
    exact ⟨rfl, hw''.congr fun t => by simp [or_assoc]⟩

/-- The transactions of the two listings have the txids that wait. -/
theorem exists_listed_iff {w : World} (hw : Starting env network before held w)
    {pending scheduled : List BroadcastTx}
    (hpending : Lists env network "pending" w.pool pending)
    (hscheduled : Lists env network "scheduled" w.pool scheduled) (t : String) :
    (∃ tx ∈ pending ++ scheduled, tx.hexTxid env = some t) ↔ IsWaiting env network before t := by
  have hhex : ∀ {now r tx}, ReadsAs env now r tx → tx.hexTxid env = r.hexTxid env := by
    intro now r tx hreads
    unfold BroadcastTx.hexTxid Row.hexTxid
    rw [hreads.txHex]
  rw [← hw.waiting t]
  constructor
  · rintro ⟨tx, htx, ht⟩
    rcases List.mem_append.1 htx with htx | htx
    · obtain ⟨now, r, hr, hstatus, hnetwork, hreads⟩ := hpending.sound tx htx
      exact ⟨r, hr, Or.inl hstatus, hnetwork, (hhex hreads).symm.trans ht⟩
    · obtain ⟨now, r, hr, hstatus, hnetwork, hreads⟩ := hscheduled.sound tx htx
      exact ⟨r, hr, Or.inr hstatus, hnetwork, (hhex hreads).symm.trans ht⟩
  · rintro ⟨r, hr, hstatus | hstatus, hnetwork, ht⟩
    · obtain ⟨tx, htx, now, hreads⟩ := hpending.complete r hr hstatus hnetwork
      exact ⟨tx, List.mem_append_left _ htx, (hhex hreads).trans ht⟩
    · obtain ⟨tx, htx, now, hreads⟩ := hscheduled.complete r hr hstatus hnetwork
      exact ⟨tx, List.mem_append_right _ htx, (hhex hreads).trans ht⟩

/-- A listed row has no other txid in its column than the one of its hex text. -/
theorem Lists.column_of_mem {status : String} (hstatus : status = "pending" ∨ status = "scheduled")
    {txs : List BroadcastTx} (h : Lists env network status pool txs) {tx : BroadcastTx}
    (htx : tx ∈ txs) {t : String} (ht : tx.hexTxid env = some t) :
    tx.txid = none ∨ tx.txid = some t := by
  obtain ⟨now, r, hr, hrow, hnetwork, hreads⟩ := h.sound tx htx
  rw [hreads.txid]
  refine h.column r hr t ⟨?_, hnetwork, ?_⟩
  · rcases hstatus with rfl | rfl
    · exact Or.inl hrow
    · exact Or.inr hrow
  · unfold BroadcastTx.hexTxid at ht
    rw [hreads.txHex] at ht
    exact ht

/-- `load_pending_from_db` stores an entry for every txid that waits. -/
theorem wp_loadPendingFromDb {w : World} (hw : Starting env network before (fun _ => False) w) :
    (loadPendingFromDb env .daemon).wp (rebuildContract env network)
      (fun o w' => o = .ok () ∧
        Starting env network before (fun t => IsWaiting env network before t) w') w := by
  have hload : Loading env network before w.pool (fun _ => False) w := ⟨hw, rfl⟩
  have hconfig : Prog.Returns (rebuildContract env network)
      (Loading env network before w.pool fun _ => False) (· = network)
      (configNetwork .daemon) := by
    refine Prog.returns_bind (returns_orRaise (P := fun config => config.network = network)
      (Prog.Returns.mono ?_ loading_lockConfig)) fun config hconfig => Prog.returns_ret hconfig
    rintro r ⟨config, url, rfl, hnetwork, -⟩
    exact ⟨config, rfl, hnetwork⟩
  refine Prog.Returns.wp_bind hconfig (fun name hname w₁ h₁ => ?_) hload
  subst hname
  refine Prog.Returns.wp_bind loading_lockConfig (fun r hr w₂ h₂ => ?_) h₁
  obtain ⟨⟨net, indexerUrl, _, _, _⟩, url, rfl, -, hurl⟩ := hr
  obtain rfl : indexerUrl = some url := hurl
  refine Prog.Returns.wp_bind (loading_list (Or.inl rfl)) (fun pending hpending w₃ h₃ => ?_) h₂
  refine Prog.Returns.wp_bind (loading_list (Or.inr rfl)) (fun scheduled hscheduled w₄ h₄ => ?_) h₃
  refine Prog.wp_mono ?_ _ w₄ (wp_rehydrateAll (fun tx htx t ht => ?_) h₄)
  · rintro o w' ⟨rfl, hw'⟩
    refine ⟨rfl, hw'.1.settings, hw'.1.waiting, fun t => ?_⟩
    rw [hw'.1.holds t, false_or]
    exact exists_listed_iff hw hpending hscheduled t
  · rcases List.mem_append.1 htx with htx | htx
    · exact hpending.column_of_mem (Or.inl rfl) htx ht
    · exact hscheduled.column_of_mem (Or.inr rfl) htx ht

/-- The start leaves the waiting txids as they were, and they are the held ones. -/
theorem wp_startUp {rpc indexer : Bool} {config : Config} {url : String}
    (hnetwork : config.network = network) (hurl : config.indexerUrl = some url) (w : World) :
    (startUp env .daemon rpc indexer config).wp (rebuildContract env network)
      (fun o w' => o = .ok () →
        Starting env network w (fun t => IsWaiting env network w t) w') w := by
  refine (Prog.wp_bind _ _ _ _).2 ?_
  show Prog.wp _ (Prog.perform _) _ w
  rw [Prog.wp_perform]
  refine fun _ => ⟨trivial, fun r w₁ hstep => ?_⟩
  -- The process starts with an empty map: none of the waiting transactions is held.
  have hstart : Starting env network w (fun _ => False) w₁ := by
    cases hstep
    refine ⟨⟨url, ?_⟩, fun t => Iff.rfl, fun t => ?_⟩
    · exact Prod.ext hnetwork hurl
    · exact iff_of_false (AList.notMem_empty t) not_false
  refine (Prog.wp_bind _ _ _ _).2 (Prog.wp_mono (fun o w₂ h₂ => ?_) _ w₁
    (keeps_starting still_openDatabase w₁ hstart))
  cases o with
  | error e => exact fun h => by cases h
  | ok u =>
    refine (Prog.wp_bind _ _ _ _).2 (Prog.wp_mono (fun o w₃ h₃ => ?_) _ w₂
      (keeps_starting (clock_refreshChainHealth .daemon).still w₂ h₂))
    cases o with
    | error e => exact fun h => by cases h
    | ok u =>
      refine (Prog.wp_bind _ _ _ _).2 ((Prog.wp_bind _ _ _ _).2 ((Prog.wp_attempt _ _ _).2
        (Prog.wp_mono ?_ _ w₃ (wp_loadPendingFromDb h₃))))
      -- The load holds them all, and the requeue that follows leaves the map as it is.
      rintro o w₄ ⟨rfl, h₄⟩
      show Prog.wp _ (Prog.ret _) _ w₄
      rw [Prog.wp_ret]
      refine (Prog.wp_bind _ _ _ _).2 (Prog.wp_mono (fun o w₅ h₅ => ?_) _ w₄
        (keeps_starting (uses_catchErr (still_requeueRetriableFailures .daemon)) w₄ h₄))
      cases o with
      | error e => exact fun h => by cases h
      | ok u =>
        simp only [Prog.pure_eq_ret, Prog.wp_ret]
        exact fun _ => h₅

end Steps

end

end BroadcastPool
