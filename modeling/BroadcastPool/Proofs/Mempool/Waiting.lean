import BroadcastPool.Life
import BroadcastPool.Proofs.Db.Frame

/-!
# `BroadcastPool.Proofs.Mempool.Waiting`: held txids and waiting rows

`Holds` says that a txid is a key of the daemon's virtual mempool, and `IsWaiting` that the table
has a `Pending` or `Scheduled` row of the network whose hex text has that txid. Both come with
one lemma for each action that can change them.
-/

set_option autoImplicit false

namespace BroadcastPool

open Effects

/-- The txid of the hex text that a row reads back as. -/
def Row.hexTxid (env : Env) (r : Row) : Option String :=
  (computeTxid env (decOrRaw env r.id r.txHex)).toOption

/-- The row is stored as `Pending` or `Scheduled`. -/
def Row.Waits (r : Row) : Prop := r.status = "pending" ∨ r.status = "scheduled"

/-- The row waits in the network, and `t` is the txid of its transaction. -/
def Row.WaitsAs (env : Env) (network t : String) (r : Row) : Prop :=
  r.Waits ∧ r.network = network ∧ r.hexTxid env = some t

/-- The table has a waiting row with the txid. -/
def IsWaiting (env : Env) (network : String) (w : World) (t : String) : Prop :=
  ∃ r ∈ w.pool, r.WaitsAs env network t

/-- The txid is a key of the daemon's virtual mempool. -/
def Holds (w : World) (t : String) : Prop := t ∈ w.daemon.pendingTxs

instance (r : Row) : Decidable r.Waits := inferInstanceAs (Decidable (_ ∨ _))

instance (env : Env) (network t : String) (r : Row) : Decidable (r.WaitsAs env network t) :=
  inferInstanceAs (Decidable (_ ∧ _))

instance (env : Env) (network : String) (w : World) (t : String) :
    Decidable (IsWaiting env network w t) :=
  inferInstanceAs (Decidable (∃ r ∈ w.pool, r.WaitsAs env network t))

instance (w : World) (t : String) : Decidable (Holds w t) :=
  decidable_of_iff ((w.daemon.pendingTxs.lookup t).isSome = true) AList.lookup_isSome

namespace Act

/-- The action reads the configuration under its lock. -/
def locksConfig : Act → Bool
  | lockConfig _ => true
  | _ => false

/-- The `UPDATE` that the action runs. -/
def update? : Act → Option Update
  | update u => some u
  | _ => none

/-- The row that it inserts. -/
def inserted? : Act → Option Row
  | insert row => some row
  | _ => none

/-- The id whose row it takes out of the table. -/
def taken? : Act → Option String
  | delete id | archiveRow id _ => some id
  | _ => none

/-- The txid that it stores in the daemon's virtual mempool. -/
def stored? : Act → Option String
  | storePending .daemon txid _ => some txid
  | _ => none

/-- The txid that it removes from the daemon's virtual mempool. -/
def removed? : Act → Option String
  | removePending .daemon txid => some txid
  | _ => none

end Act

section
variable {env : Env} {network t : String} {w : World}

/-- Only four columns matter. -/
theorem waitsAs_congr {r r' : Row} (hid : r'.id = r.id) (hhex : r'.txHex = r.txHex)
    (hstatus : r'.status = r.status) (hnetwork : r'.network = r.network) :
    r'.WaitsAs env network t ↔ r.WaitsAs env network t := by
  unfold Row.WaitsAs Row.Waits Row.hexTxid
  rw [hid, hhex, hstatus, hnetwork]

/-! ### The virtual mempool -/

theorem holds_exec_of_not_writes {a : Act} (h : a.writesPending = false) :
    Holds (World.exec env a w).2 t ↔ Holds w t := by
  have hsame : ((World.exec env a w).2.pm .daemon).pendingTxs = (w.pm .daemon).pendingTxs :=
    exec_pendingTxs h .daemon
  unfold Holds
  exact iff_of_eq (congrArg (t ∈ ·) hsame)

theorem holds_storePending {txid : String} {info : PendingTxInfo} :
    Holds (World.exec env (.storePending .daemon txid info) w).2 t →
      t = txid ∨ Holds w t := by
  intro h
  simp only [World.exec, World.effect] at h
  split at h
  · exact Or.inr h
  · exact (AList.mem_insert _).1 h

theorem holds_storePending_of_holds {p : Proc} {txid : String} {info : PendingTxInfo}
    (h : Holds w t) : Holds (World.exec env (.storePending p txid info) w).2 t := by
  simp only [World.exec, World.effect]
  split
  · exact h
  · cases p
    · exact (AList.mem_insert _).2 (Or.inr h)
    · exact h

theorem holds_storePending_self {txid : String} {info : PendingTxInfo}
    (hlock : env.pendingPoisoned w.tick = false) :
    Holds (World.exec env (.storePending .daemon txid info) w).2 txid := by
  simp only [World.exec, World.effect, hlock, Bool.false_eq_true, if_false]
  exact (AList.mem_insert _).2 (Or.inl rfl)

/-- A merge adds scripthashes to an entry that is there. -/
theorem holds_mergePending {p : Proc} {txid : String} {extra : List String} :
    Holds (World.exec env (.mergePending p txid extra) w).2 t ↔ Holds w t := by
  simp only [World.exec, World.effect]
  split
  · exact Iff.rfl
  · split
    · exact Iff.rfl
    · rename_i info hinfo
      cases p
      · have hmem : txid ∈ w.daemon.pendingTxs :=
          AList.lookup_isSome.1 (Option.isSome_iff_exists.2 ⟨info, hinfo⟩)
        refine (AList.mem_insert _).trans ⟨fun h => ?_, Or.inr⟩
        rcases h with rfl | h
        · exact hmem
        · exact h
      · exact Iff.rfl

theorem holds_removePending {txid : String} (hlock : env.pendingPoisoned w.tick = false) :
    Holds (World.exec env (.removePending .daemon txid) w).2 t ↔ t ≠ txid ∧ Holds w t := by
  simp only [World.exec, World.effect, hlock, Bool.false_eq_true, if_false]
  split
  · rename_i hnone
    refine ⟨fun h => ⟨?_, h⟩, fun h => h.2⟩
    rintro rfl
    exact AList.lookup_eq_none.1 hnone h
  · exact AList.mem_erase

theorem holds_removePending_cli {txid : String} :
    Holds (World.exec env (.removePending .cli txid) w).2 t ↔ Holds w t := by
  simp only [World.exec, World.effect]
  split
  · exact Iff.rfl
  · split <;> exact Iff.rfl

/-! ### The waiting rows -/

theorem isWaiting_congr {w w' : World} (h : w'.pool = w.pool) :
    IsWaiting env network w' t ↔ IsWaiting env network w t := by
  unfold IsWaiting
  rw [h]

theorem isWaiting_exec_of_not_writes {a : Act} (h : a.writesPool = false) :
    IsWaiting env network (World.exec env a w).2 t ↔ IsWaiting env network w t :=
  isWaiting_congr (exec_pool h)

/-- A map that keeps the four columns keeps what waits. -/
theorem isWaiting_map {w' : World} {f : Row → Row} (h : w'.pool = w.pool.map f)
    (hf : ∀ r, (f r).WaitsAs env network t ↔ r.WaitsAs env network t) :
    IsWaiting env network w' t ↔ IsWaiting env network w t := by
  unfold IsWaiting
  rw [h]
  constructor
  · rintro ⟨_, hmem, hwaits⟩
    obtain ⟨r, hr, rfl⟩ := List.mem_map.1 hmem
    exact ⟨r, hr, (hf r).1 hwaits⟩
  · rintro ⟨r, hr, hwaits⟩
    exact ⟨f r, List.mem_map_of_mem hr, (hf r).2 hwaits⟩

theorem isWaiting_insert {row : Row} :
    IsWaiting env network (World.exec env (.insert row) w).2 t →
      row.WaitsAs env network t ∨ IsWaiting env network w t := by
  rcases exec_insert env w row with ⟨e, hexec⟩ | ⟨pool, hins, hexec⟩
  · rw [hexec]
    exact Or.inr
  · rw [hexec]
    unfold insertRow at hins
    split at hins
    · cases hins
    · cases hins
      rintro ⟨r, hr, hwaits⟩
      rcases List.mem_append.1 hr with hr | hr
      · exact Or.inr ⟨r, hr, hwaits⟩
      · rw [List.mem_singleton.1 hr] at hwaits
        exact Or.inl hwaits

theorem isWaiting_insert_of_isWaiting {row : Row} (h : IsWaiting env network w t) :
    IsWaiting env network (World.exec env (.insert row) w).2 t := by
  rcases exec_insert env w row with ⟨e, hexec⟩ | ⟨pool, hins, hexec⟩
  · rw [hexec]
    exact h
  · rw [hexec]
    unfold insertRow at hins
    split at hins
    · cases hins
    · cases hins
      obtain ⟨r, hr, hwaits⟩ := h
      exact ⟨r, List.mem_append_left _ hr, hwaits⟩

theorem isWaiting_insert_self {row : Row} (hrow : row.WaitsAs env network t)
    (hok : (World.exec env (.insert row) w).1 = .ok ()) :
    IsWaiting env network (World.exec env (.insert row) w).2 t := by
  rcases exec_insert env w row with ⟨e, hexec⟩ | ⟨pool, hins, hexec⟩
  · rw [hexec] at hok
    cases hok
  · rw [hexec]
    unfold insertRow at hins
    split at hins
    · cases hins
    · cases hins
      exact ⟨row, List.mem_append_right _ (List.mem_singleton_self row), hrow⟩

/-- What waits after an `UPDATE` waited before it, or the statement made it wait. -/
theorem isWaiting_update {u : Update} :
    IsWaiting env network (World.exec env (.update u) w).2 t →
      IsWaiting env network w t ∨
        ∃ r ∈ w.pool, r.id = u.target ∧ u.guard r = true ∧
          (u.set env r).WaitsAs env network t := by
  rcases exec_update env w u with ⟨e, hexec⟩ | hexec
  · rw [hexec]
    exact Or.inl
  · rw [hexec]
    rintro ⟨_, hmem, hwaits⟩
    obtain ⟨r, hr, rfl⟩ := List.mem_map.1 hmem
    unfold Update.onRow at hwaits
    split at hwaits
    · rename_i hmatch
      exact Or.inr ⟨r, hr, hmatch.1, hmatch.2, hwaits⟩
    · exact Or.inl ⟨r, hr, hwaits⟩

/-- What no longer waits after an `UPDATE` has its row hit by it. -/
theorem isWaiting_update_of_isWaiting {u : Update} (h : IsWaiting env network w t) :
    IsWaiting env network (World.exec env (.update u) w).2 t ∨
      (World.exec env (.update u) w).1 = .ok (updateCount u w.pool) ∧
        ∃ r ∈ w.pool, r.id = u.target ∧ u.guard r = true ∧ r.WaitsAs env network t ∧
          ¬ (u.set env r).WaitsAs env network t ∧
          ∀ r' ∈ w.pool, r'.WaitsAs env network t → r'.id = u.target := by
  rcases exec_update env w u with ⟨e, hexec⟩ | hexec
  · rw [hexec]
    exact Or.inl h
  · rw [hexec]
    by_cases hafter : IsWaiting env network
        { w with pool := applyUpdate env u w.pool }.ticked t
    · exact Or.inl hafter
    · have hgone : ∀ r ∈ w.pool, ¬ (u.onRow env r).WaitsAs env network t :=
        fun r hr hwaits => hafter ⟨_, List.mem_map_of_mem hr, hwaits⟩
      have hmatch : ∀ r ∈ w.pool, r.WaitsAs env network t → r.id = u.target ∧ u.guard r = true := by
        intro r hr hwaits
        by_contra hnot
        have hnone := hgone r hr
        unfold Update.onRow at hnone
        rw [if_neg hnot] at hnone
        exact hnone hwaits
      obtain ⟨r, hr, hwaits⟩ := h
      obtain ⟨hid, hguard⟩ := hmatch r hr hwaits
      refine Or.inr ⟨rfl, r, hr, hid, hguard, hwaits, ?_, fun r' hr' h' => (hmatch r' hr' h').1⟩
      have hset := hgone r hr
      unfold Update.onRow at hset
      rwa [if_pos ⟨hid, hguard⟩] at hset

/-- What waits after rows with one id are gone waited before. What no longer waits was one of
them. -/
theorem isWaiting_filter {w' : World} {id : String} (h : w'.pool = w.pool.filter (·.id ≠ id)) :
    (IsWaiting env network w' t → IsWaiting env network w t) ∧
      (IsWaiting env network w t → IsWaiting env network w' t ∨
        ∃ r ∈ w.pool, r.id = id ∧ r.WaitsAs env network t ∧
          ∀ r' ∈ w.pool, r'.WaitsAs env network t → r'.id = id) := by
  unfold IsWaiting
  rw [h]
  refine ⟨fun ⟨r, hr, hwaits⟩ => ⟨r, List.mem_of_mem_filter hr, hwaits⟩, ?_⟩
  rintro ⟨r, hr, hwaits⟩
  by_cases hall : ∀ r' ∈ w.pool, r'.WaitsAs env network t → r'.id = id
  · exact Or.inr ⟨r, hr, hall r hr hwaits, hwaits, hall⟩
  · push Not at hall
    obtain ⟨r', hr', hwaits', hid⟩ := hall
    exact Or.inl ⟨r', List.mem_filter.2 ⟨hr', by simpa using hid⟩, hwaits'⟩

theorem isWaiting_reseal {id : String} :
    IsWaiting env network (World.exec env (.reseal id) w).2 t ↔ IsWaiting env network w t := by
  rcases exec_reseal env w id with ⟨-, e, hexec⟩ | hexec
  · rw [hexec]
    exact Iff.rfl
  · rw [hexec]
    cases hr : resealRow env id w.pool with
    | error e => exact Iff.rfl
    | ok rows =>
      unfold resealRow at hr
      split at hr
      · cases hr
      · split at hr
        · cases hr
        · cases hr
          refine isWaiting_map (f := fun r => if r.id = id then resealed env r else r) rfl
            fun r => ?_
          split
          · unfold resealed
            split
            · exact Iff.rfl
            · exact waitsAs_congr rfl rfl rfl rfl
          · exact Iff.rfl

theorem isWaiting_migrate :
    IsWaiting env network (World.exec env .migrate w).2 t ↔ IsWaiting env network w t := by
  rcases exec_migrate env w with ⟨e, hexec⟩ | hexec
  · rw [hexec]
    exact Iff.rfl
  · rw [hexec]
    by_cases hrefused : env.migrationRefused w.tick = true
    · simp only [hrefused, if_true]
      exact Iff.rfl
    · simp only [hrefused]
      refine isWaiting_map (f := migration007) rfl fun r => ?_
      unfold migration007
      split
      · exact waitsAs_congr rfl rfl rfl rfl
      · exact Iff.rfl

theorem backfillRow_waitsAs (r : Row) :
    (backfillRow env r).WaitsAs env network t ↔ r.WaitsAs env network t := by
  unfold backfillRow
  split
  · split
    · split
      · exact waitsAs_congr rfl rfl rfl rfl
      · exact Iff.rfl
    · exact Iff.rfl
  · exact Iff.rfl

theorem isWaiting_backfill :
    IsWaiting env network (World.exec env .backfill w).2 t ↔ IsWaiting env network w t := by
  constructor
  · rintro ⟨r, hr, hwaits⟩
    obtain ⟨r₀, hr₀, rfl | rfl⟩ := exec_backfill env w r hr
    · exact ⟨r, hr₀, hwaits⟩
    · exact ⟨r₀, hr₀, (backfillRow_waitsAs r₀).1 hwaits⟩
  · rintro ⟨r₀, hr₀, hwaits⟩
    obtain ⟨r, hr, rfl | rfl⟩ := exec_backfill_mem env w r₀ hr₀
    · exact ⟨r, hr, hwaits⟩
    · exact ⟨_, hr, (backfillRow_waitsAs r₀).2 hwaits⟩

end

end BroadcastPool
