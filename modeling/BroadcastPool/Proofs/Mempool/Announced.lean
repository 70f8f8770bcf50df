import BroadcastPool.Pool.WalletView
import BroadcastPool.Sample

/-!
# `BroadcastPool.Proofs.Mempool.Announced`: which changes of a held set are announced

`HeldFor` is what `get_pending_txids_for_scripthash` returns. The three operations on the
virtual mempool change it: a store, a merge and a removal. `Announces` says that one operation
sends a message for every scripthash whose held set it changes, and that a merge which changes
nothing is silent.

A merge and a removal always announce what they change. A store replaces the whole entry and
announces the scripthashes of the new one, so it is silent about a scripthash that only the old
entry names. `KeepsEntry` excludes this: a second store of a txid names everything the held
entry names. `announces_iff` is the fact about one operation, and `announces_everywhere_iff`
about every sequence.

The second store of a broadcast comes after the wallet's answer and names the outputs only. An
entry that a request of the wallet has enriched in between loses the scripthashes of its inputs
(`second_store_drops_silently`).
-/

set_option autoImplicit false

namespace BroadcastPool

/-- The txid is held for the scripthash. -/
def HeldFor (w : World) (p : Proc) (scripthash txid : String) : Prop :=
  txid ∈ (w.pm p).pendingTxs.txidsFor scripthash

/-- An operation on the virtual mempool. -/
inductive MempoolOp
  | store (txid : String) (info : PendingTxInfo)
  | merge (txid : String) (extra : List String)
  | remove (txid : String)

namespace MempoolOp

/-- `store_pending_tx`, `merge_pending_scripthashes` and `remove_pending_tx`. -/
def act (p : Proc) : MempoolOp → Act
  | store txid info => .storePending p txid info
  | merge txid extra => .mergePending p txid extra
  | remove txid => .removePending p txid

variable (env : Env) (p : Proc)

/-- The world after the operation. -/
def next (op : MempoolOp) (w : World) : World := (World.exec env (op.act p) w).2

/-- The world after some operations. -/
def after (ops : List MempoolOp) (w : World) : World :=
  ops.foldl (fun w op => op.next env p w) w

/-- The scripthashes that the operation sends messages for. -/
def sent (op : MempoolOp) (w : World) : List String :=
  ((op.next env p w).pm p).scripthashNotifications.drop
    (w.pm p).scripthashNotifications.length

/-- The operation changes the held set of a scripthash. -/
def Changes (op : MempoolOp) (w : World) (scripthash : String) : Prop :=
  ∃ txid, ¬ (HeldFor (op.next env p w) p scripthash txid ↔ HeldFor w p scripthash txid)

/-- What the operation changes is announced, and a merge that changes nothing is silent. -/
structure Announces (op : MempoolOp) (w : World) : Prop where
  announced : ∀ scripthash, op.Changes env p w scripthash → scripthash ∈ op.sent env p w
  silent : ∀ txid extra, op = .merge txid extra → (∀ sh, ¬ op.Changes env p w sh) →
    op.sent env p w = []

/-- A store that replaces an entry names every scripthash of the old entry. -/
def KeepsEntry (op : MempoolOp) (w : World) : Prop :=
  ∀ txid info, op = .store txid info → env.pendingPoisoned w.tick = false →
    ∀ old ∈ (w.pm p).pendingTxs.lookup txid, old.scripthashes ⊆ info.scripthashes

end MempoolOp

/-! ### The entries of the map -/

theorem PendingTxs.mem_txidsFor {pending : PendingTxs} {scripthash txid : String} :
    txid ∈ pending.txidsFor scripthash ↔
      ∃ info ∈ pending.lookup txid, scripthash ∈ info.scripthashes := by
  unfold PendingTxs.txidsFor
  simp only [List.mem_map, List.mem_filter, List.contains_iff_mem, Option.mem_def]
  constructor
  · rintro ⟨e, ⟨he, hsh⟩, rfl⟩
    exact ⟨e.2, AList.mem_lookup_iff.2 he, hsh⟩
  · rintro ⟨info, hinfo, hsh⟩
    exact ⟨⟨txid, info⟩, ⟨AList.mem_lookup_iff.1 hinfo, hsh⟩, rfl⟩

/-- A merge appends scripthashes that are new to the entry. -/
theorem mergeScripthashes_spec (info : PendingTxInfo) (extra : List String) :
    (World.mergeScripthashes info extra).1.scripthashes =
        info.scripthashes ++ (World.mergeScripthashes info extra).2 ∧
      ∀ sh ∈ (World.mergeScripthashes info extra).2, sh ∉ info.scripthashes := by
  -- The induction is on what is left to merge, from any entry reached on the way.
  suffices h : ∀ (merged : PendingTxInfo) (added : List String),
      merged.scripthashes = info.scripthashes ++ added →
      (∀ sh ∈ added, sh ∉ info.scripthashes) →
      let r := extra.foldl
        (fun (acc : PendingTxInfo × List String) sh =>
          if acc.1.scripthashes.contains sh then acc
          else ({ acc.1 with scripthashes := acc.1.scripthashes ++ [sh] }, acc.2 ++ [sh]))
        (merged, added)
      r.1.scripthashes = info.scripthashes ++ r.2 ∧ ∀ sh ∈ r.2, sh ∉ info.scripthashes from
    h info [] (by simp) (by simp)
  induction extra with
  | nil => exact fun merged added hmerged hadded => ⟨hmerged, hadded⟩
  | cons sh extra ih =>
    intro merged added hmerged hadded
    simp only [List.foldl_cons]
    split
    · exact ih merged added hmerged hadded
    · rename_i hnew
      refine ih _ _ (by simp [hmerged]) fun sh' hsh' => ?_
      rcases List.mem_append.1 hsh' with hsh' | hsh'
      · exact hadded sh' hsh'
      · rw [List.mem_singleton.1 hsh']
        intro hmem
        simp [hmerged, hmem] at hnew

/-! ### One operation -/

namespace MempoolOp

section
variable {env : Env} {p : Proc} {w : World}

/-- An operation on a poisoned map does nothing. -/
theorem next_poisoned (op : MempoolOp) (h : env.pendingPoisoned w.tick = true) :
    (op.next env p w).pm p = w.pm p := by
  cases op <;> simp [next, act, World.exec, World.effect, h]

theorem next_store (txid : String) (info : PendingTxInfo)
    (h : env.pendingPoisoned w.tick = false) :
    ((store txid info).next env p w).pm p =
      { w.pm p with
        pendingTxs := (w.pm p).pendingTxs.insert txid info
        scripthashNotifications := (w.pm p).scripthashNotifications ++ info.scripthashes } := by
  simp [next, act, World.exec, World.effect, h]

theorem next_merge {txid : String} {extra : List String} {info : PendingTxInfo}
    (h : env.pendingPoisoned w.tick = false) (hextra : extra ≠ [])
    (hinfo : (w.pm p).pendingTxs.lookup txid = some info) :
    ((merge txid extra).next env p w).pm p =
      { w.pm p with
        pendingTxs := (w.pm p).pendingTxs.insert txid (World.mergeScripthashes info extra).1
        scripthashNotifications := (w.pm p).scripthashNotifications ++
          (World.mergeScripthashes info extra).2 } := by
  simp [next, act, World.exec, World.effect, h, hextra, hinfo]

theorem next_remove {txid : String} {info : PendingTxInfo}
    (h : env.pendingPoisoned w.tick = false)
    (hinfo : (w.pm p).pendingTxs.lookup txid = some info) :
    ((remove txid).next env p w).pm p =
      { w.pm p with
        pendingTxs := (w.pm p).pendingTxs.erase txid
        scripthashNotifications := (w.pm p).scripthashNotifications ++ info.scripthashes } := by
  simp [next, act, World.exec, World.effect, h, hinfo]

/-- A merge without scripthashes, or into a txid that is not held, does nothing. -/
theorem next_merge_nothing {txid : String} {extra : List String}
    (h : extra = [] ∨ (w.pm p).pendingTxs.lookup txid = none) :
    ((merge txid extra).next env p w).pm p = w.pm p := by
  rcases h with h | h
  · simp [next, act, World.exec, World.effect, h]
  · simp only [next, act, World.exec, World.effect, h]
    split <;> simp

theorem next_remove_nothing {txid : String}
    (h : (w.pm p).pendingTxs.lookup txid = none) :
    ((remove txid).next env p w).pm p = w.pm p := by
  simp only [next, act, World.exec, World.effect, h]
  split <;> simp

theorem sent_eq {op : MempoolOp} {messages : List String}
    (h : ((op.next env p w).pm p).scripthashNotifications =
      (w.pm p).scripthashNotifications ++ messages) : op.sent env p w = messages := by
  unfold sent
  rw [h, List.drop_left]

/-- An operation that leaves the memory as it is announces what it changes: nothing. -/
theorem announces_of_same {op : MempoolOp} (h : (op.next env p w).pm p = w.pm p) :
    op.Announces env p w := by
  have hsent : op.sent env p w = [] := sent_eq (by rw [h, List.append_nil])
  refine ⟨fun sh hchange => ?_, fun _ _ _ _ => hsent⟩
  obtain ⟨txid, hne⟩ := hchange
  unfold HeldFor at hne
  rw [h] at hne
  exact absurd Iff.rfl hne

/-- The entry of `txid` decides what is held for it, if no other entry is changed. -/
theorem heldFor_congr {op : MempoolOp} {scripthash txid : String}
    (h : ((op.next env p w).pm p).pendingTxs.lookup txid = (w.pm p).pendingTxs.lookup txid) :
    HeldFor (op.next env p w) p scripthash txid ↔ HeldFor w p scripthash txid := by
  unfold HeldFor
  rw [PendingTxs.mem_txidsFor, PendingTxs.mem_txidsFor, h]

/-- A store announces what it changes if and only if it names what the old entry names. -/
theorem announces_store_iff (txid : String) (info : PendingTxInfo) :
    (store txid info).Announces env p w ↔ (store txid info).KeepsEntry env p w := by
  cases hpoison : env.pendingPoisoned w.tick with
  | true =>
    refine iff_of_true (announces_of_same (next_poisoned _ hpoison)) fun _ _ _ h => ?_
    rw [hpoison] at h
    cases h
  | false =>
    have hnext := next_store (p := p) txid info hpoison
    have hsent : (store txid info).sent env p w = info.scripthashes :=
      sent_eq (by rw [hnext])
    constructor
    · intro hannounces txid' info' heq _ old hold sh hsh
      cases heq
      by_contra hdropped
      refine hdropped (hsent ▸ hannounces.announced sh ⟨txid, fun hiff => ?_⟩)
      have hheld : HeldFor w p sh txid := PendingTxs.mem_txidsFor.2 ⟨old, hold, hsh⟩
      obtain ⟨new, hnew, hmem⟩ := PendingTxs.mem_txidsFor.1 (hiff.2 hheld)
      rw [hnext, AList.lookup_insert] at hnew
      cases hnew
      exact hdropped hmem
    · intro hkeeps
      refine ⟨fun sh hchange => ?_, fun _ _ h => by cases h⟩
      obtain ⟨txid', hne⟩ := hchange
      rw [hsent]
      by_cases htxid : txid' = txid
      · subst htxid
        by_contra hmem
        refine hne (iff_of_false (fun h => ?_) fun h => ?_)
        · obtain ⟨new, hnew, hsh⟩ := PendingTxs.mem_txidsFor.1 h
          rw [hnext, AList.lookup_insert] at hnew
          cases hnew
          exact hmem hsh
        · obtain ⟨old, hold, hsh⟩ := PendingTxs.mem_txidsFor.1 h
          exact hmem (hkeeps txid' info rfl hpoison old hold hsh)
      · refine absurd (heldFor_congr ?_) hne
        rw [hnext]
        exact AList.lookup_insert_ne htxid

theorem announces_merge (txid : String) (extra : List String) :
    (merge txid extra).Announces env p w := by
  by_cases hextra : extra = []
  · exact announces_of_same (next_merge_nothing (Or.inl hextra))
  cases hinfo : (w.pm p).pendingTxs.lookup txid with
  | none => exact announces_of_same (next_merge_nothing (Or.inr hinfo))
  | some info =>
    cases hpoison : env.pendingPoisoned w.tick with
    | true => exact announces_of_same (next_poisoned _ hpoison)
    | false =>
      have hnext := next_merge hpoison hextra hinfo
      obtain ⟨hmerged, hadded⟩ := mergeScripthashes_spec info extra
      have hsent : (merge txid extra).sent env p w = (World.mergeScripthashes info extra).2 :=
        sent_eq (by rw [hnext])
      have hheld : ∀ sh, HeldFor ((merge txid extra).next env p w) p sh txid ↔
          sh ∈ info.scripthashes ∨ sh ∈ (World.mergeScripthashes info extra).2 := by
        intro sh
        unfold HeldFor
        rw [PendingTxs.mem_txidsFor, hnext, AList.lookup_insert]
        simp [hmerged]
      have hbefore : ∀ sh, HeldFor w p sh txid ↔ sh ∈ info.scripthashes := by
        intro sh
        unfold HeldFor
        rw [PendingTxs.mem_txidsFor, hinfo]
        simp
      refine ⟨fun sh hchange => ?_, fun _ _ heq hnone => ?_⟩
      · obtain ⟨txid', hne⟩ := hchange
        rw [hsent]
        by_cases htxid : txid' = txid
        · subst htxid
          rw [hheld, hbefore] at hne
          by_contra hmem
          exact hne (by simp [hmem])
        · refine absurd (heldFor_congr ?_) hne
          rw [hnext]
          exact AList.lookup_insert_ne htxid
      · cases heq
        rw [hsent, List.eq_nil_iff_forall_not_mem]
        intro sh hsh
        refine hnone sh ⟨txid, fun hiff => ?_⟩
        rw [hheld, hbefore] at hiff
        exact hadded sh hsh (hiff.1 (Or.inr hsh))

theorem announces_remove (txid : String) : (remove txid).Announces env p w := by
  cases hinfo : (w.pm p).pendingTxs.lookup txid with
  | none => exact announces_of_same (next_remove_nothing hinfo)
  | some info =>
    cases hpoison : env.pendingPoisoned w.tick with
    | true => exact announces_of_same (next_poisoned _ hpoison)
    | false =>
      have hnext := next_remove hpoison hinfo
      refine ⟨fun sh hchange => ?_, fun _ _ h => by cases h⟩
      obtain ⟨txid', hne⟩ := hchange
      rw [sent_eq (by rw [hnext])]
      by_cases htxid : txid' = txid
      · subst htxid
        by_contra hmem
        refine hne (iff_of_false (fun h => ?_) fun h => ?_)
        · obtain ⟨new, hnew, -⟩ := PendingTxs.mem_txidsFor.1 h
          rw [hnext, AList.lookup_erase] at hnew
          cases hnew
        · obtain ⟨old, hold, hsh⟩ := PendingTxs.mem_txidsFor.1 h
          rw [hinfo] at hold
          cases hold
          exact hmem hsh
      · refine absurd (heldFor_congr ?_) hne
        rw [hnext]
        exact AList.lookup_erase_ne htxid

/-- One operation announces what it changes if and only if it keeps the entry it replaces. -/
theorem announces_iff (op : MempoolOp) : op.Announces env p w ↔ op.KeepsEntry env p w := by
  cases op with
  | store txid info => exact announces_store_iff txid info
  | merge txid extra => exact iff_of_true (announces_merge txid extra) fun _ _ h => by cases h
  | remove txid => exact iff_of_true (announces_remove txid) fun _ _ h => by cases h

end

end MempoolOp

/-! ### Every sequence -/

/-- `P` holds of every operation of a sequence, in the world it meets. -/
def MempoolOp.Everywhere (env : Env) (p : Proc) (P : MempoolOp → World → Prop)
    (ops : List MempoolOp) (w : World) : Prop :=
  ∀ before op rest, ops = before ++ op :: rest → P op (MempoolOp.after env p before w)

/-- In a sequence of operations, each one announces what it changes if and only if each store
of a held txid names every scripthash of the entry it replaces. -/
theorem announces_everywhere_iff (env : Env) (p : Proc) (ops : List MempoolOp) (w : World) :
    MempoolOp.Everywhere env p (fun op w => op.Announces env p w) ops w ↔
      MempoolOp.Everywhere env p (fun op w => op.KeepsEntry env p w) ops w := by
  constructor
  · intro h before op rest hops
    exact (MempoolOp.announces_iff op).1 (h before op rest hops)
  · intro h before op rest hops
    exact (MempoolOp.announces_iff op).2 (h before op rest hops)

/-- The two stores of one broadcast, with an enrichment in between. -/
def enrichedBroadcast : List MempoolOp :=
  [.store "7" { txHex := "07", scripthashes := ["out"], outputs := [] }, .merge "7" ["in"],
    .store "7" { txHex := "07", scripthashes := ["out"], outputs := [] }]

/-- The second store takes the transaction away from the scripthash of its input, without a
message. -/
theorem second_store_drops_silently :
    ¬ MempoolOp.Everywhere sampleEnv .daemon (fun op w => op.Announces sampleEnv .daemon w)
      enrichedBroadcast sampleWorld := by
  intro h
  have hstep := h (enrichedBroadcast.take 2) _ [] rfl
  have hmem := hstep.announced "in" ⟨"7", by unfold HeldFor; decide⟩
  exact absurd hmem (by decide)

end BroadcastPool
