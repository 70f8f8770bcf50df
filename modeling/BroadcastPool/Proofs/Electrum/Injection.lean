import BroadcastPool.Lib.Unlisted
import BroadcastPool.Proofs.Electrum.Coins
import BroadcastPool.Proofs.Electrum.History

/-!
# `BroadcastPool.Proofs.Electrum.Injection`: held entries in an answer of the indexer

`inject_in_history` and `inject_listunspent` append the held entries that the indexer does not list.
`Conservative` says what such a function has to do with two lists of held entries. Both functions
are instances of `appendUnlisted`, and `injections_conservative` takes the rules of that library to
them.

`inject_get_mempool` expects a pair of a fee and a list, and the protocol's answer is an array of
objects. An array of objects has no list at index 1, so everything that the indexer has said is
dropped, whatever its length (`injectGetMempool_entries`). The answer is right exactly if nothing is
held (`mempoolKept_iff`).
-/

set_option autoImplicit false

namespace BroadcastPool

open Unlisted

/-! ### Histories and coins -/

/-- The txid and the output index of a coin. -/
def coinName? (coin : Json) : Option (String × Nat) :=
  match txHash? coin, (coin.get? "tx_pos").bind Json.asU64? with
  | some txid, some pos => some (txid, pos)
  | _, _ => none

/-- The txid and the output index of a held output. -/
def HeldOutput.name (out : HeldOutput) : String × Nat := (out.1, out.2.1)

/-- What an injection does with an answer of the indexer and held entries that have names. -/
structure Conservative {H K : Type} (inject : List Json → List H → List Json)
    (name? : Json → Option K) (nameOf : H → K) (entry : H → Json) (upstream : List Json)
    (held held' : List H) : Prop where
  /-- The answer is kept, and the held entries follow in order that it does not list. -/
  adds : ∃ added : List H, inject upstream held = upstream ++ added.map entry ∧ added.Sublist held ∧
    added.Nodup ∧ ∀ x ∈ held, x ∈ added ↔ ∀ v ∈ upstream, name? v ≠ some (nameOf x)
  /-- What is added has the height of the mempool, and its own name. -/
  heights : ∀ x ∈ held, (entry x).get? "height" = some (.ofInt 0) ∧
    name? (entry x) = some (nameOf x)
  again : inject (inject upstream held) held = inject upstream held
  /-- Lists that name nothing in common are injected one after the other as they are together. -/
  together : (∀ x ∈ held, ∀ x' ∈ held', nameOf x ≠ nameOf x') →
    ∀ v, v ∈ inject (inject upstream held) held' ↔ v ∈ inject upstream (held ++ held')

/-- An injection that appends what is unlisted, with names of which it reads `key?`. -/
theorem conservative_of_appendUnlisted {H K : Type} [DecidableEq K]
    {inject : List Json → List H → List Json} {key? name? : Json → Option K} {nameOf : H → K}
    {entry : H → Json} {upstream : List Json} {held held' : List H}
    (hinject : inject = appendUnlisted key? nameOf entry)
    (hkey : ∀ v ∈ upstream, key? v = name? v) (hnodup : held.Nodup)
    (hentry : ∀ x ∈ held, (entry x).get? "height" = some (.ofInt 0) ∧
      key? (entry x) = some (nameOf x) ∧ name? (entry x) = some (nameOf x)) :
    Conservative inject name? nameOf entry upstream held held' := by
  subst hinject
  have hkeys : ∀ x ∈ held, key? (entry x) = some (nameOf x) := fun x hx => (hentry x hx).2.1
  refine ⟨⟨_, rfl, List.filter_sublist, hnodup.filter _, fun x hx => ?_⟩, fun x hx => ?_,
    appendUnlisted_again hkeys, fun hdisjoint v => ?_⟩
  · rw [List.mem_filter, decide_eq_true_eq, List.mem_filterMap]
    constructor
    · rintro ⟨-, hnot⟩ v hv hname
      exact hnot ⟨v, hv, (hkey v hv).trans hname⟩
    · intro hnot
      refine ⟨hx, ?_⟩
      rintro ⟨v, hv, hname⟩
      exact hnot v hv ((hkey v hv).symm.trans hname)
  · exact ⟨(hentry x hx).1, (hentry x hx).2.2⟩
  · rw [appendUnlisted_append hkeys hdisjoint]

theorem injectInHistory_eq :
    injectInHistory = appendUnlisted txHash? id historyEntry := rfl

theorem injectListunspent_eq :
    injectListunspent = appendUnlisted outpoint? HeldOutput.name heldCoin := by
  funext utxos held
  refine congrArg (utxos ++ ·) (congrArg (List.map heldCoin) ?_)
  exact List.filter_congr fun out _ => decide_eq_decide.2 Iff.rfl

/-- The index that the source cuts to 32 bits is the index of the coin, if it fits. -/
theorem outpoint?_eq_coinName? {coin : Json} (h : ∀ name ∈ coinName? coin, name.2 < 2 ^ 32) :
    outpoint? coin = coinName? coin := by
  unfold coinName? at h
  unfold outpoint? coinName?
  revert h
  cases txHash? coin with
  | none => exact fun _ => rfl
  | some txid =>
    cases (coin.get? "tx_pos").bind Json.asU64? with
    | none => exact fun _ => rfl
    | some pos =>
      intro h
      show some (txid, pos % 2 ^ 32) = some (txid, pos)
      rw [Nat.mod_eq_of_lt (h _ rfl)]

theorem coinName?_heldCoin (out : HeldOutput) : coinName? (heldCoin out) = some out.name := by
  have hpos : ((heldCoin out).get? "tx_pos").bind Json.asU64? = some out.2.1 := by
    show (Json.ofInt (out.2.1 : Int)).asU64? = _
    exact Json.asU64?_ofInt _
  unfold coinName?
  rw [hpos]
  rfl

/-- Both injections are conservative. The output indices are 32-bit numbers. -/
theorem injections_conservative :
    (∀ (history : List Json) (held held' : List String), held.Nodup →
      Conservative injectInHistory txHash? id historyEntry history held held') ∧
    ∀ (utxos : List Json) (held held' : List HeldOutput), held.Nodup →
      (∀ coin ∈ utxos, ∀ name ∈ coinName? coin, name.2 < 2 ^ 32) →
      (∀ out ∈ held, out.name.2 < 2 ^ 32) →
      Conservative injectListunspent coinName? HeldOutput.name heldCoin utxos held held' := by
  constructor
  · intro history held held' hnodup
    exact conservative_of_appendUnlisted injectInHistory_eq (fun _ _ => rfl) hnodup
      fun txid _ => ⟨rfl, rfl, rfl⟩
  · intro utxos held held' hnodup hutxos hheld
    refine conservative_of_appendUnlisted injectListunspent_eq
      (fun coin hcoin => outpoint?_eq_coinName? (hutxos coin hcoin)) hnodup
      fun out hout => ⟨rfl, ?_, coinName?_heldCoin out⟩
    rw [outpoint?_eq_coinName?, coinName?_heldCoin]
    intro name hname
    rw [coinName?_heldCoin] at hname
    cases hname
    exact hheld out hout

theorem injections_conservative_sample :
    Conservative injectInHistory txHash? id historyEntry [sampleEntry "aa" 5] ["aa", "bb"] ["cc"] ∧
      Conservative injectListunspent coinName? HeldOutput.name heldCoin [sampleCoin "aa" 5 7]
        [("aa", 0, 7), ("aa", 1, 9)] [("bb", 0, 3)] :=
  ⟨injections_conservative.1 _ _ _ (by decide),
    injections_conservative.2 _ _ _ (by decide) (by decide) (by decide)⟩

/-! ### The mempool of a scripthash -/

/-- An entry as the protocol gives it. -/
def IsMempoolEntry (v : Json) : Prop :=
  ∃ txid height fee, v.get? "tx_hash" = some (.str txid) ∧
    v.get? "height" = some (.ofInt height) ∧ v.get? "fee" = some (.ofInt fee)

/-- The entries of the answer, if the held txids are added to it. -/
structure MempoolKept (upstream : List Json) (held : List String) (items : List Json) : Prop where
  shape : ∀ v ∈ items, IsMempoolEntry v
  keeps : ∀ v ∈ upstream, v ∈ items
  once : ∀ txid ∈ held, txid ∉ upstream.filterMap txHash? →
    (items.countP fun v => txHash? v = some txid) = 1
  notTwice : ∀ txid, (items.countP fun v => txHash? v = some txid) ≤
    max 1 (upstream.countP fun v => txHash? v = some txid)

/-- An entry is an object, so it is no list and no number. -/
theorem IsMempoolEntry.not_array {v : Json} (h : IsMempoolEntry v) :
    v.asArray? = none ∧ v.asI64? = none := by
  obtain ⟨txid, height, fee, htxid, -⟩ := h
  cases v with
  | obj fields => exact ⟨rfl, rfl⟩
  | _ => cases htxid

/-- Something is held: nothing of the indexer's answer is left. -/
theorem injectGetMempool_entries {upstream : List Json} (hshape : ∀ v ∈ upstream, IsMempoolEntry v)
    {held : List String} (hheld : held ≠ []) :
    injectGetMempool (.arr upstream) held =
      .arr [.ofInt 0, .arr (held.map fun txid => .arr [.str txid, .ofInt 0, .ofInt 0])] := by
  have hall : held.filter (· ∉ ([] : List String)) = held := by simp
  unfold injectGetMempool
  rw [if_neg hheld]
  -- With two entries or more, the second one takes the place of the list.
  cases upstream with
  | nil => simp [emptyMempool, Json.asI64?, Json.ofInt]
  | cons fee rest =>
    cases rest with
    | nil => simp [emptyMempool, Json.asI64?, Json.ofInt]
    | cons list rest =>
      have hfee : fee.asI64? = none := (hshape fee (by simp)).not_array.2
      have hlist : list.asArray? = none := (hshape list (by simp)).not_array.1
      have hpair : ¬ (fee :: list :: rest).length < 2 := by simp
      simp only [Json.asArray?_arr, Option.getD_some, hpair, if_false, List.getElem?_cons_zero,
        List.getElem?_cons_succ, Option.bind_some, hfee, hlist, Option.getD_none,
        List.filterMap_nil, List.nil_append, hall]

/-- The answer keeps what the indexer has said exactly if nothing is held. -/
theorem mempoolKept_iff {upstream : List Json} (hshape : ∀ v ∈ upstream, IsMempoolEntry v)
    (held : List String) :
    (∃ items, injectGetMempool (.arr upstream) held = .arr items ∧
      MempoolKept upstream held items) ↔ held = [] := by
  constructor
  · rintro ⟨items, hitems, hkept⟩
    by_contra hheld
    rw [injectGetMempool_entries hshape hheld] at hitems
    cases hitems
    -- The first item is the fee, a number.
    obtain ⟨txid, height, fee, htxid, -⟩ := hkept.shape (.ofInt 0) (List.mem_cons_self ..)
    cases htxid
  · rintro rfl
    exact ⟨upstream, rfl, hshape, fun v hv => hv, fun txid h => (by cases h),
      fun txid => Nat.le_max_right _ _⟩

/-- An entry of a scripthash's mempool. -/
def sampleMempoolEntry (txid : String) : Json :=
  .obj [("fee", .ofInt 300), ("height", .ofInt 0), ("tx_hash", .str txid)]

theorem isMempoolEntry_sample (txid : String) : IsMempoolEntry (sampleMempoolEntry txid) :=
  ⟨txid, 0, 300, rfl, rfl, rfl⟩

/-- The indexer knows "aa", and "bb" is held. The wallet is told of "bb" only, in a pair. -/
theorem get_mempool_loses_entry :
    IsMempoolEntry (sampleMempoolEntry "aa") ∧
      ¬ ∃ items, injectGetMempool (.arr [sampleMempoolEntry "aa"]) ["bb"] = .arr items ∧
        MempoolKept [sampleMempoolEntry "aa"] ["bb"] items := by
  refine ⟨isMempoolEntry_sample "aa", ?_⟩
  rintro ⟨items, hitems, hkept⟩
  have hanswer : injectGetMempool (.arr [sampleMempoolEntry "aa"]) ["bb"] =
      .arr [.ofInt 0, .arr [.arr [.str "bb", .ofInt 0, .ofInt 0]]] := by decide
  rw [hanswer] at hitems
  cases hitems
  have hlost := hkept.keeps _ (List.mem_singleton_self _)
  revert hlost
  decide

theorem mempoolKept_iff_sample :
    let upstream := [sampleMempoolEntry "aa", sampleMempoolEntry "cc"]
    ((∃ items, injectGetMempool (.arr upstream) [] = .arr items ∧ MempoolKept upstream [] items) ↔
        ([] : List String) = []) ∧
      ((∃ items, injectGetMempool (.arr upstream) ["bb", "dd"] = .arr items ∧
          MempoolKept upstream ["bb", "dd"] items) ↔ ["bb", "dd"] = []) := by
  have hshape : ∀ v ∈ [sampleMempoolEntry "aa", sampleMempoolEntry "cc"], IsMempoolEntry v := by
    intro v hv
    simp only [List.mem_cons, List.not_mem_nil, or_false] at hv
    rcases hv with rfl | rfl
    · exact isMempoolEntry_sample "aa"
    · exact isMempoolEntry_sample "cc"
  exact ⟨mempoolKept_iff hshape [], mempoolKept_iff hshape ["bb", "dd"]⟩

end BroadcastPool
