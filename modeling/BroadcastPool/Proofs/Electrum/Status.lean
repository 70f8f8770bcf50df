import BroadcastPool.Proofs.Electrum.Forward
import Mathlib

/-!
# `BroadcastPool.Proofs.Electrum.Status`: the status that is pushed to a wallet

The protocol's status of a history is the hash of its entries in the order of the history.
`compute_status_hash` sorts the entries by height and txid first. The text of a list of entries
determines their heights and txids (`statusText_injective`), so the two texts are equal exactly
if the history is in that order already (`pushedStatus_iff`). A history in the protocol's order
often is not: mempool entries come last there and have the heights 0 and -1, and the entries of
a block stand in the order of the block.
-/

set_option autoImplicit false

namespace BroadcastPool

open Effects

/-! ### The order of the hashed text -/

/-- What the status text says of an entry. -/
def statusKey (entry : Json) : Int × String := (heightOf entry, txHashOf entry)

/-- The text that `compute_status_hash` hashes. -/
def hashedText (history : List Json) : String :=
  statusText (history.insertionSort statusLe)

instance : Std.Total statusLe where
  total a b := by
    unfold statusLe
    rcases lt_trichotomy (heightOf a) (heightOf b) with h | h | h
    · exact Or.inl (Or.inl h)
    · rcases le_total (txHashOf a) (txHashOf b) with h' | h'
      · exact Or.inl (Or.inr ⟨h, h'⟩)
      · exact Or.inr (Or.inr ⟨h.symm, h'⟩)
    · exact Or.inr (Or.inl h)

instance : IsTrans Json statusLe where
  trans a b c := by
    rintro (hab | ⟨hab, hab'⟩) (hbc | ⟨hbc, hbc'⟩)
    · exact Or.inl (hab.trans hbc)
    · exact Or.inl (hbc ▸ hab)
    · exact Or.inl (hab ▸ hbc)
    · exact Or.inr ⟨hab.trans hbc, hab'.trans hbc'⟩

/-- Whether a list is in the order depends on what the text says of its entries. -/
theorem pairwise_statusLe_congr {xs ys : List Json}
    (h : xs.map statusKey = ys.map statusKey) (hxs : xs.Pairwise statusLe) :
    ys.Pairwise statusLe := by
  have hkeys : ∀ l : List Json, l.Pairwise statusLe ↔
      (l.map statusKey).Pairwise fun k l => k.1 < l.1 ∨ k.1 = l.1 ∧ k.2 ≤ l.2 := by
    intro l
    rw [List.pairwise_map]
    rfl
  rw [hkeys, ← h, ← hkeys]
  exact hxs

/-! ### Reading the text back -/

/-- A number is written without a colon. -/
theorem colon_notMem_toString (n : Int) : ':' ∉ (toString n).toList :=
  Text.notMem_toString_int (by decide) (by decide) n

theorem toList_statusText_cons (entry : Json) (history : List Json) :
    (statusText (entry :: history)).toList =
      (txHashOf entry).toList ++ ':' :: ((toString (heightOf entry)).toList ++
        ':' :: (statusText history).toList) := by
  have hjoin : statusText (entry :: history) = statusEntry entry ++ statusText history := by
    simp [statusText, String.join_cons]
  rw [hjoin]
  simp [statusEntry, String.toList_append]

/-- The text determines what it says of each entry, if no txid has a colon. -/
theorem statusText_injective {xs ys : List Json}
    (hxs : ∀ entry ∈ xs, ':' ∉ (txHashOf entry).toList)
    (hys : ∀ entry ∈ ys, ':' ∉ (txHashOf entry).toList)
    (h : statusText xs = statusText ys) : xs.map statusKey = ys.map statusKey := by
  induction xs generalizing ys with
  | nil =>
    cases ys with
    | nil => rfl
    | cons y ys =>
      have := congrArg String.toList h
      rw [toList_statusText_cons] at this
      simp [statusText] at this
  | cons x xs ih =>
    cases ys with
    | nil =>
      have := congrArg String.toList h
      rw [toList_statusText_cons] at this
      simp [statusText] at this
    | cons y ys =>
      have htext := congrArg String.toList h
      rw [toList_statusText_cons, toList_statusText_cons] at htext
      obtain ⟨htx, hrest⟩ := Text.append_sep_inj (hxs x (List.mem_cons_self ..))
        (hys y (List.mem_cons_self ..)) htext
      obtain ⟨hheight, hrest⟩ := Text.append_sep_inj (colon_notMem_toString _)
        (colon_notMem_toString _) hrest
      have hkey : statusKey x = statusKey y := by
        refine Prod.ext ?_ (String.toList_injective htx)
        have := String.toList_injective hheight
        rw [Int.toString_eq_repr, Int.toString_eq_repr] at this
        exact Int.repr_injective this
      rw [List.map_cons, List.map_cons, hkey,
        ih (fun e he => hxs e (List.mem_cons_of_mem _ he))
          (fun e he => hys e (List.mem_cons_of_mem _ he)) (String.toList_injective hrest)]

/-- The hashed text is that of the history itself exactly if the history is in the order of
the heights and txids. -/
theorem hashedText_eq_iff {history : List Json}
    (hcolon : ∀ entry ∈ history, ':' ∉ (txHashOf entry).toList) :
    hashedText history = statusText history ↔ history.Pairwise statusLe := by
  constructor
  · intro h
    have hsorted : ∀ entry ∈ history.insertionSort statusLe, ':' ∉ (txHashOf entry).toList :=
      fun entry hentry => hcolon entry ((List.mem_insertionSort _).1 hentry)
    exact pairwise_statusLe_congr (statusText_injective hsorted hcolon h)
      (List.pairwise_insertionSort statusLe history)
  · intro h
    unfold hashedText
    rw [h.insertionSort_eq]

/-! ### The push -/

section
variable {libs : ElectrumLibs} {env : Env} {p : Proc}

/-- An answer with a list is read as that history. -/
theorem run_fetchScripthashHistory {indexerUrl scripthash : String} {history : List Json}
    (hurl : indexerUrl ≠ "")
    (hanswers : Answers libs env (historyRequest scripthash) (.arr history)) (w : World) :
    (fetchScripthashHistory libs indexerUrl scripthash).run (World.exec env) w =
      (.ok history, w.ticked) := by
  obtain ⟨answer, msg, hanswer, hparse, hresult⟩ := hanswers w.tick
  have hexec : World.exec env (.forwardToIndexer (libs.toText (historyRequest scripthash))) w =
      (.ok answer, w.ticked) := by
    simp only [World.exec, World.effect, hanswer]
  have hread : historyOfAnswer libs answer = history := by
    simp only [historyOfAnswer, hparse, Option.bind_some, hresult, Json.asArray?_arr,
      Option.getD_some]
  unfold fetchScripthashHistory perform
  rw [if_neg hurl]
  simp only [Prog.bind_eq, Prog.run_bind, Prog.run_perform, hexec, hread, Prog.pure_eq_ret,
    Prog.run_ret]

/-- With nothing held, the answer to `subscribe` is the indexer's. -/
theorem run_modifyUpstreamResponse_subscribe {msg : Json} {scripthash : String} {w : World}
    (hheld : heldTxids env p w w.tick scripthash = []) :
    (modifyUpstreamResponse libs p msg "blockchain.scripthash.subscribe" scripthash).run
      (World.exec env) w = (.ok msg, w.ticked) := by
  unfold modifyUpstreamResponse
  rw [if_neg (by decide), if_pos rfl]
  simp only [Prog.bind_eq, Prog.run_bind, run_getPendingTxidsForScripthash, hheld]
  rfl

/-- With nothing held, the status that is pushed is the hash of a text that is the protocol's
exactly if the history is in the order of the heights and txids. -/
theorem pushStatus_hashes_protocolText_iff {w w' : World} {indexerUrl scripthash : String}
    {history : List Json}
    (hlive : (resolveLiveIndexerUrl p).run (World.exec env) w = (.ok indexerUrl, w'))
    (hurl : indexerUrl ≠ "")
    (hheld : heldTxids env p w' w'.tick scripthash = [])
    (hanswers : Answers libs env (historyRequest scripthash) (.arr history))
    (hcolon : ∀ entry ∈ history, ':' ∉ (txHashOf entry).toList) :
    (∃ pushed, (w'.ticked.ticked, Act.writeClient pushed) ∈
        (pushStatus libs p scripthash).trace (World.exec env) w ∧
      pushed = libs.toText (statusNotification scripthash
        (if history = [] then none else some (libs.sha256Hex (hashedText history)))) ++ "\n") ∧
      (hashedText history = statusText history ↔ history.Pairwise statusLe) := by
  refine ⟨⟨_, ?_, rfl⟩, hashedText_eq_iff hcolon⟩
  have hstatus : computeModifiedStatusHash libs.sha256Hex history [] =
      if history = [] then none else some (libs.sha256Hex (hashedText history)) := by
    unfold computeModifiedStatusHash computeStatusHash injectInHistory hashedText
    simp
  unfold pushStatus
  simp only [Prog.bind_eq, Prog.trace_bind, hlive, run_getPendingTxidsForScripthash, hheld,
    run_fetchScripthashHistory hurl hanswers]
  simp only [perform, Prog.perform, Prog.trace, Prog.run, List.mem_append]
  refine Or.inr (Or.inr (Or.inr (Or.inl ?_)))
  rw [hstatus]
  exact List.mem_singleton_self _

end

/-- The protocol's order: the confirmed entries by height, and then the mempool entries. -/
def ElectrumOrder (history : List Json) : Prop :=
  ∃ confirmed mempool, history = confirmed ++ mempool ∧
    (∀ entry ∈ confirmed, 0 < heightOf entry) ∧
    (confirmed.Pairwise fun a b => heightOf a ≤ heightOf b) ∧
    ∀ entry ∈ mempool, heightOf entry = 0 ∨ heightOf entry = -1

/-- A mempool entry after a confirmed one is hashed before it. -/
theorem mempool_entry_hashed_first :
    ElectrumOrder [sampleEntry "aa" 5, sampleEntry "bb" 0] ∧
      hashedText [sampleEntry "aa" 5, sampleEntry "bb" 0] ≠
        statusText [sampleEntry "aa" 5, sampleEntry "bb" 0] := by
  refine ⟨⟨[sampleEntry "aa" 5], [sampleEntry "bb" 0], rfl, by decide, by simp, by decide⟩, ?_⟩
  decide

/-- A history of three entries, in the order of their heights and txids. -/
def orderedHistory : List Json := [sampleEntry "cc" 3, sampleEntry "aa" 5, sampleEntry "bb" 5]

theorem pushStatus_hashes_protocolText_iff_sample :
    let answer := resultResponse (.ofInt 1) (.arr orderedHistory)
    ((∃ pushed, (sampleWorld.ticked.ticked.ticked, Act.writeClient pushed) ∈
        (pushStatus (sampleLibs [answer]) .daemon "ab").trace (World.exec (answeringEnv answer))
          sampleWorld ∧
      pushed = sampleText (statusNotification "ab"
        (if orderedHistory = [] then none else some (hashedText orderedHistory))) ++ "\n") ∧
      (hashedText orderedHistory = statusText orderedHistory ↔
        orderedHistory.Pairwise statusLe)) ∧
      hashedText orderedHistory = "cc:3:aa:5:bb:5:" := by
  refine ⟨?_, by decide⟩
  exact @pushStatus_hashes_protocolText_iff
    (sampleLibs [resultResponse (.ofInt 1) (.arr orderedHistory)]) _ _ _ _ _ _ _ rfl
    (by decide) rfl (answers_sample _ _ (by decide +kernel)) (by decide)

end BroadcastPool
