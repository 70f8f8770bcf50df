import BroadcastPool.Lib.Outcome
import BroadcastPool.Pool.Extraction
import BroadcastPool.Sample

/-!
# `BroadcastPool.Proofs.Mempool.Extraction`: two phases find what one function finds

A wallet's transaction is first stored with the scripthashes of its outputs, and those of its
inputs are added later. `two_phase_extraction` compares this with the one function that does
both: for a resolver that always gives the same answers, they find the same set, and a deadline
only makes each result smaller.

Both loops are a fold over the scripthashes that the inputs spend from (`addNew`). A deadline
cuts the inputs off somewhere.
-/

set_option autoImplicit false

namespace BroadcastPool

open Effects

/-! ### Adding what is new -/

/-- The scripthashes found so far and the new ones of a list, without those of `outputs`. -/
def addNew (outputs : List String) : List String → List String → List String
  | [], found => found
  | sh :: shs, found =>
    addNew outputs shs (if !outputs.contains sh && !found.contains sh then found ++ [sh] else found)

theorem mem_addNew_step {outputs found : List String} {s sh : String} :
    s ∈ (if !outputs.contains sh && !found.contains sh then found ++ [sh] else found) ↔
      s ∈ found ∨ (s = sh ∧ s ∉ outputs) := by
  by_cases hout : sh ∈ outputs
  · have hold : s = sh → s ∈ outputs := fun h => h ▸ hout
    simpa [hout] using fun h hs => absurd (hold h) hs
  · by_cases hfound : sh ∈ found
    · have hold : s = sh → s ∈ found := fun h => h ▸ hfound
      simpa [hout, hfound] using fun h _ => hold h
    · have hnew : s = sh → s ∉ outputs := fun h => h ▸ hout
      simp only [List.contains_eq_mem, hout, hfound, decide_false, Bool.not_false,
        Bool.and_true, if_true, List.mem_append, List.mem_singleton]
      exact or_congr_right (and_iff_left_of_imp hnew).symm

theorem mem_addNew {outputs shs found : List String} {s : String} :
    s ∈ addNew outputs shs found ↔ s ∈ found ∨ (s ∈ shs ∧ s ∉ outputs) := by
  induction shs generalizing found with
  | nil => simp [addNew]
  | cons sh shs ih =>
    rw [addNew, ih, mem_addNew_step, List.mem_cons, or_and_right, or_assoc]

theorem nodup_addNew {outputs shs found : List String} (h : found.Nodup) :
    (addNew outputs shs found).Nodup := by
  induction shs generalizing found with
  | nil => exact h
  | cons sh shs ih =>
    rw [addNew]
    refine ih ?_
    split
    · rename_i hnew
      have hfound : sh ∉ found := by simpa using (Bool.and_eq_true_iff.1 hnew).2
      exact List.nodup_append.2 ⟨h, List.nodup_singleton sh, fun a ha b hb => by
        rw [List.mem_singleton.1 hb]
        exact fun he => hfound (he ▸ ha)⟩
    · exact h

/-! ### The two loops -/

/-- The resolver returns, and what it returns for a txid is always the same. -/
def Resolves (answers : (a : Act) → a.Res → Prop) (resolve : String → M (Option Transaction))
    (resolved : String → Option Transaction) : Prop :=
  ∀ txid o, (resolve txid).Ends answers o ↔ o = .ok (resolved txid)

/-- All clock answers lie within a time that is shorter than the budget, so that no deadline
expires. -/
def InTime (answers : (a : Act) → a.Res → Prop) (budget : Nat) : Prop :=
  ∃ start, ∀ now, answers .instant now → start ≤ now ∧ now < start + budget

/-- The scripthashes that some inputs spend from. -/
def spentBy (env : Env) (resolved : String → Option Transaction) (inputs : List TxIn) :
    List String :=
  inputs.filterMap fun input => (resolved input.prevTxid).bind (spentScripthash env input)

variable {env : Env} {resolve : String → M (Option Transaction)}
  {resolved : String → Option Transaction} {answers : (a : Act) → a.Res → Prop}

theorem spentBy_none {input : TxIn} (inputs : List TxIn)
    (h : (resolved input.prevTxid).bind (spentScripthash env input) = none) :
    spentBy env resolved (input :: inputs) = spentBy env resolved inputs :=
  List.filterMap_cons_none h

theorem spentBy_some {input : TxIn} (inputs : List TxIn) {sh : String}
    (h : (resolved input.prevTxid).bind (spentScripthash env input) = some sh) :
    spentBy env resolved (input :: inputs) = sh :: spentBy env resolved inputs :=
  List.filterMap_cons_some h

/-- The full extraction adds what is new to the set of the outputs. -/
theorem timedLoop_eq (deadline : Nat) (inputs : List TxIn) (found : List String) :
    timedLoop env resolve deadline inputs found =
      enrichLoop env resolve deadline [] inputs found := by
  induction inputs generalizing found with
  | nil => rfl
  | cons input inputs ih =>
    unfold timedLoop enrichLoop
    simp only [ih]
    congr 1
    funext now
    split
    · rfl
    · congr 1
      funext prev
      cases prev.bind (spentScripthash env input) with
      | none => rfl
      | some sh =>
        by_cases hfound : sh ∈ found
        · simp [hfound]
        · simp [hfound]

/-- The loop stops somewhere: at the end of the inputs, or at the deadline. The induction is on
the inputs, for whatever has been found before them. -/
theorem ends_enrichLoop (hresolve : Resolves answers resolve resolved) {deadline : Nat}
    {outputs : List String} {inputs : List TxIn} {found : List String}
    {o : Except Failure (List String)}
    (h : (enrichLoop env resolve deadline outputs inputs found).Ends answers o) :
    ∃ reached, reached <+: inputs ∧
      o = .ok (addNew outputs (spentBy env resolved reached) found) ∧
      ((∀ now, answers .instant now → now < deadline) → reached = inputs) := by
  induction inputs generalizing found with
  | nil =>
    cases Prog.ends_ret_iff.1 h
    exact ⟨[], List.prefix_rfl, rfl, fun _ => rfl⟩
  | cons input inputs ih =>
    rcases Prog.ends_bind_iff.1 h with ⟨now, hnow, hrest⟩ | ⟨e, he, -⟩
    · obtain ⟨r, hanswer, hr⟩ := Prog.ends_perform_iff.1 hnow
      cases hr
      -- The deadline is looked at before each input, so what was found up to there is returned.
      by_cases hlate : deadline ≤ now
      · rw [if_pos hlate] at hrest
        cases Prog.ends_ret_iff.1 hrest
        refine ⟨[], List.nil_prefix, rfl, fun htime => ?_⟩
        exact absurd (htime now hanswer) (Nat.not_lt.2 hlate)
      · rw [if_neg hlate] at hrest
        rcases Prog.ends_bind_iff.1 hrest with ⟨prev, hprev, hrest⟩ | ⟨e, he, -⟩
        · cases (hresolve _ _).1 hprev
          -- An input whose previous output is not found adds nothing, and the loop goes on.
          cases hspent : (resolved input.prevTxid).bind (spentScripthash env input) with
          | none =>
            rw [hspent] at hrest
            obtain ⟨reached, hinitial, ho, hall⟩ := ih hrest
            refine ⟨input :: reached, List.cons_prefix_cons.2 ⟨rfl, hinitial⟩, ?_, ?_⟩
            · rw [spentBy_none _ hspent]
              exact ho
            · exact fun htime => by rw [hall htime]
          | some sh =>
            rw [hspent] at hrest
            obtain ⟨reached, hinitial, ho, hall⟩ := ih hrest
            refine ⟨input :: reached, List.cons_prefix_cons.2 ⟨rfl, hinitial⟩, ?_, ?_⟩
            · rw [spentBy_some _ hspent]
              exact ho
            · exact fun htime => by rw [hall htime]
        · cases (hresolve _ _).1 he
    · obtain ⟨r, -, hr⟩ := Prog.ends_perform_iff.1 he
      cases hr

theorem spentBy_mono {reached inputs : List TxIn} (h : reached <+: inputs) :
    spentBy env resolved reached ⊆ spentBy env resolved inputs :=
  (h.filterMap _).subset

/-! ### The two functions -/

section
variable {txHex : String} {tx : Transaction} {budget : Nat} {o : Except Failure (List String)}

/-- The scripthashes of the outputs. -/
def outputScripthashes (env : Env) (tx : Transaction) : List String :=
  tx.output.map fun out => env.scripthash out.scriptPubkey

theorem ends_enrichInputs (hresolve : Resolves answers resolve resolved)
    (htx : decodeTx env txHex = .ok tx)
    (h : (enrichInputs env resolve txHex budget).Ends answers o) :
    ∃ reached, reached <+: tx.input ∧
      o = .ok (addNew (outputScripthashes env tx) (spentBy env resolved reached) []) ∧
      (InTime answers budget → reached = tx.input) := by
  unfold enrichInputs at h
  rw [htx] at h
  rcases Prog.ends_bind_iff.1 h with ⟨start, hstart, hloop⟩ | ⟨e, he, -⟩
  · obtain ⟨r, hanswer, hr⟩ := Prog.ends_perform_iff.1 hstart
    cases hr
    obtain ⟨reached, hinitial, ho, hall⟩ := ends_enrichLoop hresolve hloop
    refine ⟨reached, hinitial, ho, fun htime => hall fun now hnow => ?_⟩
    obtain ⟨first, hwindow⟩ := htime
    have hfirst := (hwindow start hanswer).1
    exact lt_of_lt_of_le (hwindow now hnow).2 (Nat.add_le_add_right hfirst budget)
  · obtain ⟨r, -, hr⟩ := Prog.ends_perform_iff.1 he
    cases hr

theorem ends_extractTimed (hresolve : Resolves answers resolve resolved)
    (htx : decodeTx env txHex = .ok tx)
    (h : (extractAffectedScripthashesTimed env resolve txHex budget).Ends answers o) :
    ∃ reached, reached <+: tx.input ∧
      o = .ok (addNew [] (spentBy env resolved reached) (outputScripthashes env tx).dedup) ∧
      (InTime answers budget → reached = tx.input) := by
  unfold extractAffectedScripthashesTimed at h
  rw [htx] at h
  rcases Prog.ends_bind_iff.1 h with ⟨start, hstart, hloop⟩ | ⟨e, he, -⟩
  · obtain ⟨r, hanswer, hr⟩ := Prog.ends_perform_iff.1 hstart
    cases hr
    rw [timedLoop_eq] at hloop
    obtain ⟨reached, hinitial, ho, hall⟩ := ends_enrichLoop hresolve hloop
    refine ⟨reached, hinitial, ho, fun htime => hall fun now hnow => ?_⟩
    obtain ⟨first, hwindow⟩ := htime
    have hfirst := (hwindow start hanswer).1
    exact lt_of_lt_of_le (hwindow now hnow).2 (Nat.add_le_add_right hfirst budget)
  · obtain ⟨r, -, hr⟩ := Prog.ends_perform_iff.1 he
    cases hr

theorem extractOutputScripthashes_eq (htx : decodeTx env txHex = .ok tx) :
    extractOutputScripthashes env txHex = .ok (outputScripthashes env tx).dedup := by
  unfold extractOutputScripthashes
  rw [htx]
  rfl

end

/-- How the results of the three functions belong together. The fast result is `fast`. The
results under `timely` and `timely'` are those of runs in which no deadline expires, and the
results under `answers` may be cut off by it. -/
structure TwoPhases (env : Env) (resolve : String → M (Option Transaction))
    (timely timely' answers : (a : Act) → a.Res → Prop) (txHex : String) (budget budget' : Nat)
    (fast : List String) : Prop where
  /-- Both functions return. -/
  enrichReturns : ∀ o, (enrichInputs env resolve txHex budget).Ends answers o → ∃ a, o = .ok a
  fullReturns : ∀ o, (extractAffectedScripthashesTimed env resolve txHex budget').Ends answers o →
    ∃ a, o = .ok a
  /-- The two phases find what the full function finds. -/
  union : ∀ inputs full, (enrichInputs env resolve txHex budget).Ends timely (.ok inputs) →
    (extractAffectedScripthashesTimed env resolve txHex budget').Ends timely' (.ok full) →
      ∀ s, s ∈ full ↔ s ∈ fast ∨ s ∈ inputs
  /-- The second phase repeats nothing. -/
  nodup : ∀ inputs, (enrichInputs env resolve txHex budget).Ends answers (.ok inputs) →
    inputs.Nodup ∧ ∀ s ∈ inputs, s ∉ fast
  /-- A deadline makes each result smaller, and the full one keeps the outputs. -/
  enrichSubset : ∀ inputs late, (enrichInputs env resolve txHex budget).Ends timely (.ok inputs) →
    (enrichInputs env resolve txHex budget).Ends answers (.ok late) → late ⊆ inputs
  fullSubset : ∀ full late,
    (extractAffectedScripthashesTimed env resolve txHex budget').Ends timely' (.ok full) →
    (extractAffectedScripthashesTimed env resolve txHex budget').Ends answers (.ok late) →
      fast ⊆ late ∧ late ⊆ full

/-- Extraction in two phases finds what the full extraction finds with the same resolver. -/
theorem two_phase_extraction {timely timely' : (a : Act) → a.Res → Prop} {txHex : String}
    {tx : Transaction} {budget budget' : Nat} (htx : decodeTx env txHex = .ok tx)
    (htimely : Resolves timely resolve resolved) (htimely' : Resolves timely' resolve resolved)
    (hresolve : Resolves answers resolve resolved)
    (hbudget : InTime timely budget) (hbudget' : InTime timely' budget') :
    ∃ fast, extractOutputScripthashes env txHex = .ok fast ∧
      TwoPhases env resolve timely timely' answers txHex budget budget' fast := by
  refine ⟨_, extractOutputScripthashes_eq htx, ?_⟩
  -- Both always end, whatever the clock says. In time, the two phases together have the members of
  -- the full one; the second phase alone has no duplicates and none of the first; and a deadline
  -- only cuts off.
  constructor
  · intro o ho
    obtain ⟨reached, -, hok, -⟩ := ends_enrichInputs hresolve htx ho
    exact ⟨_, hok⟩
  · intro o ho
    obtain ⟨reached, -, hok, -⟩ := ends_extractTimed hresolve htx ho
    exact ⟨_, hok⟩
  · intro inputs full hinputs hfull s
    obtain ⟨reached, -, hok, hall⟩ := ends_enrichInputs htimely htx hinputs
    obtain ⟨reached', -, hok', hall'⟩ := ends_extractTimed htimely' htx hfull
    cases hok
    cases hok'
    rw [hall hbudget, hall' hbudget', mem_addNew, mem_addNew, List.mem_dedup]
    by_cases hout : s ∈ outputScripthashes env tx
    · simp [hout]
    · simp [hout]
  · intro inputs hinputs
    obtain ⟨reached, -, hok, -⟩ := ends_enrichInputs hresolve htx hinputs
    cases hok
    refine ⟨nodup_addNew List.nodup_nil, fun s hs => ?_⟩
    rw [mem_addNew] at hs
    rw [List.mem_dedup]
    exact (hs.resolve_left List.not_mem_nil).2
  · intro inputs late hinputs hlate s hs
    obtain ⟨reached, -, hok, hall⟩ := ends_enrichInputs htimely htx hinputs
    obtain ⟨reached', hinitial, hok', -⟩ := ends_enrichInputs hresolve htx hlate
    cases hok
    cases hok'
    rw [mem_addNew] at hs
    rw [hall hbudget, mem_addNew]
    obtain ⟨hspent, hout⟩ := hs.resolve_left List.not_mem_nil
    exact Or.inr ⟨spentBy_mono hinitial hspent, hout⟩
  · intro full late hfull hlate
    obtain ⟨reached, -, hok, hall⟩ := ends_extractTimed htimely' htx hfull
    obtain ⟨reached', hinitial, hok', -⟩ := ends_extractTimed hresolve htx hlate
    cases hok
    cases hok'
    refine ⟨fun s hs => mem_addNew.2 (Or.inl hs), fun s hs => ?_⟩
    rw [mem_addNew] at hs
    rw [hall hbudget', mem_addNew]
    rcases hs with hs | ⟨hspent, hnil⟩
    · exact Or.inl hs
    · exact Or.inr ⟨spentBy_mono hinitial hspent, hnil⟩

/-- A resolver that knows one previous transaction. -/
def sampleResolved (txid : String) : Option Transaction :=
  if txid = "7" then
    some { version := 7, lockTime := 0, input := [],
           output := [{ value := 1, scriptPubkey := [] }] }
  else none

/-- Answers in which the clock stands still, or runs on. -/
def clockAnswers (running : Bool) : (a : Act) → a.Res → Prop
  | .instant, now => running = true ∨ now = (0 : Nat)
  | _, _ => True

theorem two_phase_extraction_sample :
    ∃ fast, extractOutputScripthashes (chainEnv .null) "08" = .ok fast ∧
      TwoPhases (chainEnv .null) (fun txid => .ret (sampleResolved txid)) (clockAnswers false)
        (clockAnswers false) (clockAnswers true) "08" 8 9 fast :=
  two_phase_extraction rfl (fun _ _ => Prog.ends_ret_iff : Resolves _ _ sampleResolved)
    (fun _ _ => Prog.ends_ret_iff) (fun _ _ => Prog.ends_ret_iff)
    ⟨0, fun now h => by rcases h with h | rfl; cases h; exact ⟨Nat.le_refl _, by decide⟩⟩
    ⟨0, fun now h => by rcases h with h | rfl; cases h; exact ⟨Nat.le_refl _, by decide⟩⟩

end BroadcastPool
