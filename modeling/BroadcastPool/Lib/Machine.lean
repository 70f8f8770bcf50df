/-!
# `BroadcastPool.Lib.Machine`: transition systems and their reachable states

A `Machine` has initial states and labelled steps. `Machine.Run` is a finite run from one state
to another, and `Machine.Reachable` a state at the end of a run from an initial one. What holds
initially and is kept by every step holds in every reachable state (`Reachable.invariant`), and a
fact about runs is proved from any state on (`Run.invariant`).
-/

set_option autoImplicit false

namespace Effects

variable {S L : Type}

/-- Initial states and labelled steps. -/
structure Machine (S L : Type) where
  init : S → Prop
  step : S → L → S → Prop

namespace Machine
variable {m : Machine S L}

/-- A finite run with its labels, the first one first. -/
inductive Run (m : Machine S L) : S → List L → S → Prop
  | nil (s : S) : Run m s [] s
  | cons {s s' s'' : S} {l : L} {ls : List L} (hstep : m.step s l s') (hrun : Run m s' ls s'') :
      Run m s (l :: ls) s''

/-- A state at the end of a run from an initial state. -/
inductive Reachable (m : Machine S L) : S → Prop
  | init {s : S} (h : m.init s) : Reachable m s
  | step {s s' : S} {l : L} (h : Reachable m s) (hstep : m.step s l s') : Reachable m s'

/-- What every step of a run keeps, if it may depend on the label. -/
theorem Run.invariant {I : S → Prop} {A : L → Prop}
    (hkeep : ∀ s l s', m.step s l s' → A l → I s → I s') {s s' : S} {ls : List L}
    (hrun : m.Run s ls s') (hallowed : ∀ l ∈ ls, A l) (hs : I s) : I s' := by
  induction hrun with
  | nil s => exact hs
  | cons hstep _ ih =>
    refine ih (fun l hl => hallowed l (List.mem_cons_of_mem _ hl)) ?_
    exact hkeep _ _ _ hstep (hallowed _ (List.mem_cons_self ..)) hs

/-- One run after another. -/
theorem Run.append {s s' s'' : S} {ls ls' : List L} (hrun : m.Run s ls s')
    (hrun' : m.Run s' ls' s'') : m.Run s (ls ++ ls') s'' := by
  induction hrun with
  | nil s => exact hrun'
  | cons hstep _ ih => exact .cons hstep (ih hrun')

/-- What holds initially and is kept by every step. -/
theorem Reachable.invariant {I : S → Prop} (hinit : ∀ s, m.init s → I s)
    (hkeep : ∀ s l s', m.step s l s' → I s → I s') {s : S} (h : m.Reachable s) : I s := by
  induction h with
  | init hs => exact hinit _ hs
  | step _ hstep ih => exact hkeep _ _ _ hstep ih

/-- A run from a reachable state ends in one. -/
theorem Reachable.run {s s' : S} {ls : List L} (h : m.Reachable s) (hrun : m.Run s ls s') :
    m.Reachable s' := by
  induction hrun with
  | nil s => exact h
  | cons hstep _ ih => exact ih (h.step hstep)

end Machine

end Effects
