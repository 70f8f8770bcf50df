import BroadcastPool.Lib.Prog

/-!
# `BroadcastPool.Lib.Sequence`: programs run one after the other

`runs` lists the states between the programs of a list, and `runsTrace` the actions they
perform. `runs_invariant` is the induction over the list: what every program keeps, as long
as its actions meet the assumptions, holds in every one of these states.
-/

set_option autoImplicit false

namespace Effects

variable {Act : Type} {Res : Act → Type} {ε S : Type}

/-- The state after each program of the list, run from `s` in order. A program that fails
ends there, and the next one starts. -/
def runs (h : Handler Act Res S) : S → List (Prog Act Res ε Unit) → List S
  | _, [] => []
  | s, p :: ps => (p.run h s).2 :: runs h (p.run h s).2 ps

/-- The actions these runs perform, in order. -/
def runsTrace (h : Handler Act Res S) : S → List (Prog Act Res ε Unit) → List (S × Act)
  | _, [] => []
  | s, p :: ps => p.trace h s ++ runsTrace h (p.run h s).2 ps

variable {h : Handler Act Res S} {assumed required : S → Act → Prop} {I : S → Prop}

/-- One program of the sequence: it keeps `I`, and its actions meet the requirement. -/
theorem run_keeps {p : Prog Act Res ε Unit}
    (hp : p.Keeps (h.contract assumed required) I) {s : S} (hs : I s)
    (hmeets : ∀ e ∈ p.trace h s, assumed e.1 e.2) :
    I (p.run h s).2 ∧ ∀ e ∈ p.trace h s, required e.1 e.2 :=
  Prog.run_trace_of_wp h p s (hp s hs) hmeets

/-- If every program keeps `I` and every action meets the assumptions, then `I` holds after
each program, and every action meets the requirement. -/
theorem runs_invariant (ps : List (Prog Act Res ε Unit))
    (hp : ∀ p ∈ ps, p.Keeps (h.contract assumed required) I) (s : S) (hs : I s)
    (hmeets : ∀ e ∈ runsTrace h s ps, assumed e.1 e.2) :
    (∀ s' ∈ runs h s ps, I s') ∧ ∀ e ∈ runsTrace h s ps, required e.1 e.2 := by
  induction ps generalizing s with
  | nil => simp [runs, runsTrace]
  | cons p ps ih =>
    obtain ⟨hnext, hreq⟩ := run_keeps (hp p (List.mem_cons_self ..)) hs
      fun e he => hmeets e (List.mem_append_left _ he)
    obtain ⟨hstates, hrest⟩ := ih (fun q hq => hp q (List.mem_cons_of_mem _ hq)) _ hnext
      fun e he => hmeets e (List.mem_append_right _ he)
    refine ⟨fun s' hs' => ?_, fun e he => ?_⟩
    · rcases List.mem_cons.1 hs' with rfl | hs'
      · exact hnext
      · exact hstates s' hs'
    · rcases List.mem_append.1 he with he | he
      · exact hreq e he
      · exact hrest e he

end Effects
