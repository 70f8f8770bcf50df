import Mathlib.Tactic.Basic

/-!
# `BroadcastPool.Lib.Prog`: programs as trees of actions

A program over a set of actions is a tree: it returns a value, fails with an error, or
performs one action and continues with the answer. `Prog` has no state of its own. A
`Handler` gives each action a meaning on a state, and `run` executes a program against it.
`trace` lists the actions that the run performs, each with the state it was performed in.

`wp` is the weakest precondition of a program under a `Contract`. A contract says which
answers and next states an action can have, what may be assumed when it is performed, and
what must hold there. The same `wp` serves three uses. With a handler's graph as the step
relation it speaks about runs (`run_trace_of_wp`). With the list of past answers as
the state it speaks about every path of one program, whatever the other programs of the
system do. With a one-element state it speaks about every action of the tree.

`Keeps` is the invariant form, and `Gives` adds what a returned value satisfies. `Uses` says
which actions a program can perform at all, and `keeps_of_uses` turns a fact about these
actions into an invariant of the program. `forEach` is the loop whose body cannot leave
early. `CutAt` are the states in which a run can be cut off by a crash.
-/

set_option autoImplicit false

namespace Effects

variable {Act : Type} {Res : Act → Type} {ε α β S : Type}

/-- A program: a value, an error, or one action and the rest of the program for each
answer. -/
inductive Prog (Act : Type) (Res : Act → Type) (ε α : Type) : Type
  | ret (a : α)
  | fail (e : ε)
  | act (a : Act) (k : Res a → Prog Act Res ε α)

namespace Prog

/-- Run `p`, then `f` on its value. An error of `p` ends the whole program. -/
def bind : Prog Act Res ε α → (α → Prog Act Res ε β) → Prog Act Res ε β
  | .ret a, f => f a
  | .fail e, _ => .fail e
  | .act a k, f => .act a fun r => (k r).bind f

instance : Monad (Prog Act Res ε) where
  pure := .ret
  bind := bind

instance : MonadExcept ε (Prog Act Res ε) where
  throw := .fail
  tryCatch p handler :=
    let rec go : Prog Act Res ε _ → Prog Act Res ε _
      | .ret a => .ret a
      | .fail e => handler e
      | .act a k => .act a fun r => go (k r)
    go p

/-- The program that performs one action and returns its answer. -/
def perform (a : Act) : Prog Act Res ε (Res a) :=
  .act a .ret

/-- Turn a computed result into a program: its error becomes the program's error. -/
def ofExcept : Except ε α → Prog Act Res ε α
  | .ok a => .ret a
  | .error e => .fail e

/-- Fail with `e` unless `c` holds. -/
def ensure (c : Prop) [Decidable c] (e : ε) : Prog Act Res ε Unit :=
  if c then .ret () else .fail e

/-- Run `p` and return its outcome, error included. This program does not fail itself. -/
def attempt : Prog Act Res ε α → Prog Act Res ε (Except ε α)
  | .ret a => .ret (.ok a)
  | .fail e => .ret (.error e)
  | .act a k => .act a fun r => (k r).attempt

/-- Run `body` on every element in turn. The first error ends the loop. -/
def forEach : List β → (β → Prog Act Res ε Unit) → Prog Act Res ε Unit
  | [], _ => .ret ()
  | x :: xs, body => (body x).bind fun _ => forEach xs body

end Prog

/-- A handler answers each action and moves the state. -/
abbrev Handler (Act : Type) (Res : Act → Type) (S : Type) : Type :=
  (a : Act) → S → Res a × S

/-- The handler that also takes notes on every action and its answer. -/
def Handler.noting {G : Type} (h : Handler Act Res S) (note : G → (a : Act) × Res a → G) :
    Handler Act Res (S × G) :=
  fun a (s, g) => ((h a s).1, (h a s).2, note g ⟨a, (h a s).1⟩)

namespace Prog

/-- Execute a program against a handler. -/
def run (h : Handler Act Res S) : Prog Act Res ε α → S → Except ε α × S
  | .ret a, s => (.ok a, s)
  | .fail e, s => (.error e, s)
  | .act a k, s => (k (h a s).1).run h (h a s).2

/-- The actions a run performs, in order, each with the state before it. -/
def trace (h : Handler Act Res S) : Prog Act Res ε α → S → List (S × Act)
  | .ret _, _ => []
  | .fail _, _ => []
  | .act a k, s => (s, a) :: (k (h a s).1).trace h (h a s).2

@[simp] theorem run_ret (h : Handler Act Res S) (a : α) (s : S) :
    (ret a : Prog Act Res ε α).run h s = (.ok a, s) := rfl

@[simp] theorem run_fail (h : Handler Act Res S) (e : ε) (s : S) :
    (fail e : Prog Act Res ε α).run h s = (.error e, s) := rfl

@[simp] theorem run_act (h : Handler Act Res S) (a : Act) (k : Res a → Prog Act Res ε α)
    (s : S) : (act a k).run h s = (k (h a s).1).run h (h a s).2 := rfl

@[simp] theorem run_perform (h : Handler Act Res S) (a : Act) (s : S) :
    (perform a : Prog Act Res ε (Res a)).run h s = (.ok (h a s).1, (h a s).2) := rfl

@[simp] theorem pure_eq_ret (a : α) : (pure a : Prog Act Res ε α) = ret a := rfl

@[simp] theorem throw_eq_fail (e : ε) : (throw e : Prog Act Res ε α) = fail e := rfl

@[simp] theorem bind_eq (p : Prog Act Res ε α) (f : α → Prog Act Res ε β) :
    p >>= f = p.bind f := rfl

theorem bind_assoc {γ : Type} (p : Prog Act Res ε α) (f : α → Prog Act Res ε β)
    (g : β → Prog Act Res ε γ) : (p.bind f).bind g = p.bind fun a => (f a).bind g := by
  induction p with
  | ret a => rfl
  | fail e => rfl
  | act a k ih => exact congrArg (act a) (funext ih)

/-- A run of `p.bind f` is a run of `p` and then, if `p` returned, a run of `f`. -/
theorem run_bind (h : Handler Act Res S) (p : Prog Act Res ε α)
    (f : α → Prog Act Res ε β) (s : S) :
    (p.bind f).run h s =
      match p.run h s with
      | (.ok a, s') => (f a).run h s'
      | (.error e, s') => (.error e, s') := by
  induction p generalizing s with
  | ret a => rfl
  | fail e => rfl
  | act a k ih => exact ih _ _

/-- `attempt` performs the same run and returns the outcome. -/
theorem run_attempt (h : Handler Act Res S) (p : Prog Act Res ε α) (s : S) :
    p.attempt.run h s = (.ok (p.run h s).1, (p.run h s).2) := by
  induction p generalizing s with
  | ret a => rfl
  | fail e => rfl
  | act a k ih => exact ih _ _

/-- The actions a run performs, in order, each with its answer. -/
def answers (h : Handler Act Res S) : Prog Act Res ε α → S → List ((a : Act) × Res a)
  | .ret _, _ => []
  | .fail _, _ => []
  | .act a k, s => ⟨a, (h a s).1⟩ :: (k (h a s).1).answers h (h a s).2

/-- What every action with such an answer keeps holds after the run. -/
theorem run_of_answers (h : Handler Act Res S) {I : S → Prop} {P : ((a : Act) × Res a) → Prop}
    (hstep : ∀ a s, P ⟨a, (h a s).1⟩ → I s → I (h a s).2) (p : Prog Act Res ε α) (s : S)
    (hp : ∀ e ∈ p.answers h s, P e) (hs : I s) : I (p.run h s).2 := by
  induction p generalizing s with
  | ret a => exact hs
  | fail e => exact hs
  | act a k ih =>
    exact ih _ _ (fun e he => hp e (List.mem_cons_of_mem _ he))
      (hstep a s (hp _ (List.mem_cons_self ..)) hs)

/-- A run against a handler that takes notes is the plain run, with the notes on its answers. -/
theorem run_noting {G : Type} (h : Handler Act Res S) (note : G → (a : Act) × Res a → G)
    (p : Prog Act Res ε α) (s : S) (g : G) :
    p.run (h.noting note) (s, g) =
      ((p.run h s).1, (p.run h s).2, (p.answers h s).foldl note g) := by
  induction p generalizing s g with
  | ret a => rfl
  | fail e => rfl
  | act a k ih => exact ih _ _ _

/-- The trace of `p.bind f` is the trace of `p`, followed by that of `f` if `p` returned. -/
theorem trace_bind (h : Handler Act Res S) (p : Prog Act Res ε α)
    (f : α → Prog Act Res ε β) (s : S) :
    (p.bind f).trace h s =
      p.trace h s ++
        match p.run h s with
        | (.ok a, s') => (f a).trace h s'
        | (.error _, _) => [] := by
  induction p generalizing s with
  | ret a => rfl
  | fail e => rfl
  | act a k ih => exact congrArg ((s, a) :: ·) (ih _ _)

end Prog

/-- What a proof knows about the actions of a program. `step s a r s'` says that action `a`,
performed in `s`, can answer `r` and leave `s'`. `assumed s a` may be used when `a` is
performed in `s`, and `required s a` has to be shown there. -/
structure Contract (Act : Type) (Res : Act → Type) (S : Type) where
  step : S → (a : Act) → Res a → S → Prop
  assumed : S → Act → Prop
  required : S → Act → Prop

/-- The contract of a handler: every action has the one answer the handler gives. -/
def Handler.contract (h : Handler Act Res S) (assumed required : S → Act → Prop) :
    Contract Act Res S where
  step s a r s' := h a s = (r, s')
  assumed := assumed
  required := required

namespace Prog

/-- The weakest precondition: from `s`, every action whose assumptions hold meets its
requirement, and every outcome satisfies `Q`. -/
def wp (c : Contract Act Res S) :
    Prog Act Res ε α → (Except ε α → S → Prop) → S → Prop
  | .ret a, Q, s => Q (.ok a) s
  | .fail e, Q, s => Q (.error e) s
  | .act a k, Q, s =>
      c.assumed s a → c.required s a ∧ ∀ r s', c.step s a r s' → (k r).wp c Q s'

variable {c : Contract Act Res S}

@[simp] theorem wp_ret (a : α) (Q : Except ε α → S → Prop) (s : S) :
    (ret a : Prog Act Res ε α).wp c Q s = Q (.ok a) s := rfl

@[simp] theorem wp_fail (e : ε) (Q : Except ε α → S → Prop) (s : S) :
    (fail e : Prog Act Res ε α).wp c Q s = Q (.error e) s := rfl

theorem wp_act (a : Act) (k : Res a → Prog Act Res ε α) (Q : Except ε α → S → Prop)
    (s : S) :
    (act a k).wp c Q s =
      (c.assumed s a → c.required s a ∧ ∀ r s', c.step s a r s' → (k r).wp c Q s') := rfl

theorem wp_perform (a : Act) (Q : Except ε (Res a) → S → Prop) (s : S) :
    (perform a : Prog Act Res ε (Res a)).wp c Q s =
      (c.assumed s a → c.required s a ∧ ∀ r s', c.step s a r s' → Q (.ok r) s') := rfl

/-- Weakest preconditions compose. An error of `p` has to satisfy `Q` as it is. -/
theorem wp_bind (p : Prog Act Res ε α) (f : α → Prog Act Res ε β)
    (Q : Except ε β → S → Prop) (s : S) :
    (p.bind f).wp c Q s ↔
      p.wp c (fun o s' => match o with
        | .ok a => (f a).wp c Q s'
        | .error e => Q (.error e) s') s := by
  induction p generalizing s with
  | ret a => exact Iff.rfl
  | fail e => exact Iff.rfl
  | act a k ih =>
    simp only [bind, wp_act, ih]

/-- A weaker postcondition has a weaker precondition. -/
theorem wp_mono {Q Q' : Except ε α → S → Prop} (hQ : ∀ o s, Q o s → Q' o s)
    (p : Prog Act Res ε α) (s : S) (hp : p.wp c Q s) : p.wp c Q' s := by
  induction p generalizing s with
  | ret a => exact hQ _ _ hp
  | fail e => exact hQ _ _ hp
  | act a k ih =>
    intro ha
    obtain ⟨hreq, hk⟩ := hp ha
    exact ⟨hreq, fun r s' hs => ih r s' (hk r s' hs)⟩

theorem wp_attempt (p : Prog Act Res ε α) (Q : Except ε (Except ε α) → S → Prop) (s : S) :
    p.attempt.wp c Q s ↔ p.wp c (fun o s' => Q (.ok o) s') s := by
  induction p generalizing s with
  | ret a => exact Iff.rfl
  | fail e => exact Iff.rfl
  | act a k ih =>
    simp only [attempt, wp_act, ih]

@[simp] theorem wp_ofExcept (x : Except ε α) (Q : Except ε α → S → Prop) (s : S) :
    (ofExcept x : Prog Act Res ε α).wp c Q s = Q x s := by
  cases x <;> rfl

@[simp] theorem wp_ensure (g : Prop) [Decidable g] (e : ε) (Q : Except ε Unit → S → Prop)
    (s : S) :
    (ensure g e : Prog Act Res ε Unit).wp c Q s ↔
      (g → Q (.ok ()) s) ∧ (¬ g → Q (.error e) s) := by
  unfold ensure
  split <;> simp_all

/-! ### Invariants of a program -/

/-- `p` keeps `I`: from a state in `I`, whatever the outcome, the state is in `I` again. -/
def Keeps (c : Contract Act Res S) (I : S → Prop) (p : Prog Act Res ε α) : Prop :=
  ∀ s, I s → p.wp c (fun _ => I) s

variable {I : S → Prop}

theorem keeps_ret (a : α) : Keeps c I (ret a : Prog Act Res ε α) := fun _ hs => hs

theorem keeps_fail (e : ε) : Keeps c I (fail e : Prog Act Res ε α) := fun _ hs => hs

theorem keeps_ensure (g : Prop) [Decidable g] (e : ε) :
    Keeps c I (ensure g e : Prog Act Res ε Unit) :=
  fun s hs => by simp [hs]

/-- One action keeps `I` if every step it can take does, and its requirement follows from
`I`. -/
theorem keeps_perform (a : Act)
    (h : ∀ s, I s → c.assumed s a → c.required s a ∧ ∀ r s', c.step s a r s' → I s') :
    Keeps c I (perform a : Prog Act Res ε (Res a)) :=
  fun s hs => h s hs

theorem keeps_bind {p : Prog Act Res ε α} {f : α → Prog Act Res ε β} (hp : Keeps c I p)
    (hf : ∀ a, Keeps c I (f a)) : Keeps c I (p.bind f) := by
  intro s hs
  refine (wp_bind p f _ s).2 (wp_mono ?_ p s (hp s hs))
  intro o s' hs'
  cases o with
  | ok a => exact hf a s' hs'
  | error e => exact hs'

/-- After `ensure g`, the rest of the program may use `g`. -/
theorem keeps_ensure_bind {g : Prop} [Decidable g] {e : ε} {f : Unit → Prog Act Res ε α}
    (h : g → Keeps c I (f ())) : Keeps c I ((ensure g e).bind f) := by
  intro s hs
  refine (wp_bind _ f _ s).2 ((wp_ensure g e _ s).2 ⟨fun hg => ?_, fun _ => hs⟩)
  exact h hg s hs

theorem keeps_attempt {p : Prog Act Res ε α} (hp : Keeps c I p) : Keeps c I p.attempt :=
  fun s hs => (wp_attempt p _ s).2 (hp s hs)

/-- A loop keeps what its body keeps. The induction is on the list that is left. -/
theorem keeps_forEach (xs : List β) {body : β → Prog Act Res ε Unit}
    (h : ∀ x ∈ xs, Keeps c I (body x)) : Keeps c I (forEach xs body) := by
  induction xs with
  | nil => exact keeps_ret ()
  | cons x xs ih =>
    exact keeps_bind (h x (List.mem_cons_self ..))
      fun _ => ih fun y hy => h y (List.mem_cons_of_mem _ hy)

/-- What every action keeps, every program keeps. -/
theorem keeps_all (h : ∀ a s, I s → c.assumed s a →
    c.required s a ∧ ∀ r s', c.step s a r s' → I s') (p : Prog Act Res ε α) : Keeps c I p := by
  induction p with
  | ret a => exact keeps_ret a
  | fail e => exact keeps_fail e
  | act a k ih =>
    intro s hs ha
    obtain ⟨hreq, hstep⟩ := h a s hs ha
    exact ⟨hreq, fun r s' hs' => ih r s' (hstep r s' hs')⟩

/-- `p` keeps `I`, and a value it returns satisfies `P`. -/
def Gives (c : Contract Act Res S) (I : S → Prop) (P : α → Prop)
    (p : Prog Act Res ε α) : Prop :=
  ∀ s, I s → p.wp c (fun o s' => I s' ∧ ∀ a, o = .ok a → P a) s

variable {P : α → Prop} {Q : β → Prop}

theorem gives_ret {a : α} (h : P a) : Gives c I P (ret a : Prog Act Res ε α) := by
  intro s hs
  refine ⟨hs, fun b hb => ?_⟩
  cases hb
  exact h

theorem gives_fail (e : ε) : Gives c I P (fail e : Prog Act Res ε α) :=
  fun _ hs => ⟨hs, fun _ hb => by cases hb⟩

theorem Keeps.gives {p : Prog Act Res ε α} (hp : Keeps c I p) :
    Gives c I (fun _ => True) p :=
  fun s hs => wp_mono (fun _ _ h => ⟨h, fun _ _ => trivial⟩) p s (hp s hs)

theorem Gives.keeps {p : Prog Act Res ε α} (hp : Gives c I P p) : Keeps c I p :=
  fun s hs => wp_mono (fun _ _ h => h.1) p s (hp s hs)

theorem Gives.mono {P' : α → Prop} (h : ∀ a, P a → P' a) {p : Prog Act Res ε α}
    (hp : Gives c I P p) : Gives c I P' p :=
  fun s hs => wp_mono (fun _ _ hw => ⟨hw.1, fun a ha => h a (hw.2 a ha)⟩) p s (hp s hs)

/-- The rest of the program may use what the value of the first part satisfies. -/
theorem gives_bind {p : Prog Act Res ε α} {f : α → Prog Act Res ε β} (hp : Gives c I P p)
    (hf : ∀ a, P a → Gives c I Q (f a)) : Gives c I Q (p.bind f) := by
  intro s hs
  refine (wp_bind p f _ s).2 (wp_mono ?_ p s (hp s hs))
  intro o s' hs'
  cases o with
  | ok a => exact hf a (hs'.2 a rfl) s' hs'.1
  | error e => exact ⟨hs'.1, fun b hb => by cases hb⟩

theorem Gives.keeps_bind {p : Prog Act Res ε α} {f : α → Prog Act Res ε β}
    (hp : Gives c I P p) (hf : ∀ a, P a → Keeps c I (f a)) : Keeps c I (p.bind f) :=
  (gives_bind hp fun a ha => (hf a ha).gives).keeps

/-- `p` keeps `I` and returns a value that satisfies `P`: it does not fail. -/
def Returns (c : Contract Act Res S) (I : S → Prop) (P : α → Prop)
    (p : Prog Act Res ε α) : Prop :=
  ∀ s, I s → p.wp c (fun o s' => I s' ∧ ∃ a, o = .ok a ∧ P a) s

theorem returns_ret {a : α} (h : P a) : Returns c I P (ret a : Prog Act Res ε α) :=
  fun _ hs => ⟨hs, a, rfl, h⟩

theorem Returns.mono {P' : α → Prop} (h : ∀ a, P a → P' a) {p : Prog Act Res ε α}
    (hp : Returns c I P p) : Returns c I P' p :=
  fun s hs => wp_mono (fun _ _ ⟨hI, a, ho, ha⟩ => ⟨hI, a, ho, h a ha⟩) p s (hp s hs)

/-- What follows a program that returns. -/
theorem Returns.wp_bind {p : Prog Act Res ε α} {f : α → Prog Act Res ε β}
    (hp : Returns c I P p) {R : Except ε β → S → Prop}
    (hf : ∀ a, P a → ∀ s, I s → (f a).wp c R s) {s : S} (hs : I s) : (p.bind f).wp c R s := by
  refine (Prog.wp_bind p f _ s).2 (wp_mono ?_ p s (hp s hs))
  rintro o s' ⟨hI, a, rfl, ha⟩
  exact hf a ha s' hI

theorem returns_bind {p : Prog Act Res ε α} {f : α → Prog Act Res ε β}
    (hp : Returns c I P p) (hf : ∀ a, P a → Returns c I Q (f a)) : Returns c I Q (p.bind f) :=
  fun _ hs => hp.wp_bind (fun a ha => hf a ha) hs

/-- One action whose every step keeps `I` and has an answer in `P`. -/
theorem returns_perform {a : Act} {P : Res a → Prop}
    (h : ∀ s, I s → c.assumed s a →
      c.required s a ∧ ∀ r s', c.step s a r s' → I s' ∧ P r) :
    Returns c I P (perform a : Prog Act Res ε (Res a)) := by
  intro s hs ha
  obtain ⟨hreq, hstep⟩ := h s hs ha
  exact ⟨hreq, fun r s' hrs => ⟨(hstep r s' hrs).1, r, rfl, (hstep r s' hrs).2⟩⟩

/-- A program that returns does not fail when it is attempted either. -/
theorem Returns.attempt {p : Prog Act Res ε α} (hp : Returns c I P p) :
    Returns c I (fun o => ∃ a, o = .ok a ∧ P a) p.attempt := by
  intro s hs
  refine (wp_attempt p _ s).2 (wp_mono ?_ p s (hp s hs))
  rintro o s' ⟨hI, a, rfl, ha⟩
  exact ⟨hI, _, rfl, a, rfl, ha⟩

/-! ### The actions a program can perform -/

/-- Every action of the tree satisfies `P`, whatever the answers are. -/
def Uses (P : Act → Prop) : Prog Act Res ε α → Prop
  | .ret _ => True
  | .fail _ => True
  | .act a k => P a ∧ ∀ r, (k r).Uses P

section Uses
variable {P P' : Act → Prop}

@[simp] theorem uses_ret (a : α) : (ret a : Prog Act Res ε α).Uses P := trivial

@[simp] theorem uses_fail (e : ε) : (fail e : Prog Act Res ε α).Uses P := trivial

@[simp] theorem uses_perform (a : Act) :
    (perform a : Prog Act Res ε (Res a)).Uses P ↔ P a := by
  simp [perform, Uses]

@[simp] theorem uses_ofExcept (x : Except ε α) :
    (ofExcept x : Prog Act Res ε α).Uses P := by
  cases x <;> trivial

@[simp] theorem uses_ensure (g : Prop) [Decidable g] (e : ε) :
    (ensure g e : Prog Act Res ε Unit).Uses P := by
  unfold ensure
  split <;> trivial

theorem uses_act_iff (a : Act) (k : Res a → Prog Act Res ε α) :
    (act a k).Uses P ↔ P a ∧ ∀ r, (k r).Uses P := Iff.rfl

theorem uses_bind {p : Prog Act Res ε α} {f : α → Prog Act Res ε β} (hp : p.Uses P)
    (hf : ∀ a, (f a).Uses P) : (p.bind f).Uses P := by
  induction p with
  | ret a => exact hf a
  | fail e => trivial
  | act a k ih => exact ⟨hp.1, fun r => ih r (hp.2 r)⟩

/-- What follows `ensure g` may use `g`. -/
theorem uses_ensure_bind {g : Prop} [Decidable g] {e : ε} {f : Unit → Prog Act Res ε α}
    (h : g → (f ()).Uses P) : ((ensure g e).bind f).Uses P := by
  unfold ensure
  split
  · rename_i hg
    exact h hg
  · trivial

theorem uses_attempt {p : Prog Act Res ε α} (hp : p.Uses P) : p.attempt.Uses P := by
  induction p with
  | ret a => trivial
  | fail e => trivial
  | act a k ih => exact ⟨hp.1, fun r => ih r (hp.2 r)⟩

theorem uses_forEach (xs : List β) {body : β → Prog Act Res ε Unit}
    (h : ∀ x ∈ xs, (body x).Uses P) : (forEach xs body).Uses P := by
  induction xs with
  | nil => trivial
  | cons x xs ih =>
    exact uses_bind (h x (List.mem_cons_self ..))
      fun _ => ih fun y hy => h y (List.mem_cons_of_mem _ hy)

theorem Uses.mono (h : ∀ a, P a → P' a) {p : Prog Act Res ε α} (hp : p.Uses P) :
    p.Uses P' := by
  induction p with
  | ret a => trivial
  | fail e => trivial
  | act a k ih => exact ⟨h a hp.1, fun r => ih r (hp.2 r)⟩

theorem Uses.and {p : Prog Act Res ε α} (hp : p.Uses P) (hp' : p.Uses P') :
    p.Uses fun a => P a ∧ P' a := by
  induction p with
  | ret a => trivial
  | fail e => trivial
  | act a k ih => exact ⟨⟨hp.1, hp'.1⟩, fun r => ih r (hp.2 r) (hp'.2 r)⟩

/-- A program keeps what each of its actions keeps. -/
theorem keeps_of_uses
    (h : ∀ a, P a → ∀ s, I s → c.assumed s a →
      c.required s a ∧ ∀ r s', c.step s a r s' → I s')
    {p : Prog Act Res ε α} (hp : p.Uses P) : Keeps c I p := by
  induction p with
  | ret a => exact keeps_ret a
  | fail e => exact keeps_fail e
  | act a k ih =>
    intro s hs ha
    obtain ⟨hreq, hstep⟩ := h a hp.1 s hs ha
    exact ⟨hreq, fun r s' hr => ih r (hp.2 r) s' (hstep r s' hr)⟩

/-- The actions a run performs are actions of the tree. -/
theorem trace_of_uses (h : Handler Act Res S) {p : Prog Act Res ε α} (hp : p.Uses P)
    (s : S) : ∀ e ∈ p.trace h s, P e.2 := by
  induction p generalizing s with
  | ret a => simp [trace]
  | fail e => simp [trace]
  | act a k ih =>
    intro e he
    rcases List.mem_cons.1 he with rfl | he
    · exact hp.1
    · exact ih _ (hp.2 _) _ e he

theorem answers_of_uses (h : Handler Act Res S) {p : Prog Act Res ε α} (hp : p.Uses P)
    (s : S) : ∀ e ∈ p.answers h s, P e.1 := by
  induction p generalizing s with
  | ret a => simp [answers]
  | fail e => simp [answers]
  | act a k ih =>
    intro e he
    rcases List.mem_cons.1 he with rfl | he
    · exact hp.1
    · exact ih _ (hp.2 _) _ e he

/-- What the actions of a program keep holds after its run. -/
theorem run_of_uses (h : Handler Act Res S) {I : S → Prop}
    (hkeep : ∀ a s, P a → I s → I (h a s).2) {p : Prog Act Res ε α} (hp : p.Uses P) {s : S}
    (hs : I s) : I (p.run h s).2 :=
  run_of_answers h (fun a s ha => hkeep a s ha) p s (answers_of_uses h hp s) hs

/-- What an answer of the run brings about, and the actions keep, holds after the run. -/
theorem run_of_mem_answers (h : Handler Act Res S) {I : S → Prop}
    {brings : ((a : Act) × Res a) → Prop} (hkeep : ∀ a s, P a → I s → I (h a s).2)
    (hbring : ∀ a s, brings ⟨a, (h a s).1⟩ → I (h a s).2) {p : Prog Act Res ε α} (hp : p.Uses P)
    {s : S} (hmem : ∃ e ∈ p.answers h s, brings e) : I (p.run h s).2 := by
  induction p generalizing s with
  | ret a =>
    obtain ⟨e, he, -⟩ := hmem
    cases he
  | fail e =>
    obtain ⟨e, he, -⟩ := hmem
    cases he
  | act a k ih =>
    obtain ⟨-, hk⟩ := (uses_act_iff a k).1 hp
    obtain ⟨e, he, hbrings⟩ := hmem
    rcases List.mem_cons.1 he with rfl | he
    · exact run_of_uses h hkeep (hk _) (hbring a s hbrings)
    · exact ih _ (hk _) ⟨e, he, hbrings⟩

/-- A program whose actions leave the notes alone leaves them alone. -/
theorem run_noting_of_uses {G : Type} (h : Handler Act Res S)
    {note : G → (a : Act) × Res a → G} (hnote : ∀ a, P a → ∀ g r, note g ⟨a, r⟩ = g)
    {p : Prog Act Res ε α} (hp : p.Uses P) (s : S) (g : G) :
    ((p.run (h.noting note) (s, g)).2).2 = g := by
  rw [run_noting]
  have hsame : ∀ e ∈ p.answers h s, note g e = g :=
    fun e he => hnote e.1 (answers_of_uses h hp s e he) g e.2
  generalize p.answers h s = es at hsame
  induction es with
  | nil => rfl
  | cons e es ih =>
    rw [List.foldl_cons, hsame e (List.mem_cons_self ..)]
    exact ih fun e he => hsame e (List.mem_cons_of_mem _ he)

end Uses

/-! ### From the weakest precondition to runs -/

/-- One action of a handler. -/
theorem wp_perform_handler (h : Handler Act Res S) {assumed required : S → Act → Prop}
    (a : Act) (Q : Except ε (Res a) → S → Prop) (s : S)
    (hQ : assumed s a → required s a ∧ Q (.ok (h a s).1) (h a s).2) :
    (perform a : Prog Act Res ε (Res a)).wp (h.contract assumed required) Q s := by
  intro ha
  refine ⟨(hQ ha).1, fun r s' hstep => ?_⟩
  have hrs : h a s = (r, s') := hstep
  have := (hQ ha).2
  rw [hrs] at this
  exact this

/-- One action of a handler that keeps `I` and answers in `P`. -/
theorem returns_perform_handler (h : Handler Act Res S) {assumed required : S → Act → Prop}
    {I : S → Prop} {a : Act} {P : Res a → Prop}
    (hstep : ∀ s, I s → required s a ∧ I (h a s).2 ∧ P (h a s).1) :
    Returns (h.contract assumed required) I P (perform a : Prog Act Res ε (Res a)) := by
  intro s hs
  obtain ⟨hreq, hI, hP⟩ := hstep s hs
  exact wp_perform_handler h a _ s fun _ => ⟨hreq, hI, _, rfl, hP⟩

/-- An action that the contract excludes needs no proof. -/
theorem wp_perform_excluded {a : Act} {Q : Except ε (Res a) → S → Prop} {s : S}
    (h : ¬ c.assumed s a) : (perform a : Prog Act Res ε (Res a)).wp c Q s :=
  fun ha => absurd ha h

/-- A run whose actions meet the assumptions ends in the postcondition, and every action it
performs meets its requirement. -/
theorem run_trace_of_wp (h : Handler Act Res S) {assumed required : S → Act → Prop}
    {Q : Except ε α → S → Prop} (p : Prog Act Res ε α) (s : S)
    (hp : p.wp (h.contract assumed required) Q s)
    (hmeets : ∀ e ∈ p.trace h s, assumed e.1 e.2) :
    Q (p.run h s).1 (p.run h s).2 ∧ ∀ e ∈ p.trace h s, required e.1 e.2 := by
  induction p generalizing s with
  | ret a => exact ⟨hp, by simp [trace]⟩
  | fail e => exact ⟨hp, by simp [trace]⟩
  | act a k ih =>
    obtain ⟨hreq, hk⟩ := hp (hmeets (s, a) (List.mem_cons_self ..))
    obtain ⟨hQ, hrest⟩ := ih _ _ (hk _ _ rfl)
      fun e he => hmeets e (List.mem_cons_of_mem _ he)
    refine ⟨hQ, fun e he => ?_⟩
    rcases List.mem_cons.1 he with rfl | he
    · exact hreq
    · exact hrest e he

/-- A run of which every action meets its requirement ends as it ends. -/
theorem wp_of_trace (h : Handler Act Res S) {required : S → Act → Prop} (p : Prog Act Res ε α)
    (s : S) (hmeets : ∀ e ∈ p.trace h s, required e.1 e.2) :
    p.wp (h.contract (fun _ _ => True) required) (fun o s' => (o, s') = p.run h s) s := by
  induction p generalizing s with
  | ret a => exact (wp_ret _ _ _).mpr rfl
  | fail e => exact (wp_fail _ _ _).mpr rfl
  | act a k ih =>
    rw [wp_act]
    intro _
    refine ⟨hmeets (s, a) (List.mem_cons_self ..), fun r s' hstep => ?_⟩
    have hrs : h a s = (r, s') := hstep
    rw [run_act, hrs]
    refine ih r s' fun e he => hmeets e (List.mem_cons_of_mem _ ?_)
    rw [hrs]
    exact he

/-- Where nothing is assumed and nothing is required, `wp` is the postcondition of the run. -/
theorem wp_plain_iff (h : Handler Act Res S) (p : Prog Act Res ε α)
    (Q : Except ε α → S → Prop) (s : S) :
    p.wp (h.contract (fun _ _ => True) fun _ _ => True) Q s ↔
      Q (p.run h s).1 (p.run h s).2 := by
  constructor
  · intro hp
    exact (run_trace_of_wp h p s hp fun _ _ => trivial).1
  · intro hQ
    induction p generalizing s with
    | ret a => exact hQ
    | fail e => exact hQ
    | act a k ih =>
      refine fun _ => ⟨trivial, fun r s' hstep => ?_⟩
      have hnext : h a s = (r, s') := hstep
      rw [run_act, hnext] at hQ
      exact ih r s' hQ

/-- A run from `s` can be cut off in `s'`: before one of its actions, or after the last. -/
def CutAt (h : Handler Act Res S) (p : Prog Act Res ε α) (s s' : S) : Prop :=
  s' = (p.run h s).2 ∨ ∃ a, (s', a) ∈ p.trace h s

/-- What holds before every action and at the end holds where a run is cut off. -/
theorem cutAt_of_wp (h : Handler Act Res S) {I : S → Prop} {p : Prog Act Res ε α} {s s' : S}
    (hp : p.wp (h.contract (fun _ _ => True) fun s _ => I s) (fun _ => I) s)
    (hcut : p.CutAt h s s') : I s' := by
  obtain ⟨hend, htrace⟩ := run_trace_of_wp h p s hp fun _ _ => trivial
  rcases hcut with rfl | ⟨a, ha⟩
  · exact hend
  · exact htrace (s', a) ha

-- From here on the rules above are the way to a `wp` and to a `Uses`. Unfolding them would
-- evaluate the program.
attribute [irreducible] wp Uses

end Prog

end Effects
