import BroadcastPool.Lib.Outcome

/-!
# `BroadcastPool.Lib.Yields`: what a program returns, and what it did on the way

`Yields` is a postcondition on the complete paths of a program that return: it speaks about the
answers along the path, in their order, and the value at its end. So it says which actions a
program performs how often, whatever else runs at the same time. There is one rule for each way to
build a program. Where the parts of a program add up, `P` is closed under appending paths
(`yields_bind`), and a fact about the actions alone comes from `Prog.Uses` (`Uses.yields`).

`Concludes` is the same for all complete paths, with the ones that fail: for a program that cannot
fail it is what the program yields (`Yields.concludes`).

`learns_attempt_of_path` is the way back to `Prog.Learns`, for a program whose error says something
as well.
-/

set_option autoImplicit false

namespace Effects

namespace Prog

variable {Act : Type} {Res : Act → Type} {ε α β : Type}

/-- Every path of `p` that returns satisfies `P`. -/
def Yields (answers : (a : Act) → Res a → Prop) (P : List (Seen Act Res) → α → Prop)
    (p : Prog Act Res ε α) : Prop :=
  ∀ l a, p.Path answers l (.ok a) → P l a

variable {answers : (a : Act) → Res a → Prop} {P P' : List (Seen Act Res) → α → Prop}
variable {Q : List (Seen Act Res) → β → Prop}

theorem yields_ret {a : α} (h : P [] a) : (ret a : Prog Act Res ε α).Yields answers P := by
  intro l b hpath
  obtain ⟨rfl, hb⟩ := path_ret_iff.1 hpath
  cases hb
  exact h

theorem yields_fail (e : ε) : (fail e : Prog Act Res ε α).Yields answers P := by
  intro l b hpath
  cases hpath

theorem yields_perform {a : Act} {P : List (Seen Act Res) → Res a → Prop}
    (h : ∀ r, answers a r → P [⟨a, r⟩] r) :
    (perform a : Prog Act Res ε (Res a)).Yields answers P := by
  intro l b hpath
  obtain ⟨r, hr, rfl, hb⟩ := path_perform_iff.1 hpath
  cases hb
  exact h _ hr

/-- What the first part did and returned is known to the second one. -/
theorem yields_bind {p : Prog Act Res ε α} {f : α → Prog Act Res ε β} (hp : p.Yields answers P)
    (hf : ∀ l a, P l a → (f a).Yields answers fun l' b => Q (l ++ l') b) :
    (p.bind f).Yields answers Q := by
  intro l b hpath
  obtain ⟨a, l₁, l₂, h₁, h₂, rfl⟩ := path_bind_ok hpath
  exact hf l₁ a (hp l₁ a h₁) l₂ b h₂

theorem Yields.mono (h : ∀ l a, P l a → P' l a) {p : Prog Act Res ε α}
    (hp : p.Yields answers P) : p.Yields answers P' :=
  fun l a hpath => h l a (hp l a hpath)

/-- With fewer answers there are fewer paths. -/
theorem Yields.anti {answers' : (a : Act) → Res a → Prop} (h : ∀ a r, answers' a r → answers a r)
    {p : Prog Act Res ε α} (hp : p.Yields answers P) : p.Yields answers' P :=
  fun l a hpath => hp l a (hpath.mono h)

/-- A program of certain actions has nothing else on its paths. -/
theorem Uses.yields {U : Act → Prop} {p : Prog Act Res ε α} (hp : p.Uses U) :
    p.Yields answers fun l _ => ∀ s ∈ l, U s.1 :=
  fun _ _ hpath => hp.path hpath

/-! ### Paths that fail -/

/-- Every complete path of `p` satisfies `P`, with its outcome. -/
def Concludes (answers : (a : Act) → Res a → Prop)
    (P : List (Seen Act Res) → Except ε α → Prop) (p : Prog Act Res ε α) : Prop :=
  ∀ l o, p.Path answers l o → P l o

section
variable {P P' : List (Seen Act Res) → Except ε α → Prop}
variable {Q : List (Seen Act Res) → Except ε β → Prop}

theorem concludes_ret {a : α} (h : P [] (.ok a)) :
    (ret a : Prog Act Res ε α).Concludes answers P := by
  intro l o hpath
  obtain ⟨rfl, rfl⟩ := path_ret_iff.1 hpath
  exact h

theorem concludes_fail {e : ε} (h : P [] (.error e)) :
    (fail e : Prog Act Res ε α).Concludes answers P := by
  intro l o hpath
  obtain ⟨rfl, rfl⟩ := path_fail_iff.1 hpath
  exact h

/-- One action, and what follows each answer to it. -/
theorem concludes_perform_bind {a : Act} {f : Res a → Prog Act Res ε β}
    (hf : ∀ r, answers a r → (f r).Concludes answers fun l o => Q (⟨a, r⟩ :: l) o) :
    ((perform a).bind f).Concludes answers Q := by
  intro l o hpath
  obtain ⟨r, l', hr, hl, rfl⟩ := path_perform_bind_iff.1 hpath
  exact hf r hr l' o hl

/-- The whole fails where the first part does, or goes on with the second part. -/
theorem concludes_bind {p : Prog Act Res ε α} {f : α → Prog Act Res ε β}
    (hp : p.Concludes answers P) (herror : ∀ l e, P l (.error e) → Q l (.error e))
    (hf : ∀ l a, P l (.ok a) → (f a).Concludes answers fun l' o => Q (l ++ l') o) :
    (p.bind f).Concludes answers Q := by
  intro l o hpath
  rcases path_bind_iff.1 hpath with ⟨a, l₁, l₂, h₁, h₂, rfl⟩ | ⟨e, h, rfl⟩
  · exact hf l₁ a (hp l₁ _ h₁) l₂ o h₂
  · exact herror l e (hp l _ h)

theorem Concludes.mono (h : ∀ l o, P l o → P' l o) {p : Prog Act Res ε α}
    (hp : p.Concludes answers P) : p.Concludes answers P' :=
  fun l o hpath => h l o (hp l o hpath)

end

/-- A program that cannot fail concludes as it yields. -/
theorem Yields.concludes {P : List (Seen Act Res) → α → Prop} {p : Prog Act Res ε α}
    (hp : p.Yields answers P) (hno : p.NeverFails answers) :
    p.Concludes answers fun l o => ∃ a, o = .ok a ∧ P l a := by
  intro l o hpath
  cases o with
  | ok a => exact ⟨a, rfl, hp l a hpath⟩
  | error e => exact (hno e ⟨l, hpath⟩).elim

/-! ### Outcomes that are caught -/

/-- A path of a program whose outcome is caught. -/
theorem path_attempt_iff {p : Prog Act Res ε α} {l : List (Seen Act Res)}
    {x : Except ε (Except ε α)} :
    p.attempt.Path answers l x ↔ ∃ o, x = .ok o ∧ p.Path answers l o := by
  induction p generalizing l with
  | ret a =>
    refine path_ret_iff.trans ⟨?_, ?_⟩
    · rintro ⟨rfl, rfl⟩
      exact ⟨_, rfl, .ret a⟩
    · rintro ⟨o, rfl, hpath⟩
      obtain ⟨rfl, rfl⟩ := path_ret_iff.1 hpath
      exact ⟨rfl, rfl⟩
  | fail e =>
    refine path_ret_iff.trans ⟨?_, ?_⟩
    · rintro ⟨rfl, rfl⟩
      exact ⟨_, rfl, .fail e⟩
    · rintro ⟨o, rfl, hpath⟩
      obtain ⟨rfl, rfl⟩ := path_fail_iff.1 hpath
      exact ⟨rfl, rfl⟩
  | act a k ih =>
    constructor
    · intro h
      cases h with
      | act hr hl =>
        obtain ⟨o, rfl, hpath⟩ := (ih _).1 hl
        exact ⟨o, rfl, .act hr hpath⟩
    · rintro ⟨o, rfl, hpath⟩
      cases hpath with
      | act hr hl => exact .act hr ((ih _).2 ⟨o, rfl, hl⟩)

/-- What is known of the complete paths of a program is learnt when its outcome is caught, if its
actions are allowed in any case. -/
theorem learns_attempt_of_path {U : Act → Prop} {required : List (Seen Act Res) → Act → Prop}
    (hreq : ∀ a, U a → ∀ l, required l a) {p : Prog Act Res ε α} (huses : p.Uses U)
    {P : Except ε α → List (Seen Act Res) → Prop} (hp : ∀ l o, p.Path answers l o → P o l)
    (l₀ : List (Seen Act Res)) :
    p.attempt.Learns answers required l₀ fun o l => ∃ l', l' ⊆ l ∧ P o l' := by
  induction p generalizing l₀ P with
  | ret a => exact learns_ret fun l _ => ⟨[], List.nil_subset l, hp [] _ (.ret a)⟩
  | fail e => exact learns_ret fun l _ => ⟨[], List.nil_subset l, hp [] _ (.fail e)⟩
  | act a k ih =>
    obtain ⟨ha, hk⟩ := (uses_act_iff _ _).1 huses
    have hfirst : (perform a : Prog Act Res ε (Res a)).Learns answers required l₀
        fun r l => answers a r ∧ ⟨a, r⟩ ∈ l :=
      learns_perform (fun l _ => hreq a ha l) fun r l _ hr hmem => ⟨hr, hmem⟩
    refine learns_bind (p := .perform a) (f := fun r => (k r).attempt) hfirst
      fun r l₁ _ hanswer => ?_
    -- The rest of a path of `k r` is the rest of a path that starts with this answer.
    refine (ih r (hk r) (fun l o hpath => hp _ o (.act hanswer.1 hpath)) l₁).mono
      fun o l hsub hrest => ?_
    obtain ⟨l', hl', hP⟩ := hrest
    exact ⟨_, List.cons_subset.2 ⟨hsub hanswer.2, hl'⟩, hP⟩

end Prog

end Effects
