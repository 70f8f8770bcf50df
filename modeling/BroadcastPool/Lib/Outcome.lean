import BroadcastPool.Lib.Interleave
import Mathlib.Data.List.Forall2

/-!
# `BroadcastPool.Lib.Outcome`: how a program can end

`Ends` says that a program can end with an outcome when every answer satisfies a relation,
whatever the other programs do. It has a rule for each way to build a program, in both
directions, so that what a program can do is computed and not only bounded.

`Within` bounds the errors: every error that the program can end with is in a set. A program
without errors always returns (`Within.returns`), and so an error of a sequence is one of its
first part, or one of its second part after some value of the first (`ends_bind_error_iff`).

`Reaches` says that the program can perform a step, on a path that may end in any way.

A function that can fail, on a list: `mapM` returns exactly if it returns on every element
(`mapM_eq_ok_iff`), and its error is the one of the first element where it fails
(`mapM_eq_error_iff`). A loop that ends at its first failure does all that would succeed exactly if
no failure comes before a success (`takeWhile_eq_filter_iff`).
-/

set_option autoImplicit false

namespace Effects

namespace Prog

variable {Act : Type} {Res : Act → Type} {ε α β : Type}

/-- The program can end with the outcome. -/
def Ends (answers : (a : Act) → Res a → Prop) (p : Prog Act Res ε α) (o : Except ε α) : Prop :=
  ∃ l, p.Path answers l o

variable {answers : (a : Act) → Res a → Prop}

theorem ends_ret_iff {a : α} {o : Except ε α} :
    (ret a : Prog Act Res ε α).Ends answers o ↔ o = .ok a := by
  constructor
  · rintro ⟨l, h⟩
    exact (path_ret_iff.1 h).2
  · rintro rfl
    exact ⟨[], .ret a⟩

theorem ends_fail_iff {e : ε} {o : Except ε α} :
    (fail e : Prog Act Res ε α).Ends answers o ↔ o = .error e := by
  constructor
  · rintro ⟨l, h⟩
    exact (path_fail_iff.1 h).2
  · rintro rfl
    exact ⟨[], .fail e⟩

theorem ends_perform_iff {a : Act} {o : Except ε (Res a)} :
    (perform a : Prog Act Res ε (Res a)).Ends answers o ↔ ∃ r, answers a r ∧ o = .ok r := by
  constructor
  · rintro ⟨l, h⟩
    obtain ⟨r, hr, -, ho⟩ := path_perform_iff.1 h
    exact ⟨r, hr, ho⟩
  · rintro ⟨r, hr, rfl⟩
    exact ⟨_, path_perform_iff.2 ⟨r, hr, rfl, rfl⟩⟩

theorem ends_bind_iff {p : Prog Act Res ε α} {f : α → Prog Act Res ε β} {o : Except ε β} :
    (p.bind f).Ends answers o ↔
      (∃ a, p.Ends answers (.ok a) ∧ (f a).Ends answers o) ∨
        ∃ e, p.Ends answers (.error e) ∧ o = .error e := by
  constructor
  · rintro ⟨l, h⟩
    rcases path_bind_iff.1 h with ⟨a, l₁, l₂, hp, hf, -⟩ | ⟨e, hp, ho⟩
    · exact Or.inl ⟨a, ⟨l₁, hp⟩, l₂, hf⟩
    · exact Or.inr ⟨e, ⟨l, hp⟩, ho⟩
  · rintro (⟨a, ⟨l₁, hp⟩, l₂, hf⟩ | ⟨e, ⟨l, hp⟩, rfl⟩)
    · exact ⟨l₁ ++ l₂, path_bind_iff.2 (Or.inl ⟨a, l₁, l₂, hp, hf, rfl⟩)⟩
    · exact ⟨l, path_bind_iff.2 (Or.inr ⟨e, hp, rfl⟩)⟩

theorem ends_bind_ok_iff {p : Prog Act Res ε α} {f : α → Prog Act Res ε β} {b : β} :
    (p.bind f).Ends answers (.ok b) ↔
      ∃ a, p.Ends answers (.ok a) ∧ (f a).Ends answers (.ok b) := by
  rw [ends_bind_iff]
  refine ⟨fun h => h.resolve_right ?_, Or.inl⟩
  rintro ⟨e, -, he⟩
  cases he

theorem ends_bind_error_iff {p : Prog Act Res ε α} {f : α → Prog Act Res ε β} {e : ε} :
    (p.bind f).Ends answers (.error e) ↔
      p.Ends answers (.error e) ∨
        ∃ a, p.Ends answers (.ok a) ∧ (f a).Ends answers (.error e) := by
  rw [ends_bind_iff, Or.comm]
  refine or_congr_left ?_
  constructor
  · rintro ⟨e', hp, he⟩
    cases he
    exact hp
  · exact fun hp => ⟨e, hp, rfl⟩

/-- Some outcome there is, if every action has an answer. -/
theorem exists_ends (hanswers : ∀ a, ∃ r, answers a r) (p : Prog Act Res ε α) :
    ∃ o, p.Ends answers o := by
  induction p with
  | ret a => exact ⟨_, ends_ret_iff.2 rfl⟩
  | fail e => exact ⟨_, ends_fail_iff.2 rfl⟩
  | act a k ih =>
    obtain ⟨r, hr⟩ := hanswers a
    obtain ⟨o, l, hl⟩ := ih r
    exact ⟨o, _, .act hr hl⟩

/-! ### Bounds on the errors -/

/-- Every error that the program can end with is in `E`. -/
def Within (answers : (a : Act) → Res a → Prop) (E : ε → Prop) (p : Prog Act Res ε α) : Prop :=
  ∀ e, p.Ends answers (.error e) → E e

variable {E E' : ε → Prop}

theorem within_ret (a : α) : (ret a : Prog Act Res ε α).Within answers E := by
  intro e h
  cases ends_ret_iff.1 h

theorem within_fail {e : ε} (h : E e) : (fail e : Prog Act Res ε α).Within answers E := by
  intro e' he
  cases ends_fail_iff.1 he
  exact h

theorem within_perform (a : Act) :
    (perform a : Prog Act Res ε (Res a)).Within answers E := by
  intro e h
  obtain ⟨r, -, hr⟩ := ends_perform_iff.1 h
  cases hr

theorem within_ensure (g : Prop) [Decidable g] {e : ε} (h : E e) :
    (ensure g e : Prog Act Res ε Unit).Within answers E := by
  unfold ensure
  split
  · exact within_ret ()
  · exact within_fail h

theorem within_bind {p : Prog Act Res ε α} {f : α → Prog Act Res ε β}
    (hp : p.Within answers E) (hf : ∀ a, p.Ends answers (.ok a) → (f a).Within answers E) :
    (p.bind f).Within answers E := by
  intro e h
  rcases ends_bind_error_iff.1 h with h | ⟨a, ha, h⟩
  · exact hp e h
  · exact hf a ha e h

/-- The same, where the rest does not depend on what the first part can return. -/
theorem within_seq {p : Prog Act Res ε α} {f : α → Prog Act Res ε β}
    (hp : p.Within answers E) (hf : ∀ a, (f a).Within answers E) :
    (p.bind f).Within answers E :=
  within_bind hp fun a _ => hf a

theorem Within.mono (h : ∀ e, E e → E' e) {p : Prog Act Res ε α} (hp : p.Within answers E) :
    p.Within answers E' :=
  fun e he => h e (hp e he)

/-- With fewer answers a program has fewer errors. -/
theorem Within.anti {answers' : (a : Act) → Res a → Prop} (h : ∀ a r, answers' a r → answers a r)
    {p : Prog Act Res ε α} (hp : p.Within answers E) : p.Within answers' E := by
  rintro e ⟨l, hpath⟩
  exact hp e ⟨l, hpath.mono h⟩

/-- An attempted program ends as the program does, but without an error. -/
theorem ends_attempt_iff {p : Prog Act Res ε α} {o : Except ε (Except ε α)} :
    p.attempt.Ends answers o ↔ ∃ o', p.Ends answers o' ∧ o = .ok o' := by
  induction p generalizing o with
  | ret a =>
    constructor
    · exact fun h => ⟨_, ends_ret_iff.2 rfl, ends_ret_iff.1 h⟩
    · rintro ⟨o', h, rfl⟩
      cases ends_ret_iff.1 h
      exact ends_ret_iff.2 rfl
  | fail e =>
    constructor
    · exact fun h => ⟨_, ends_fail_iff.2 rfl, ends_ret_iff.1 h⟩
    · rintro ⟨o', h, rfl⟩
      cases ends_fail_iff.1 h
      exact ends_ret_iff.2 rfl
  | act a k ih =>
    constructor
    · rintro ⟨l, h⟩
      cases h with
      | act hr hl =>
        obtain ⟨o', ⟨l', h'⟩, ho⟩ := (ih _).1 ⟨_, hl⟩
        exact ⟨o', ⟨_, .act hr h'⟩, ho⟩
    · rintro ⟨o', ⟨l, h⟩, rfl⟩
      cases h with
      | act hr hl =>
        obtain ⟨l', h'⟩ := (ih _).2 ⟨o', ⟨_, hl⟩, rfl⟩
        exact ⟨_, .act hr h'⟩

/-- A program without errors. -/
abbrev NeverFails (answers : (a : Act) → Res a → Prop) (p : Prog Act Res ε α) : Prop :=
  p.Within answers fun _ => False

/-- A program without errors can return. -/
theorem Within.returns (hanswers : ∀ a, ∃ r, answers a r) {p : Prog Act Res ε α}
    (hp : p.NeverFails answers) : ∃ a, p.Ends answers (.ok a) := by
  obtain ⟨o, ho⟩ := exists_ends hanswers p
  cases o with
  | ok a => exact ⟨a, ho⟩
  | error e => exact (hp e ho).elim

/-! ### Steps that a program can perform -/

/-- Some path of the program has such a step. -/
def Reaches (answers : (a : Act) → Res a → Prop) (P : Seen Act Res → Prop)
    (p : Prog Act Res ε α) : Prop :=
  ∃ l o, p.Path answers l o ∧ ∃ s ∈ l, P s

variable {P : Seen Act Res → Prop}

theorem reaches_perform {a : Act} {r : Res a} (hr : answers a r) (hP : P ⟨a, r⟩) :
    (perform a : Prog Act Res ε (Res a)).Reaches answers P :=
  ⟨_, _, path_perform_iff.2 ⟨r, hr, rfl, rfl⟩, _, List.mem_singleton_self _, hP⟩

theorem reaches_bind_left (hanswers : ∀ a, ∃ r, answers a r) {p : Prog Act Res ε α}
    {f : α → Prog Act Res ε β} (h : p.Reaches answers P) : (p.bind f).Reaches answers P := by
  obtain ⟨l, o, hp, s, hs, hP⟩ := h
  cases o with
  | ok a =>
    obtain ⟨o', l', hf⟩ := exists_ends hanswers (f a)
    exact ⟨_, _, path_bind_iff.2 (Or.inl ⟨a, l, l', hp, hf, rfl⟩), s,
      List.mem_append_left _ hs, hP⟩
  | error e => exact ⟨l, _, path_bind_iff.2 (Or.inr ⟨e, hp, rfl⟩), s, hs, hP⟩

theorem reaches_bind_right {p : Prog Act Res ε α} {f : α → Prog Act Res ε β} {a : α}
    (ha : p.Ends answers (.ok a)) (h : (f a).Reaches answers P) :
    (p.bind f).Reaches answers P := by
  obtain ⟨l, hp⟩ := ha
  obtain ⟨l', o, hf, s, hs, hP⟩ := h
  exact ⟨_, _, path_bind_iff.2 (Or.inl ⟨a, l, l', hp, hf, rfl⟩), s,
    List.mem_append_right _ hs, hP⟩

theorem reaches_attempt {p : Prog Act Res ε α} (h : p.Reaches answers P) :
    p.attempt.Reaches answers P := by
  have hpath : ∀ {q : Prog Act Res ε α} {l o}, q.Path answers l o →
      q.attempt.Path answers l (.ok o : Except ε (Except ε α)) := by
    intro q l o hq
    induction hq with
    | ret a => exact .ret _
    | fail e => exact .ret _
    | act hr _ ih => exact .act hr ih
  obtain ⟨l, o, hp, hs⟩ := h
  exact ⟨l, _, hpath hp, hs⟩

end Prog

/-! ### Lists -/

section
variable {ε α β : Type} {f : α → Except ε β}

theorem mapM_eq_ok_iff {xs : List α} {ys : List β} :
    xs.mapM f = .ok ys ↔ List.Forall₂ (fun x y => f x = .ok y) xs ys := by
  induction xs generalizing ys with
  | nil => simp [pure, Except.pure, eq_comm]
  | cons x xs ih =>
    rw [List.mapM_cons, List.forall₂_cons_left_iff]
    constructor
    · intro h
      cases hx : f x with
      | error e => simp [hx, bind, Except.bind] at h
      | ok y =>
        cases hxs : xs.mapM f with
        | error e => simp [hx, hxs, bind, Except.bind] at h
        | ok ys' =>
          simp only [hx, hxs, bind, Except.bind, pure, Except.pure, Except.ok.injEq] at h
          exact ⟨y, ys', rfl, ih.1 hxs, h.symm⟩
    · rintro ⟨y, ys', hx, hxs, rfl⟩
      rw [hx, ih.2 hxs]
      rfl

theorem mapM_eq_error_iff {xs : List α} {e : ε} :
    xs.mapM f = .error e ↔ ∃ before x after, xs = before ++ x :: after ∧
      (∀ z ∈ before, ∃ y, f z = .ok y) ∧ f x = .error e := by
  induction xs with
  | nil => simp [pure, Except.pure]
  | cons x xs ih =>
    rw [List.mapM_cons]
    cases hx : f x with
    | error e' =>
      constructor
      · rintro ⟨⟩
        exact ⟨[], x, xs, rfl, by simp, hx⟩
      · rintro ⟨before, z, after, heq, hbefore, hz⟩
        cases before with
        | nil =>
          cases heq
          rw [hx] at hz
          cases hz
          rfl
        | cons z' before =>
          cases heq
          obtain ⟨y, hy⟩ := hbefore x (List.mem_cons_self ..)
          rw [hx] at hy
          cases hy
    | ok y =>
      have hstep : (Except.ok y >>= fun y => xs.mapM f >>= fun ys => pure (y :: ys)) =
          (.error e : Except ε (List β)) ↔ xs.mapM f = .error e := by
        cases xs.mapM f <;> simp [bind, Except.bind, pure, Except.pure]
      rw [hstep, ih]
      constructor
      · rintro ⟨before, z, after, rfl, hbefore, hz⟩
        refine ⟨x :: before, z, after, rfl, ?_, hz⟩
        intro z' hz'
        rcases List.mem_cons.1 hz' with rfl | hz'
        · exact ⟨y, hx⟩
        · exact hbefore z' hz'
      · rintro ⟨before, z, after, heq, hbefore, hz⟩
        cases before with
        | nil =>
          cases heq
          rw [hx] at hz
          cases hz
        | cons z' before =>
          cases heq
          exact ⟨before, z, after, rfl, fun z' hz' => hbefore z' (List.mem_cons_of_mem _ hz'), hz⟩

theorem exists_mapM_eq_ok {xs : List α} (h : ∀ x ∈ xs, ∃ y, f x = .ok y) :
    ∃ ys, xs.mapM f = .ok ys := by
  cases hxs : xs.mapM f with
  | ok ys => exact ⟨ys, rfl⟩
  | error e =>
    obtain ⟨before, x, after, rfl, -, hx⟩ := mapM_eq_error_iff.1 hxs
    obtain ⟨y, hy⟩ := h x (by simp)
    rw [hx] at hy
    cases hy

/-- Related lists: each element of the first is related to one of the second. -/
theorem exists_mem_of_forall₂ {R : α → β → Prop} {xs : List α} {ys : List β}
    (h : List.Forall₂ R xs ys) : ∀ x ∈ xs, ∃ y ∈ ys, R x y := by
  induction h with
  | nil => simp
  | cons hx hxs ih =>
    intro z hz
    rcases List.mem_cons.1 hz with rfl | hz
    · exact ⟨_, List.mem_cons_self .., hx⟩
    · obtain ⟨y, hy, hf⟩ := ih z hz
      exact ⟨y, List.mem_cons_of_mem _ hy, hf⟩

/-- Lists that are related through a third one. -/
theorem forall₂_comp {γ : Type} {R : α → β → Prop} {S : β → γ → Prop} {T : α → γ → Prop}
    (h : ∀ a b c, R a b → S b c → T a c) {xs : List α} {ys : List β} {zs : List γ}
    (hxy : List.Forall₂ R xs ys) (hyz : List.Forall₂ S ys zs) : List.Forall₂ T xs zs := by
  induction hxy generalizing zs with
  | nil =>
    cases hyz
    exact .nil
  | cons hx _ ih =>
    cases hyz with
    | cons hy hyz => exact .cons (h _ _ _ hx hy) (ih hyz)

/-- Every element of a `mapM` that succeeds has its image in the result. -/
theorem exists_mem_of_mapM_eq_ok {xs : List α} {ys : List β} (h : xs.mapM f = .ok ys) :
    ∀ x ∈ xs, ∃ y ∈ ys, f x = .ok y :=
  exists_mem_of_forall₂ (mapM_eq_ok_iff.1 h)

/-- What a `mapM` returns comes from the elements it was mapped over. -/
theorem mem_of_mapM_eq_ok {xs : List α} {ys : List β} (h : xs.mapM f = .ok ys) :
    ∀ y ∈ ys, ∃ x ∈ xs, f x = .ok y :=
  exists_mem_of_forall₂ (mapM_eq_ok_iff.1 h).flip

/-- The elements before the first that fails a test are among those that pass it. -/
theorem takeWhile_sublist_filter (p : α → Bool) (xs : List α) :
    (xs.takeWhile p).Sublist (xs.filter p) := by
  induction xs with
  | nil => exact List.Sublist.refl _
  | cons x xs ih =>
    cases hx : p x with
    | true =>
      rw [List.takeWhile_cons_of_pos hx, List.filter_cons_of_pos hx]
      exact ih.cons_cons x
    | false =>
      rw [List.takeWhile_cons_of_neg (by simp [hx])]
      exact List.nil_sublist _

/-- They are all of them exactly if no element that passes comes after one that fails. -/
theorem takeWhile_eq_filter_iff {p : α → Bool} {xs : List α} :
    xs.takeWhile p = xs.filter p ↔ xs.Pairwise fun x y => p y = true → p x = true := by
  induction xs with
  | nil => simp
  | cons x xs ih =>
    rw [List.pairwise_cons]
    cases hx : p x with
    | true =>
      rw [List.takeWhile_cons_of_pos hx, List.filter_cons_of_pos hx, List.cons_inj_right, ih]
      exact (and_iff_right fun _ _ _ => rfl).symm
    | false =>
      rw [List.takeWhile_cons_of_neg (by simp [hx]), List.filter_cons_of_neg (by simp [hx]),
        eq_comm, List.filter_eq_nil_iff]
      constructor
      · intro hnone
        refine ⟨fun y hy hpy => absurd hpy (hnone y hy), ?_⟩
        exact List.pairwise_of_forall_mem_list fun y _ z hz hpz => absurd hpz (hnone z hz)
      · rintro ⟨hfirst, -⟩ y hy hpy
        cases hfirst y hy hpy

end

end Effects
