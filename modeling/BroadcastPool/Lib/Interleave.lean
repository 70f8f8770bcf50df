import BroadcastPool.Lib.Prog

/-!
# `BroadcastPool.Lib.Interleave`: programs that share one state

A `Config` is a shared state and the programs that are running on it. A schedule is a list
of `Choice`s: start a program, let one running program perform its next action, drop a
program (its task was cancelled, or its process was killed). One action is one indivisible
step, so a schedule is an interleaving at the granularity of single actions.

Every running program carries the list of answers it has had (`Task.seen`). `performed`
lists the actions of a schedule, each with the state it met and the answers its own program
had seen. Two rules connect programs and schedules. `performed_of_paths`: what holds on every
path of every started program holds of every performed action. A path may get any answer that
the handler can give in some state (`answers`). `exec_invariant`: what every performed action
keeps holds at the end. `performed_fold` is its form for a part of the state that each action
changes in a known way.

`Prog.Learns` is for programs whose requirements refer to answers that they have got: what a part
of the program returns is tied to the answers by then, and the rest may use it.

A statement about complete paths is one about `Prog.Path`, which has a rule for each
combinator. `head_finished_path` says that the answers which the first task has got when it has
finished are such a path of its program, whatever the other tasks did meanwhile.
-/

set_option autoImplicit false

namespace Effects

variable {Act : Type} {Res : Act → Type} {ε α S : Type}

/-- An action together with the answer it got. -/
abbrev Seen (Act : Type) (Res : Act → Type) : Type := (a : Act) × Res a

/-- The contract of one program on its own. The state is the list of answers so far, an
action can get any answer that satisfies `answers`, and every action has to meet
`required`. -/
def pathContract (answers : (a : Act) → Res a → Prop)
    (required : List (Seen Act Res) → Act → Prop) :
    Contract Act Res (List (Seen Act Res)) where
  step l a r l' := answers a r ∧ l' = l ++ [⟨a, r⟩]
  assumed _ _ := True
  required := required

/-- On every path of `p`, after the answers `l`, every action meets `required`. -/
def Prog.OnPaths (answers : (a : Act) → Res a → Prop)
    (required : List (Seen Act Res) → Act → Prop) (l : List (Seen Act Res))
    (p : Prog Act Res ε α) : Prop :=
  p.wp (pathContract answers required) (fun _ _ => True) l

/-- A program that keeps some property of the answers meets its requirement on every path. -/
theorem Prog.Keeps.onPaths {answers : (a : Act) → Res a → Prop}
    {required : List (Seen Act Res) → Act → Prop} {I : List (Seen Act Res) → Prop}
    {p : Prog Act Res ε α} (hp : p.Keeps (pathContract answers required) I)
    {l : List (Seen Act Res)} (hl : I l) : p.OnPaths answers required l :=
  Prog.wp_mono (fun _ _ _ => trivial) p l (hp l hl)

/-- One action of a path. -/
theorem Prog.wp_perform_path {answers : (a : Act) → Res a → Prop}
    {required : List (Seen Act Res) → Act → Prop} (a : Act)
    (Q : Except ε (Res a) → List (Seen Act Res) → Prop) (l : List (Seen Act Res))
    (hreq : required l a) (hQ : ∀ r, answers a r → Q (.ok r) (l ++ [⟨a, r⟩])) :
    (Prog.perform a : Prog Act Res ε (Res a)).wp (pathContract answers required) Q l := by
  rw [Prog.wp_perform]
  intro _
  refine ⟨hreq, fun r l' hstep => ?_⟩
  obtain ⟨hr, rfl⟩ := hstep
  exact hQ r hr

/-- The paths of a program that starts with an action. -/
theorem Prog.onPaths_perform_bind {β : Type} {answers : (a : Act) → Res a → Prop}
    {required : List (Seen Act Res) → Act → Prop} {a : Act} {f : Res a → Prog Act Res ε β}
    {l : List (Seen Act Res)} (hreq : required l a)
    (hf : ∀ r, answers a r → (f r).OnPaths answers required (l ++ [⟨a, r⟩])) :
    ((Prog.perform a).bind f).OnPaths answers required l := by
  unfold Prog.OnPaths
  rw [Prog.wp_bind]
  exact Prog.wp_perform_path a _ l hreq hf

theorem Prog.onPaths_fail {answers : (a : Act) → Res a → Prop}
    {required : List (Seen Act Res) → Act → Prop} (e : ε) (l : List (Seen Act Res)) :
    (fail e : Prog Act Res ε α).OnPaths answers required l :=
  (Prog.keeps_fail (I := fun _ => True) e).onPaths trivial

/-- A requirement that follows from the one that is met. -/
theorem Prog.OnPaths.mono {answers : (a : Act) → Res a → Prop}
    {required required' : List (Seen Act Res) → Act → Prop}
    (h : ∀ l a, required l a → required' l a) {p : Prog Act Res ε α} {l : List (Seen Act Res)}
    (hp : p.OnPaths answers required l) : p.OnPaths answers required' l := by
  unfold Prog.OnPaths at hp ⊢
  induction p generalizing l with
  | ret a => rw [Prog.wp_ret]; trivial
  | fail e => rw [Prog.wp_fail]; trivial
  | act a k ih =>
    rw [Prog.wp_act] at hp ⊢
    intro _
    obtain ⟨hreq, hnext⟩ := hp trivial
    exact ⟨h l a hreq, fun r l' hstep => ih r (hnext r l' hstep)⟩

/-! ### What a program learns -/

section Learns
variable {β : Type} {answers : (a : Act) → Res a → Prop}
  {required : List (Seen Act Res) → Act → Prop} {l₀ : List (Seen Act Res)}
  {P : α → List (Seen Act Res) → Prop} {Q : β → List (Seen Act Res) → Prop}

/-- A program that starts after the answers `l₀`, and maybe others, meets its requirements. What
it returns goes with the answers that it has got by then as `Q` says. -/
def Prog.Learns (answers : (a : Act) → Res a → Prop)
    (required : List (Seen Act Res) → Act → Prop) (l₀ : List (Seen Act Res))
    (Q : α → List (Seen Act Res) → Prop) (p : Prog Act Res ε α) : Prop :=
  ∀ l, l₀ ⊆ l →
    p.wp (pathContract answers required) (fun o l' => l ⊆ l' ∧ ∀ a, o = .ok a → Q a l') l

theorem Prog.learns_ret {a : α} (h : ∀ l, l₀ ⊆ l → P a l) :
    (ret a : Prog Act Res ε α).Learns answers required l₀ P := by
  intro l hl
  rw [Prog.wp_ret]
  refine ⟨List.Subset.refl l, fun b hb => ?_⟩
  cases hb
  exact h l hl

theorem Prog.learns_fail (e : ε) :
    (fail e : Prog Act Res ε α).Learns answers required l₀ P := by
  intro l _
  rw [Prog.wp_fail]
  exact ⟨List.Subset.refl l, fun _ hb => by cases hb⟩

/-- After one action its answer is known. -/
theorem Prog.learns_perform {a : Act} {P : Res a → List (Seen Act Res) → Prop}
    (hreq : ∀ l, l₀ ⊆ l → required l a)
    (hP : ∀ r l, l₀ ⊆ l → answers a r → ⟨a, r⟩ ∈ l → P r l) :
    (perform a : Prog Act Res ε (Res a)).Learns answers required l₀ P := by
  refine fun l hl => Prog.wp_perform_path a _ l (hreq l hl) fun r hr => ?_
  have hsub : l ⊆ l ++ [⟨a, r⟩] := List.subset_append_left ..
  refine ⟨hsub, fun b hb => ?_⟩
  cases hb
  exact hP r _ (List.Subset.trans hl hsub) hr (List.mem_append_right _ (List.mem_singleton_self _))

/-- The rest of the program knows what the first part has learnt. -/
theorem Prog.learns_bind {p : Prog Act Res ε α} {f : α → Prog Act Res ε β}
    (hp : p.Learns answers required l₀ P)
    (hf : ∀ a l₁, l₀ ⊆ l₁ → P a l₁ → (f a).Learns answers required l₁ Q) :
    (p.bind f).Learns answers required l₀ Q := by
  intro l hl
  refine (Prog.wp_bind _ _ _ _).2 (Prog.wp_mono (fun o l₁ h₁ => ?_) p l (hp l hl))
  cases o with
  | error e => exact ⟨h₁.1, fun _ hb => by cases hb⟩
  | ok a =>
    have hrest := hf a l₁ (List.Subset.trans hl h₁.1) (h₁.2 a rfl) l₁ (List.Subset.refl l₁)
    exact Prog.wp_mono (fun _ _ h => ⟨List.Subset.trans h₁.1 h.1, h.2⟩) _ l₁ hrest

theorem Prog.Learns.mono {P' : α → List (Seen Act Res) → Prop} {p : Prog Act Res ε α}
    (hp : p.Learns answers required l₀ P) (h : ∀ a l, l₀ ⊆ l → P a l → P' a l) :
    p.Learns answers required l₀ P' := fun l hl =>
  Prog.wp_mono (fun _ l' h' =>
    ⟨h'.1, fun a ha => h a l' (List.Subset.trans hl h'.1) (h'.2 a ha)⟩) p l
    (hp l hl)

theorem Prog.Learns.after {l₁ : List (Seen Act Res)} {p : Prog Act Res ε α}
    (hp : p.Learns answers required l₀ P) (h : l₀ ⊆ l₁) : p.Learns answers required l₁ P :=
  fun l hl => hp l (List.Subset.trans h hl)

theorem Prog.Learns.attempt {p : Prog Act Res ε α} (hp : p.Learns answers required l₀ P) :
    p.attempt.Learns answers required l₀ fun o l => ∀ a, o = .ok a → P a l := by
  refine fun l hl => (Prog.wp_attempt _ _ _).2 (Prog.wp_mono (fun o l' h => ?_) p l (hp l hl))
  refine ⟨h.1, fun o' ho => ?_⟩
  cases ho
  exact h.2

/-- Actions that are allowed in any case teach nothing that is needed. -/
theorem Prog.learns_of_uses {U : Act → Prop} {p : Prog Act Res ε α} (hp : p.Uses U)
    (hreq : ∀ a, U a → ∀ l, required l a) :
    p.Learns answers required l₀ fun _ _ => True := by
  induction p generalizing l₀ with
  | ret a => exact Prog.learns_ret fun _ _ => trivial
  | fail e => exact Prog.learns_fail e
  | act a k ih =>
    obtain ⟨ha, hk⟩ := (Prog.uses_act_iff _ _).1 hp
    refine Prog.learns_bind (p := .perform a) (f := k) (P := fun _ _ => True)
      (Prog.learns_perform (fun l _ => hreq a ha l) fun _ _ _ _ _ => trivial)
      fun r _ _ _ => ih r (hk r)

theorem Prog.learns_forEach {γ : Type} (xs : List γ) {body : γ → Prog Act Res ε Unit}
    (h : ∀ x ∈ xs, ∀ l₁, l₀ ⊆ l₁ → (body x).Learns answers required l₁ fun _ _ => True) :
    (Prog.forEach xs body).Learns answers required l₀ fun _ _ => True := by
  induction xs generalizing l₀ with
  | nil => exact Prog.learns_ret fun _ _ => trivial
  | cons x xs ih =>
    refine Prog.learns_bind (h x (List.mem_cons_self ..) l₀ (List.Subset.refl _))
      fun _ l₁ hl₁ _ => ih fun x' hx' l₂ hl₂ => ?_
    exact h x' (List.mem_cons_of_mem _ hx') l₂ (List.Subset.trans hl₁ hl₂)

theorem Prog.Learns.onPaths {p : Prog Act Res ε α} (hp : p.Learns answers required [] P) :
    p.OnPaths answers required [] :=
  Prog.wp_mono (fun _ _ _ => trivial) p [] (hp [] (List.Subset.refl _))

end Learns

/-! ### Complete paths -/

section Path
variable {β : Type} {answers : (a : Act) → Res a → Prop}

/-- The answers along one complete path of a program, and its outcome. -/
inductive Prog.Path (answers : (a : Act) → Res a → Prop) :
    Prog Act Res ε α → List (Seen Act Res) → Except ε α → Prop
  | ret (a : α) : Path answers (.ret a) [] (.ok a)
  | fail (e : ε) : Path answers (.fail e) [] (.error e)
  | act {a : Act} {k : Res a → Prog Act Res ε α} {r : Res a} {l : List (Seen Act Res)}
      {o : Except ε α} (hr : answers a r) (hl : Path answers (k r) l o) :
      Path answers (.act a k) (⟨a, r⟩ :: l) o

theorem Prog.path_ret_iff {a : α} {l : List (Seen Act Res)} {o : Except ε α} :
    (Prog.ret a : Prog Act Res ε α).Path answers l o ↔ l = [] ∧ o = .ok a := by
  constructor
  · intro h
    cases h
    exact ⟨rfl, rfl⟩
  · rintro ⟨rfl, rfl⟩
    exact .ret a

theorem Prog.path_fail_iff {e : ε} {l : List (Seen Act Res)} {o : Except ε α} :
    (Prog.fail e : Prog Act Res ε α).Path answers l o ↔ l = [] ∧ o = .error e := by
  constructor
  · intro h
    cases h
    exact ⟨rfl, rfl⟩
  · rintro ⟨rfl, rfl⟩
    exact .fail e

theorem Prog.path_perform_iff {a : Act} {l : List (Seen Act Res)} {o : Except ε (Res a)} :
    (Prog.perform a : Prog Act Res ε (Res a)).Path answers l o ↔
      ∃ r, answers a r ∧ l = [⟨a, r⟩] ∧ o = .ok r := by
  constructor
  · intro h
    cases h with
    | act hr hl =>
      cases hl
      exact ⟨_, hr, rfl, rfl⟩
  · rintro ⟨r, hr, rfl, rfl⟩
    exact .act hr (.ret r)

/-- A path of one action and then `f`. -/
theorem Prog.path_perform_bind_iff {a : Act} {f : Res a → Prog Act Res ε β}
    {l : List (Seen Act Res)} {o : Except ε β} :
    ((Prog.perform a).bind f).Path answers l o ↔
      ∃ r l', answers a r ∧ (f r).Path answers l' o ∧ l = ⟨a, r⟩ :: l' := by
  constructor
  · intro h
    cases h with
    | act hr hl => exact ⟨_, _, hr, hl, rfl⟩
  · rintro ⟨r, l', hr, hl, rfl⟩
    exact .act hr hl

/-- A path of `p.bind f` is a path of `p` that returns and then one of `f`, or a path of `p` that
fails. -/
theorem Prog.path_bind_iff {p : Prog Act Res ε α} {f : α → Prog Act Res ε β}
    {l : List (Seen Act Res)} {o : Except ε β} :
    (p.bind f).Path answers l o ↔
      (∃ a l₁ l₂, p.Path answers l₁ (.ok a) ∧ (f a).Path answers l₂ o ∧ l = l₁ ++ l₂) ∨
        ∃ e, p.Path answers l (.error e) ∧ o = .error e := by
  induction p generalizing l with
  | ret a =>
    constructor
    · exact fun h => Or.inl ⟨a, [], l, .ret a, h, rfl⟩
    · rintro (⟨b, l₁, l₂, hp, hf, rfl⟩ | ⟨e, hp, -⟩)
      · cases hp
        exact hf
      · cases hp
  | fail e =>
    constructor
    · intro h
      obtain ⟨rfl, rfl⟩ := Prog.path_fail_iff.1 h
      exact Or.inr ⟨e, .fail e, rfl⟩
    · rintro (⟨b, l₁, l₂, hp, -, -⟩ | ⟨e', hp, rfl⟩)
      · cases hp
      · cases hp
        exact .fail e
  | act a k ih =>
    constructor
    · intro h
      cases h with
      | @act _ _ r l o hr hl =>
        rcases (ih r).1 hl with ⟨b, l₁, l₂, hp, hf, rfl⟩ | ⟨e, hp, rfl⟩
        · exact Or.inl ⟨b, _, l₂, .act hr hp, hf, rfl⟩
        · exact Or.inr ⟨e, .act hr hp, rfl⟩
    · rintro (⟨b, l₁, l₂, hp, hf, rfl⟩ | ⟨e, hp, rfl⟩)
      · cases hp with
        | @act _ _ r l₁ _ hr hp => exact .act hr ((ih r).2 (Or.inl ⟨b, l₁, l₂, hp, hf, rfl⟩))
      · cases hp with
        | @act _ _ r l _ hr hp => exact .act hr ((ih r).2 (Or.inr ⟨e, hp, rfl⟩))

theorem Prog.Path.mono {answers' : (a : Act) → Res a → Prop}
    (h : ∀ a r, answers a r → answers' a r) {p : Prog Act Res ε α} {l : List (Seen Act Res)}
    {o : Except ε α} (hp : p.Path answers l o) : p.Path answers' l o := by
  induction hp with
  | ret a => exact .ret a
  | fail e => exact .fail e
  | act hr hl ih => exact .act (h _ _ hr) ih

/-- A path of `p.bind f` that returns. -/
theorem Prog.path_bind_ok {p : Prog Act Res ε α} {f : α → Prog Act Res ε β}
    {l : List (Seen Act Res)} {b : β} (h : (p.bind f).Path answers l (.ok b)) :
    ∃ a l₁ l₂, p.Path answers l₁ (.ok a) ∧ (f a).Path answers l₂ (.ok b) ∧ l = l₁ ++ l₂ := by
  rcases Prog.path_bind_iff.1 h with hreturns | ⟨e, -, he⟩
  · exact hreturns
  · cases he

/-- The actions of a path are actions of the tree. -/
theorem Prog.Uses.path {P : Act → Prop} {p : Prog Act Res ε α} (hp : p.Uses P)
    {l : List (Seen Act Res)} {o : Except ε α} (hpath : p.Path answers l o) :
    ∀ s ∈ l, P s.1 := by
  induction hpath with
  | ret a => simp
  | fail e => simp
  | act hr hl ih =>
    obtain ⟨ha, hk⟩ := (Prog.uses_act_iff _ _).1 hp
    intro s hs
    rcases List.mem_cons.1 hs with rfl | hs
    · exact ha
    · exact ih (hk _) s hs

/-- A run is a path. -/
theorem Prog.path_run {S : Type} (h : Handler Act Res S) (hanswers : ∀ a s, answers a (h a s).1)
    (p : Prog Act Res ε α) (s : S) : p.Path answers (p.answers h s) (p.run h s).1 := by
  induction p generalizing s with
  | ret a => exact .ret a
  | fail e => exact .fail e
  | act a k ih => exact .act (hanswers a s) (ih _ _)

end Path

/-- How a program that has no action left ends. -/
def Prog.outcome : Prog Act Res ε α → Option (Except ε α)
  | .ret a => some (.ok a)
  | .fail e => some (.error e)
  | .act .. => none

/-- A program that has ended has the empty path. -/
theorem Prog.path_of_outcome {answers : (a : Act) → Res a → Prop} {p : Prog Act Res ε α}
    {o : Except ε α} (h : p.outcome = some o) : p.Path answers [] o := by
  cases p with
  | ret a =>
    cases h
    exact .ret a
  | fail e =>
    cases h
    exact .fail e
  | act a k => cases h

/-! ### Conditions along a history -/

/-- Every event of a list meets `P` with what `step` makes of the events before it. -/
def Along {G E : Type} (step : G → E → G) (P : G → E → Prop) : G → List E → Prop
  | _, [] => True
  | g, e :: es => P g e ∧ Along step P (step g e) es

instance decidableAlong {G E : Type} (step : G → E → G) (P : G → E → Prop)
    [∀ g e, Decidable (P g e)] : (g : G) → (es : List E) → Decidable (Along step P g es)
  | _, [] => .isTrue trivial
  | g, e :: es =>
    have := decidableAlong step P (step g e) es
    inferInstanceAs (Decidable (_ ∧ _))

/-- A condition on what `f` keeps of a history is one on the history. -/
theorem Along.comap {G G' E : Type} {step : G → E → G} (f : G' → G) (step' : G' → E → G')
    (hf : ∀ g e, f (step' g e) = step (f g) e) {P : G → E → Prop} {g : G'} {es : List E}
    (h : Along step P (f g) es) : Along step' (fun g e => P (f g) e) g es := by
  induction es generalizing g with
  | nil => trivial
  | cons e es ih =>
    refine ⟨h.1, ih ?_⟩
    rw [hf]
    exact h.2

/-- A condition on each event by itself. -/
theorem along_of_forall {G E : Type} {step : G → E → G} {P : E → Prop} {es : List E}
    (h : ∀ e ∈ es, P e) (g : G) : Along step (fun _ => P) g es := by
  induction es generalizing g with
  | nil => trivial
  | cons e es ih =>
    exact ⟨h e (List.mem_cons_self ..), ih (fun e he => h e (List.mem_cons_of_mem _ he)) _⟩

/-- Where the events bring distinct names, none of which is there at the start, every event brings
a name that is new. -/
theorem along_of_nodup {E N : Type} (name : E → Option N) {names : List N} {es : List E}
    (h : (names ++ es.filterMap name).Nodup) :
    Along (fun names e => names ++ (name e).toList)
      (fun names e => ∀ n ∈ name e, n ∉ names) names es := by
  induction es generalizing names with
  | nil => trivial
  | cons e es ih =>
    refine ⟨fun n hn hmem => ?_, ih ?_⟩
    · rw [List.filterMap_cons, hn] at h
      exact (List.nodup_append.1 h).2.2 n hmem n (List.mem_cons_self ..) rfl
    · rw [List.append_assoc]
      cases hname : name e with
      | none =>
        rw [List.filterMap_cons, hname] at h
        exact h
      | some n =>
        rw [List.filterMap_cons, hname] at h
        exact h

/-! ### Configurations and schedules -/

/-- A running program and the answers it has had. -/
structure Task (Act : Type) (Res : Act → Type) (ε : Type) where
  prog : Prog Act Res ε Unit
  seen : List (Seen Act Res) := []

/-- The shared state and the running programs. -/
structure Config (Act : Type) (Res : Act → Type) (ε S : Type) where
  state : S
  tasks : List (Task Act Res ε)

/-- One decision of the scheduler. -/
inductive Choice (Act : Type) (Res : Act → Type) (ε : Type)
  | start (p : Prog Act Res ε Unit)
  | step (i : Nat)
  | drop (i : Nat)

/-- An action as it was performed: the state it met, what its program had seen, and the
action. -/
structure Performed (Act : Type) (Res : Act → Type) (S : Type) where
  state : S
  seen : List (Seen Act Res)
  act : Act

namespace Config

/-- The configuration after one choice. A finished task, or an index without a task, does
nothing. -/
def next (h : Handler Act Res S) (c : Config Act Res ε S) :
    Choice Act Res ε → Config Act Res ε S
  | .start p => { c with tasks := c.tasks ++ [{ prog := p }] }
  | .drop i => { c with tasks := c.tasks.eraseIdx i }
  | .step i =>
      match c.tasks[i]? with
      | some { prog := .act a k, seen } =>
          { state := (h a c.state).2
            tasks := c.tasks.set i
              { prog := k (h a c.state).1, seen := seen ++ [⟨a, (h a c.state).1⟩] } }
      | _ => c

/-- The action a choice performs, if it performs one. -/
def performs (c : Config Act Res ε S) : Choice Act Res ε → Option (Performed Act Res S)
  | .step i =>
      match c.tasks[i]? with
      | some { prog := .act a _, seen } => some { state := c.state, seen, act := a }
      | _ => none
  | _ => none

/-- The configuration after a schedule. -/
def exec (h : Handler Act Res S) : Config Act Res ε S → List (Choice Act Res ε) →
    Config Act Res ε S
  | c, [] => c
  | c, ch :: chs => exec h (c.next h ch) chs

/-- The actions a schedule performs, in order. -/
def performed (h : Handler Act Res S) : Config Act Res ε S → List (Choice Act Res ε) →
    List (Performed Act Res S)
  | _, [] => []
  | c, ch :: chs => (c.performs ch).toList ++ performed h (c.next h ch) chs

variable {h : Handler Act Res S}

theorem exec_append (c : Config Act Res ε S) (chs chs' : List (Choice Act Res ε)) :
    c.exec h (chs ++ chs') = (c.exec h chs).exec h chs' := by
  induction chs generalizing c with
  | nil => rfl
  | cons ch chs ih => exact ih _

theorem performed_append (c : Config Act Res ε S) (chs chs' : List (Choice Act Res ε)) :
    c.performed h (chs ++ chs') = c.performed h chs ++ (c.exec h chs).performed h chs' := by
  induction chs generalizing c with
  | nil => rfl
  | cons ch chs ih => simp [performed, exec, ih, List.append_assoc]

/-- A choice that performs no action leaves the state alone, and one that performs `a` moves
it as the handler says. -/
theorem next_state (c : Config Act Res ε S) (ch : Choice Act Res ε) :
    (c.next h ch).state =
      match c.performs ch with
      | some e => (h e.act c.state).2
      | none => c.state := by
  cases ch with
  | start p => rfl
  | drop i => rfl
  | step i =>
    simp only [next, performs]
    split <;> rfl

theorem performs_state {c : Config Act Res ε S} {ch : Choice Act Res ε}
    {e : Performed Act Res S} (he : c.performs ch = some e) : e.state = c.state := by
  cases ch with
  | start p => cases he
  | drop i => cases he
  | step i =>
    simp only [performs] at he
    split at he
    · cases he; rfl
    · cases he

/-- If every performed action keeps `I`, then `I` holds after the schedule. -/
theorem exec_invariant {I : S → Prop} (chs : List (Choice Act Res ε))
    (c : Config Act Res ε S) (hI : I c.state)
    (hkeep : ∀ e ∈ c.performed h chs, I e.state → I (h e.act e.state).2) :
    I (c.exec h chs).state := by
  induction chs generalizing c with
  | nil => exact hI
  | cons ch chs ih =>
    refine ih (c.next h ch) ?_ fun e he => hkeep e (List.mem_append_right _ he)
    rw [next_state]
    cases hp : c.performs ch with
    | none => exact hI
    | some e =>
      have hs : e.state = c.state := performs_state hp
      have := hkeep e (List.mem_append_left _ (by simp [hp])) (hs ▸ hI)
      exact hs ▸ this

variable {answers : (a : Act) → Res a → Prop} {required : List (Seen Act Res) → Act → Prop}

/-- Every task of the configuration meets `required` on every path it still has. -/
def Guarded (answers : (a : Act) → Res a → Prop)
    (required : List (Seen Act Res) → Act → Prop) (c : Config Act Res ε S) : Prop :=
  ∀ t ∈ c.tasks, t.prog.OnPaths answers required t.seen

/-- One choice keeps `Guarded`, and the action it performs meets `required`. -/
theorem guarded_next {c : Config Act Res ε S} (hc : c.Guarded answers required)
    (ch : Choice Act Res ε)
    (hanswers : ∀ e, c.performs ch = some e → answers e.act (h e.act e.state).1)
    (hstart : ∀ p, ch = .start p → p.OnPaths answers required []) :
    (c.next h ch).Guarded answers required ∧
      ∀ e, c.performs ch = some e → required e.seen e.act := by
  cases ch with
  | start p =>
    refine ⟨fun t ht => ?_, fun e he => by cases he⟩
    rcases List.mem_append.1 ht with ht | ht
    · exact hc t ht
    · cases List.mem_singleton.1 ht
      exact hstart p rfl
  | drop i =>
    exact ⟨fun t ht => hc t (List.mem_of_mem_eraseIdx ht), fun e he => by cases he⟩
  | step i =>
    simp only [next, performs] at hanswers ⊢
    split
    · rename_i a k seen ht
      have hwp := hc _ (List.mem_of_getElem? ht)
      unfold Prog.OnPaths at hwp
      rw [Prog.wp_act] at hwp
      obtain ⟨hreq, hk⟩ := hwp trivial
      refine ⟨fun t hmem => ?_, fun e he => by cases he; exact hreq⟩
      rcases List.mem_or_eq_of_mem_set hmem with hmem | rfl
      · exact hc t hmem
      · refine hk _ _ ⟨?_, rfl⟩
        rw [ht] at hanswers
        exact hanswers ⟨c.state, seen, a⟩ rfl
    · exact ⟨hc, fun e he => by cases he⟩

/-- What holds on every path of the tasks, and of every program the schedule starts, holds
of every action the schedule performs. The paths need only have answers like those that the
actions of the schedule get. -/
theorem performed_of_paths_of_answers (chs : List (Choice Act Res ε)) (c : Config Act Res ε S)
    (hanswers : ∀ e ∈ c.performed h chs, answers e.act (h e.act e.state).1)
    (hc : c.Guarded answers required)
    (hstart : ∀ p, Choice.start p ∈ chs → p.OnPaths answers required []) :
    ∀ e ∈ c.performed h chs, required e.seen e.act := by
  induction chs generalizing c with
  | nil => exact fun e he => by cases he
  | cons ch chs ih =>
    obtain ⟨hnext, hreq⟩ := guarded_next hc ch
      (fun e he => hanswers e (List.mem_append_left _ (Option.mem_toList.2 he)))
      fun p hp => hstart p (hp ▸ List.mem_cons_self ..)
    intro e he
    rcases List.mem_append.1 he with he | he
    · exact hreq e (Option.mem_toList.1 he)
    · exact ih _ (fun e he => hanswers e (List.mem_append_right _ he)) hnext
        (fun p hp => hstart p (List.mem_cons_of_mem _ hp)) e he

/-- The same, if every action has such an answer in every state. -/
theorem performed_of_paths (hanswers : ∀ a s, answers a (h a s).1)
    (chs : List (Choice Act Res ε)) (c : Config Act Res ε S)
    (hc : c.Guarded answers required)
    (hstart : ∀ p, Choice.start p ∈ chs → p.OnPaths answers required []) :
    ∀ e ∈ c.performed h chs, required e.seen e.act :=
  performed_of_paths_of_answers chs c (fun e _ => hanswers e.act e.state) hc hstart

/-- If the schedule starts only programs of certain actions, it performs only these. -/
theorem performed_of_uses {U : Act → Prop} (chs : List (Choice Act Res ε)) (s : S)
    (hstart : ∀ p, Choice.start p ∈ chs → p.Uses U) :
    ∀ e ∈ performed h ⟨s, []⟩ chs, U e.act := by
  have hpaths : ∀ p, Choice.start p ∈ chs →
      p.OnPaths (fun _ _ => True) (fun _ a => U a) [] := fun p hp =>
    Prog.Keeps.onPaths (I := fun _ => True) (Prog.keeps_of_uses
      (fun a ha _ _ _ => ⟨ha, fun _ _ _ => trivial⟩) (hstart p hp)) trivial
  exact performed_of_paths (fun _ _ => trivial) chs ⟨s, []⟩ (fun t ht => by cases ht) hpaths

/-- If every performed action keeps the relation `I` between the state and what `step` makes of
the actions so far, the relation holds where an action is performed. -/
theorem performed_history {G : Type} (step : G → Performed Act Res S → G) {I : G → S → Prop}
    (chs : List (Choice Act Res ε)) (c : Config Act Res ε S) (g : G) (hI : I g c.state)
    (hkeep : ∀ e ∈ c.performed h chs, ∀ g, I g e.state → I (step g e) (h e.act e.state).2)
    {before after : List (Performed Act Res S)} {e : Performed Act Res S}
    (hsplit : c.performed h chs = before ++ e :: after) : I (before.foldl step g) e.state := by
  induction chs generalizing c g before with
  | nil => simp [performed] at hsplit
  | cons ch chs ih =>
    have hnext := next_state (h := h) c ch
    cases hp : c.performs ch with
    | none =>
      simp only [performed, hp, Option.toList_none, List.nil_append] at hsplit hkeep
      rw [hp] at hnext
      have hsame : (c.next h ch).state = c.state := hnext
      exact ih _ g (hsame ▸ hI) hkeep hsplit
    | some e₀ =>
      have hs : e₀.state = c.state := performs_state hp
      simp only [performed, hp, Option.toList_some, List.cons_append, List.nil_append]
        at hsplit hkeep
      rw [hp] at hnext
      have hmoved : (c.next h ch).state = (h e₀.act c.state).2 := hnext
      cases before with
      | nil =>
        obtain ⟨rfl, -⟩ := List.cons.inj hsplit
        rw [hs]
        exact hI
      | cons b before =>
        obtain ⟨rfl, hrest⟩ := List.cons.inj hsplit
        have hstep := hkeep e₀ (List.mem_cons_self ..) g (hs ▸ hI)
        rw [hs, ← hmoved] at hstep
        exact ih _ _ hstep (fun e he => hkeep e (List.mem_cons_of_mem _ he)) hrest

/-- The same, for the state after the schedule. -/
theorem exec_history {G : Type} (step : G → Performed Act Res S → G) {I : G → S → Prop}
    (chs : List (Choice Act Res ε)) (c : Config Act Res ε S) (g : G) (hI : I g c.state)
    (hkeep : ∀ e ∈ c.performed h chs, ∀ g, I g e.state → I (step g e) (h e.act e.state).2) :
    I ((c.performed h chs).foldl step g) (c.exec h chs).state := by
  induction chs generalizing c g with
  | nil => exact hI
  | cons ch chs ih =>
    have hnext := next_state (h := h) c ch
    simp only [performed, List.foldl_append]
    refine ih (c.next h ch) _ ?_ fun e he => hkeep e (List.mem_append_right _ he)
    rw [hnext]
    cases hp : c.performs ch with
    | none => exact hI
    | some e =>
      have hs : e.state = c.state := performs_state hp
      have hstep := hkeep e (List.mem_append_left _ (by simp [hp])) g (hs ▸ hI)
      exact hs ▸ hstep

/-- What the programs have seen after a choice: what they had seen before, and the answer to the
action that the choice performs. -/
theorem next_seen {c : Config Act Res ε S} {ch : Choice Act Res ε} {t : Task Act Res ε}
    (ht : t ∈ (c.next h ch).tasks) {s : Seen Act Res} (hs : s ∈ t.seen) :
    (∃ t₀ ∈ c.tasks, s ∈ t₀.seen) ∨
      ∃ e, c.performs ch = some e ∧ s = ⟨e.act, (h e.act e.state).1⟩ := by
  cases ch with
  | start p =>
    rcases List.mem_append.1 ht with ht | ht
    · exact Or.inl ⟨t, ht, hs⟩
    · cases List.mem_singleton.1 ht
      cases hs
  | drop i => exact Or.inl ⟨t, List.mem_of_mem_eraseIdx ht, hs⟩
  | step i =>
    simp only [next, performs] at ht ⊢
    split at ht
    · rename_i a k seen hget
      rcases List.mem_or_eq_of_mem_set ht with ht | rfl
      · exact Or.inl ⟨t, ht, hs⟩
      · rcases List.mem_append.1 hs with hs | hs
        · exact Or.inl ⟨_, List.mem_of_getElem? hget, hs⟩
        · exact Or.inr ⟨⟨c.state, seen, a⟩, rfl, List.mem_singleton.1 hs⟩
    · exact Or.inl ⟨t, ht, hs⟩

theorem performs_seen {c : Config Act Res ε S} {ch : Choice Act Res ε} {e : Performed Act Res S}
    (he : c.performs ch = some e) : ∃ t ∈ c.tasks, e.seen = t.seen := by
  cases ch with
  | start p => cases he
  | drop i => cases he
  | step i =>
    simp only [performs] at he
    split at he
    · rename_i a k seen hget
      cases he
      exact ⟨_, List.mem_of_getElem? hget, rfl⟩
    · cases he

/-- The history `g` goes with the state, and records the answers that the programs have seen. -/
structure Recorded {G : Type} (I : G → S → Prop) (J : G → Seen Act Res → Prop) (g : G)
    (c : Config Act Res ε S) : Prop where
  state : I g c.state
  seen : ∀ t ∈ c.tasks, ∀ s ∈ t.seen, J g s

section Recorded
variable {G : Type} {step : G → Performed Act Res S → G} {I : G → S → Prop}
  {J : G → Seen Act Res → Prop} {P : G → Performed Act Res S → Prop}

/-- One choice, if the action it performs keeps the history in step with the state, and its answer
is recorded. -/
theorem recorded_next (hmono : ∀ g e s, J g s → J (step g e) s) {c : Config Act Res ε S} {g : G}
    (hc : c.Recorded I J g) (ch : Choice Act Res ε)
    (hstep : ∀ e, c.performs ch = some e → I g e.state → (∀ s ∈ e.seen, J g s) →
      I (step g e) (h e.act e.state).2 ∧ J (step g e) ⟨e.act, (h e.act e.state).1⟩) :
    (c.next h ch).Recorded I J ((c.performs ch).toList.foldl step g) := by
  have hnext := next_state (h := h) c ch
  cases hp : c.performs ch with
  | none =>
    rw [hp] at hnext
    refine ⟨hnext ▸ hc.state, fun t ht s hs => ?_⟩
    rcases next_seen ht hs with ⟨t₀, ht₀, hs₀⟩ | ⟨e, he, -⟩
    · exact hc.seen t₀ ht₀ s hs₀
    · rw [hp] at he
      cases he
  | some e =>
    rw [hp] at hnext
    have hstate : e.state = c.state := performs_state hp
    obtain ⟨t, ht, hseen⟩ := performs_seen hp
    obtain ⟨hI, hJ⟩ := hstep e hp (hstate ▸ hc.state)
      fun s hs => hc.seen t ht s (hseen ▸ hs)
    refine ⟨hnext ▸ hstate ▸ hI, fun t' ht' s hs => ?_⟩
    rcases next_seen ht' hs with ⟨t₀, ht₀, hs₀⟩ | ⟨e', he', rfl⟩
    · exact hmono g e s (hc.seen t₀ ht₀ s hs₀)
    · rw [hp] at he'
      cases he'
      exact hJ

/-- The condition on the history, for the first choice and for the rest. -/
theorem along_performed_cons {c : Config Act Res ε S} {g : G} {ch : Choice Act Res ε}
    {chs : List (Choice Act Res ε)} (hP : Along step P g (c.performed h (ch :: chs))) :
    (∀ e, c.performs ch = some e → P g e) ∧
      Along step P ((c.performs ch).toList.foldl step g) ((c.next h ch).performed h chs) := by
  simp only [performed] at hP
  cases hp : c.performs ch with
  | none =>
    rw [hp] at hP
    exact ⟨fun e he => (by cases he), hP⟩
  | some e =>
    rw [hp] at hP
    refine ⟨fun e' he' => ?_, hP.2⟩
    cases he'
    exact hP.1

variable (step)

/-- What `exec_history` says, for a history that records every answer: a step may use that the
answers which its program has seen are recorded (`J`), and the condition `P` on the step. -/
theorem exec_recorded (hmono : ∀ g e s, J g s → J (step g e) s)
    (chs : List (Choice Act Res ε)) (c : Config Act Res ε S) (g : G) (hc : c.Recorded I J g)
    (hP : Along step P g (c.performed h chs))
    (hstep : ∀ e ∈ c.performed h chs, ∀ g, I g e.state → (∀ s ∈ e.seen, J g s) → P g e →
      I (step g e) (h e.act e.state).2 ∧ J (step g e) ⟨e.act, (h e.act e.state).1⟩) :
    (c.exec h chs).Recorded I J ((c.performed h chs).foldl step g) := by
  induction chs generalizing c g with
  | nil => exact hc
  | cons ch chs ih =>
    obtain ⟨hfirst, hrest⟩ := along_performed_cons hP
    simp only [performed, List.foldl_append]
    refine ih (c.next h ch) _ (recorded_next hmono hc ch fun e he hI hJ => ?_) hrest
      fun e he => hstep e (List.mem_append_right _ he)
    exact hstep e (List.mem_append_left _ (Option.mem_toList.2 he)) g hI hJ (hfirst e he)

/-- The same, where an action is performed. -/
theorem performed_recorded (hmono : ∀ g e s, J g s → J (step g e) s)
    (chs : List (Choice Act Res ε)) (c : Config Act Res ε S) (g : G) (hc : c.Recorded I J g)
    (hP : Along step P g (c.performed h chs))
    (hstep : ∀ e ∈ c.performed h chs, ∀ g, I g e.state → (∀ s ∈ e.seen, J g s) → P g e →
      I (step g e) (h e.act e.state).2 ∧ J (step g e) ⟨e.act, (h e.act e.state).1⟩)
    {before after : List (Performed Act Res S)} {e : Performed Act Res S}
    (hsplit : c.performed h chs = before ++ e :: after) :
    I (before.foldl step g) e.state ∧ (∀ s ∈ e.seen, J (before.foldl step g) s) ∧
      P (before.foldl step g) e := by
  induction chs generalizing c g before with
  | nil => simp [performed] at hsplit
  | cons ch chs ih =>
    obtain ⟨hfirst, hrest⟩ := along_performed_cons hP
    have hnext := recorded_next hmono hc ch fun e he hI hJ =>
      hstep e (List.mem_append_left _ (Option.mem_toList.2 he)) g hI hJ (hfirst e he)
    have hlater := fun e he => hstep e (List.mem_append_right _ he)
    cases hp : c.performs ch with
    | none =>
      rw [hp] at hnext hrest
      simp only [performed, hp, Option.toList_none, List.nil_append] at hsplit
      exact ih (c.next h ch) g hnext hrest hlater hsplit
    | some e₀ =>
      rw [hp] at hnext hrest
      simp only [performed, hp, Option.toList_some, List.cons_append, List.nil_append] at hsplit
      cases before with
      | nil =>
        obtain ⟨rfl, -⟩ := List.cons.inj hsplit
        obtain ⟨t, ht, hseen⟩ := performs_seen hp
        refine ⟨performs_state hp ▸ hc.state, fun s hs => ?_, hfirst _ hp⟩
        exact hc.seen t ht s (hseen ▸ hs)
      | cons b before =>
        obtain ⟨rfl, htail⟩ := List.cons.inj hsplit
        exact ih (c.next h ch) _ hnext hrest hlater htail

end Recorded

/-- The task has come from the program `p`: what is left of it completes a path of `p`. -/
def From (answers : (a : Act) → Res a → Prop) (p : Prog Act Res ε Unit)
    (t : Task Act Res ε) : Prop :=
  ∀ l o, t.prog.Path answers l o → p.Path answers (t.seen ++ l) o

/-- One choice keeps where the first task comes from, unless it drops that task. -/
theorem head_from_next (hanswers : ∀ a s, answers a (h a s).1) {p : Prog Act Res ε Unit}
    {c : Config Act Res ε S} {t : Task Act Res ε} (hc : c.tasks.head? = some t)
    (hfrom : From answers p t) {ch : Choice Act Res ε} (hdrop : ch ≠ .drop 0) :
    ∃ t', (c.next h ch).tasks.head? = some t' ∧ From answers p t' := by
  obtain ⟨ts, hts⟩ := List.head?_eq_some_iff.1 hc
  cases ch with
  | start q => exact ⟨t, by simp [next, hts], hfrom⟩
  | drop i =>
    cases i with
    | zero => exact absurd rfl hdrop
    | succ i => exact ⟨t, by simp [next, hts], hfrom⟩
  | step i =>
    simp only [next]
    split
    · rename_i a k seen ht
      cases i with
      | succ i => exact ⟨t, by simp [hts], hfrom⟩
      | zero =>
        rw [hts] at ht
        cases ht
        refine ⟨⟨k (h a c.state).1, seen ++ [⟨a, (h a c.state).1⟩]⟩, by simp [hts], ?_⟩
        intro l o hl
        rw [List.append_assoc]
        exact hfrom _ o (.act (hanswers a c.state) hl)
    · exact ⟨t, hc, hfrom⟩

/-- Whatever else runs, the answers that the first task got by the time it has finished are a
complete path of its program. -/
theorem head_finished_path (hanswers : ∀ a s, answers a (h a s).1) {p : Prog Act Res ε Unit}
    (chs : List (Choice Act Res ε)) (c : Config Act Res ε S) {t₀ : Task Act Res ε}
    (hc : c.tasks.head? = some t₀) (hfrom : From answers p t₀)
    (hdrop : Choice.drop 0 ∉ chs) {t : Task Act Res ε}
    (ht : (c.exec h chs).tasks.head? = some t) {o : Except ε Unit}
    (ho : t.prog.outcome = some o) : p.Path answers t.seen o := by
  induction chs generalizing c t₀ with
  | nil =>
    have hsame : t₀ = t := Option.some.inj (hc.symm.trans ht)
    subst hsame
    have hpath := hfrom [] o (Prog.path_of_outcome ho)
    rw [List.append_nil] at hpath
    exact hpath
  | cons ch chs ih =>
    obtain ⟨t', hc', hfrom'⟩ := head_from_next hanswers hc hfrom
      fun hch => hdrop (hch ▸ List.mem_cons_self ..)
    exact ih (c.next h ch) hc' hfrom' (fun hmem => hdrop (List.mem_cons_of_mem _ hmem)) ht

end Config

end Effects
