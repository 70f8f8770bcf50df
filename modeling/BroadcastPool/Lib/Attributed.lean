import BroadcastPool.Lib.Interleave

/-!
# `BroadcastPool.Lib.Attributed`: interleavings that say which job acts

A schedule of `Lib.Interleave` starts programs, and a performed action does not say which program
it belongs to. Here a schedule starts jobs (`Order`), and `prog` says what the program of a job is.
The jobs are numbered in the order in which they start. `deeds` lists the performed actions, each
with the number and the job that it belongs to.

`deeds_performed` says that the list is the one of `Lib.Interleave`. `required_of_deed` is the rule
for programs: what holds on every path of a job's program holds of each of its deeds.
`seen_eq_own` ties a deed to the ones before it: its program has seen the answers to the deeds of
its own number. `deeds_induction` is the rule for an invariant of the history and the state.
-/

set_option autoImplicit false

namespace Effects

variable {Act : Type} {Res : Act → Type} {ε S J : Type}

/-- One decision of the scheduler about jobs. -/
inductive Order (J : Type)
  | start (j : J)
  | step (i : Nat)
  | drop (i : Nat)

/-- The decision about the program of the job. -/
def Order.choice (prog : J → Prog Act Res ε Unit) : Order J → Choice Act Res ε
  | .start j => .start (prog j)
  | .step i => .step i
  | .drop i => .drop i

/-- The running jobs with their numbers, in the order of the tasks. -/
structure Roster (J : Type) where
  next : Nat := 0
  running : List (Nat × J) := []

/-- The roster after a decision. -/
def Roster.after (r : Roster J) : Order J → Roster J
  | .start j => { next := r.next + 1, running := r.running ++ [(r.next, j)] }
  | .step _ => r
  | .drop i => { r with running := r.running.eraseIdx i }

/-- A performed action, and the job that performed it. -/
structure Deed (J Act : Type) (Res : Act → Type) (S : Type) extends Performed Act Res S where
  number : Nat
  job : J

/-- The answers that the job with this number has got. -/
def ownAnswers (h : Handler Act Res S) (n : Nat) (ds : List (Deed J Act Res S)) :
    List (Seen Act Res) :=
  (ds.filter fun d => d.number = n).map fun d => ⟨d.act, (h d.act d.state).1⟩

section Own
variable {h : Handler Act Res S} {n : Nat}

theorem ownAnswers_append (ds ds' : List (Deed J Act Res S)) :
    ownAnswers h n (ds ++ ds') = ownAnswers h n ds ++ ownAnswers h n ds' := by
  simp [ownAnswers]

theorem ownAnswers_other {d : Deed J Act Res S} (hne : d.number ≠ n) :
    ownAnswers h n [d] = [] := by
  simp [ownAnswers, hne]

theorem ownAnswers_eq_nil {ds : List (Deed J Act Res S)} (hne : ∀ d ∈ ds, d.number ≠ n) :
    ownAnswers h n ds = [] := by
  simp only [ownAnswers, List.map_eq_nil_iff, List.filter_eq_nil_iff, decide_eq_true_eq]
  exact hne

/-- An answer of the job is the answer to one of its deeds. -/
theorem mem_ownAnswers {ds : List (Deed J Act Res S)} {s : Seen Act Res} :
    s ∈ ownAnswers h n ds ↔
      ∃ d ∈ ds, d.number = n ∧ s = ⟨d.act, (h d.act d.state).1⟩ := by
  constructor
  · intro hs
    obtain ⟨d, hd, rfl⟩ := List.mem_map.1 hs
    obtain ⟨hmem, hn⟩ := List.mem_filter.1 hd
    exact ⟨d, hmem, of_decide_eq_true hn, rfl⟩
  · rintro ⟨d, hmem, hn, rfl⟩
    exact List.mem_map.2 ⟨d, List.mem_filter.2 ⟨hmem, decide_eq_true hn⟩, rfl⟩

end Own

namespace Config

/-- The deed of a decision, if it performs an action. -/
def deed (c : Config Act Res ε S) (r : Roster J) : Order J → Option (Deed J Act Res S)
  | .step i => (c.performs (.step i)).bind fun e =>
      r.running[i]?.map fun x => { e with number := x.1, job := x.2 }
  | _ => none

/-- The deeds of a schedule of jobs, in order. -/
def deeds (h : Handler Act Res S) (prog : J → Prog Act Res ε Unit) :
    Config Act Res ε S → Roster J → List (Order J) → List (Deed J Act Res S)
  | _, _, [] => []
  | c, r, o :: os =>
      (c.deed r o).toList ++ deeds h prog (c.next h (o.choice prog)) (r.after o) os

variable {h : Handler Act Res S} {prog : J → Prog Act Res ε Unit}
  {answers : (a : Act) → Res a → Prop} {required : J → List (Seen Act Res) → Act → Prop}

/-- What a running job has seen, what its program still meets, and which deeds are its own. -/
structure Works (h : Handler Act Res S) (answers : (a : Act) → Res a → Prop)
    (required : J → List (Seen Act Res) → Act → Prop) (ds : List (Deed J Act Res S))
    (x : Nat × J) (t : Task Act Res ε) : Prop where
  seen : t.seen = ownAnswers h x.1 ds
  meets : t.prog.OnPaths answers (required x.2) t.seen
  job : ∀ d ∈ ds, d.number = x.1 → d.job = x.2

/-- The roster goes with the tasks, after the deeds `ds`. -/
structure Staffed (h : Handler Act Res S) (answers : (a : Act) → Res a → Prop)
    (required : J → List (Seen Act Res) → Act → Prop) (ds : List (Deed J Act Res S))
    (r : Roster J) (c : Config Act Res ε S) : Prop where
  length : r.running.length = c.tasks.length
  distinct : (r.running.map (·.1)).Nodup
  started : ∀ x ∈ r.running, x.1 < r.next
  past : ∀ d ∈ ds, d.number < r.next
  works : ∀ (i : Nat) (x : Nat × J) (t : Task Act Res ε), r.running[i]? = some x →
    c.tasks[i]? = some t → Works h answers required ds x t

theorem staffed_nil (s : S) :
    Staffed h answers required [] ({} : Roster J) (⟨s, []⟩ : Config Act Res ε S) :=
  ⟨rfl, List.nodup_nil, fun x hx => (by cases hx), fun d hd => (by cases hd),
    fun i x t hx => (by cases hx)⟩

variable {ds : List (Deed J Act Res S)} {r : Roster J} {c : Config Act Res ε S}

theorem staffed_start {j : J} (hc : Staffed h answers required ds r c)
    (hj : (prog j).OnPaths answers (required j) []) :
    Staffed h answers required ds (r.after (.start j)) (c.next h (.start (prog j))) := by
  -- The new job has a number that nobody has had, hence no deeds and no answers yet.
  refine ⟨?_, ?_, fun x hx => ?_, fun d hd => ?_, fun i x t hx ht => ?_⟩
  · show (r.running ++ [_]).length = (c.tasks ++ [_]).length
    rw [List.length_append, List.length_append, hc.length]
    rfl
  · show ((r.running ++ [(r.next, j)]).map (·.1)).Nodup
    rw [List.map_append]
    have hone : ([(r.next, j)].map (·.1)).Nodup := by simp
    refine List.nodup_append.2 ⟨hc.distinct, hone, fun n hn m hm => ?_⟩
    obtain ⟨x, hx, rfl⟩ := List.mem_map.1 hn
    rw [List.mem_singleton.1 hm]
    exact Nat.ne_of_lt (hc.started x hx)
  · rcases List.mem_append.1 hx with hx | hx
    · exact Nat.lt_succ_of_lt (hc.started x hx)
    · rw [List.mem_singleton.1 hx]
      exact Nat.lt_succ_self _
  · exact Nat.lt_succ_of_lt (hc.past d hd)
  · change (r.running ++ [(r.next, j)])[i]? = some x at hx
    change (c.tasks ++ [{ prog := prog j }])[i]? = some t at ht
    rw [List.getElem?_append] at hx ht
    rw [← hc.length] at ht
    split at hx
    · rename_i hi
      rw [if_pos hi] at ht
      exact hc.works i x t hx ht
    · rename_i hi
      rw [if_neg hi] at ht
      rw [List.getElem?_singleton] at hx ht
      split at hx
      · rename_i hzero
        rw [if_pos hzero] at ht
        cases hx
        cases ht
        have hnone : ∀ d ∈ ds, d.number ≠ r.next := fun d hd => Nat.ne_of_lt (hc.past d hd)
        exact ⟨(ownAnswers_eq_nil hnone).symm, hj, fun d hd hn => absurd hn (hnone d hd)⟩
      · cases hx

theorem staffed_drop {i : Nat} (hc : Staffed h answers required ds r c) :
    Staffed h answers required ds (r.after (.drop i)) (c.next h (.drop i)) := by
  have hmem : ∀ x ∈ r.running.eraseIdx i, x ∈ r.running := fun _ => List.mem_of_mem_eraseIdx
  refine ⟨?_, ?_, fun x hx => hc.started x (hmem x hx), hc.past, fun k x t hx ht => ?_⟩
  · show (r.running.eraseIdx i).length = (c.tasks.eraseIdx i).length
    rw [List.length_eraseIdx, List.length_eraseIdx, hc.length]
  · have hsub : (r.running.eraseIdx i).Sublist r.running := List.eraseIdx_sublist ..
    exact (hsub.map (·.1)).nodup hc.distinct
  · change (r.running.eraseIdx i)[k]? = some x at hx
    change (c.tasks.eraseIdx i)[k]? = some t at ht
    rw [List.getElem?_eraseIdx] at hx ht
    split at hx
    · rename_i hk
      rw [if_pos hk] at ht
      exact hc.works k x t hx ht
    · rename_i hk
      rw [if_neg hk] at ht
      exact hc.works (k + 1) x t hx ht

/-- A step that performs nothing changes nothing. -/
theorem next_of_performs_none {i : Nat} (hnone : c.performs (.step i) = none) :
    c.next h (.step i) = c := by
  simp only [performs] at hnone
  simp only [next]
  split at hnone
  · cases hnone
  · rfl

/-- Every action belongs to a running job. -/
theorem performs_of_deed_none (hlength : r.running.length = c.tasks.length) {i : Nat}
    (hnone : c.deed r (.step i) = none) : c.performs (.step i) = none := by
  cases hp : c.performs (.step i) with
  | none => rfl
  | some e =>
    simp only [deed, hp, Option.bind_some, Option.map_eq_none_iff, List.getElem?_eq_none_iff]
      at hnone
    rw [hlength] at hnone
    simp only [performs, List.getElem?_eq_none hnone] at hp
    cases hp

/-- The job that acts is the only one whose answers change. -/
theorem staffed_step {i : Nat} {x : Nat × J} {a : Act} {k : Res a → Prog Act Res ε Unit}
    {seen : List (Seen Act Res)} (hc : Staffed h answers required ds r c)
    (hx : r.running[i]? = some x) (ht : c.tasks[i]? = some { prog := .act a k, seen })
    (hmeets : (k (h a c.state).1).OnPaths answers (required x.2)
      (seen ++ [⟨a, (h a c.state).1⟩])) :
    Staffed h answers required
      (ds ++ [{ state := c.state, seen, act := a, number := x.1, job := x.2 }])
      r (c.next h (.step i)) := by
  have hworks := hc.works i x _ hx ht
  -- Any other one: the numbers differ, so this answer is not among its own.
  have hnext : c.next h (.step i) = ⟨(h a c.state).2,
      c.tasks.set i ⟨k (h a c.state).1, seen ++ [⟨a, (h a c.state).1⟩]⟩⟩ := by
    simp only [next, ht]
  rw [hnext]
  refine ⟨?_, hc.distinct, hc.started, fun d hd => ?_, fun i' x' t' hx' ht' => ?_⟩
  · show _ = (c.tasks.set i _).length
    rw [List.length_set]
    exact hc.length
  · rcases List.mem_append.1 hd with hd | hd
    · exact hc.past d hd
    · rw [List.mem_singleton.1 hd]
      exact hc.started x (List.mem_of_getElem? hx)
  · change (c.tasks.set i _)[i']? = some t' at ht'
    rw [List.getElem?_set] at ht'
    split at ht'
    · -- The acting job: its answers grow by this one.
      rename_i hsame
      subst hsame
      rw [hx] at hx'
      cases hx'
      split at ht'
      · cases ht'
        refine ⟨?_, hmeets, fun d hd hn => ?_⟩
        · have hseen : seen = ownAnswers h x.1 ds := hworks.seen
          rw [ownAnswers_append, ← hseen]
          simp [ownAnswers]
        · rcases List.mem_append.1 hd with hd | hd
          · exact hworks.job d hd hn
          · rw [List.mem_singleton.1 hd]
      · cases ht'
    · rename_i hother
      have hne : x.1 ≠ x'.1 := by
        intro hsame
        have hi : (r.running.map (·.1))[i]? = some x.1 := by rw [List.getElem?_map, hx]; rfl
        have hi' : (r.running.map (·.1))[i']? = some x.1 := by
          rw [List.getElem?_map, hx', hsame]
          rfl
        have hlt : i < (r.running.map (·.1)).length := (List.getElem?_eq_some_iff.1 hi).1
        exact hother ((List.getElem?_inj hlt hc.distinct).1 (hi.trans hi'.symm))
      have hworks' := hc.works i' x' t' hx' ht'
      refine ⟨?_, hworks'.meets, fun d hd hn => ?_⟩
      · rw [ownAnswers_append, ownAnswers_other hne, List.append_nil]
        exact hworks'.seen
      · rcases List.mem_append.1 hd with hd | hd
        · exact hworks'.job d hd hn
        · rw [List.mem_singleton.1 hd] at hn
          exact absurd hn hne

/-- A deed belongs to a running job, and meets what the program of that job requires. -/
theorem staffed_deed (prog : J → Prog Act Res ε Unit) (hanswers : ∀ a s, answers a (h a s).1)
    (hc : Staffed h answers required ds r c) {o : Order J} {d : Deed J Act Res S}
    (hd : c.deed r o = some d) :
    Staffed h answers required (ds ++ [d]) (r.after o) (c.next h (o.choice prog)) ∧
      c.performs (o.choice prog) = some d.toPerformed ∧ d.seen = ownAnswers h d.number ds ∧
        required d.job d.seen d.act ∧ ∀ d' ∈ ds, d'.number = d.number → d'.job = d.job := by
  cases o with
  | start j => cases hd
  | drop i => cases hd
  | step i =>
    obtain ⟨e, hperforms, hd⟩ := Option.bind_eq_some_iff.1 hd
    obtain ⟨x, hx, rfl⟩ := Option.map_eq_some_iff.1 hd
    simp only [performs] at hperforms
    split at hperforms
    · rename_i a k seen ht
      cases hperforms
      have hworks := hc.works i x _ hx ht
      have hmeets := hworks.meets
      unfold Prog.OnPaths at hmeets
      rw [Prog.wp_act] at hmeets
      obtain ⟨hreq, hk⟩ := hmeets trivial
      refine ⟨?_, ?_, hworks.seen, hreq, hworks.job⟩
      · exact staffed_step hc hx ht (hk _ _ ⟨hanswers a c.state, rfl⟩)
      · simp only [Order.choice, performs, ht]
    · cases hperforms

/-- One decision keeps the roster in step with the tasks. -/
theorem staffed_next (prog : J → Prog Act Res ε Unit) (hanswers : ∀ a s, answers a (h a s).1)
    (hc : Staffed h answers required ds r c) (o : Order J)
    (hstart : ∀ j, o = .start j → (prog j).OnPaths answers (required j) []) :
    Staffed h answers required (ds ++ (c.deed r o).toList) (r.after o)
      (c.next h (o.choice prog)) ∧
        (c.performs (o.choice prog)).toList = (c.deed r o).toList.map Deed.toPerformed := by
  cases hd : c.deed r o with
  | some d =>
    obtain ⟨hnext, hperforms, -⟩ := staffed_deed prog hanswers hc hd
    exact ⟨hnext, by rw [hperforms]; rfl⟩
  | none =>
    rw [Option.toList_none, List.append_nil]
    cases o with
    | start j => exact ⟨staffed_start hc (hstart j rfl), rfl⟩
    | drop i => exact ⟨staffed_drop hc, rfl⟩
    | step i =>
      have hperforms := performs_of_deed_none hc.length hd
      show Staffed h answers required ds r (c.next h (.step i)) ∧
        (c.performs (.step i)).toList = []
      rw [next_of_performs_none hperforms, hperforms]
      exact ⟨hc, rfl⟩

/-! ### The deeds of a schedule -/

/-- The deeds are the performed actions. -/
theorem deeds_performed_of_staffed (hanswers : ∀ a s, answers a (h a s).1) (os : List (Order J))
    (hc : Staffed h answers required ds r c)
    (hstart : ∀ j, Order.start j ∈ os → (prog j).OnPaths answers (required j) []) :
    (c.deeds h prog r os).map Deed.toPerformed = c.performed h (os.map (Order.choice prog)) := by
  induction os generalizing c r ds with
  | nil => rfl
  | cons o os ih =>
    obtain ⟨hnext, hperforms⟩ := staffed_next prog hanswers hc o
      fun j hj => hstart j (hj ▸ List.mem_cons_self ..)
    simp only [deeds, List.map_append, List.map_cons, performed, ← hperforms]
    rw [ih hnext fun j hj => hstart j (List.mem_cons_of_mem _ hj)]

/-- What is known of a deed and of the ones before it. -/
structure Owned (h : Handler Act Res S) (required : J → List (Seen Act Res) → Act → Prop)
    (before : List (Deed J Act Res S)) (d : Deed J Act Res S) : Prop where
  /-- The program has seen the answers to the deeds of its own number. -/
  seen : d.seen = ownAnswers h d.number before
  /-- The action is one that the program of the job may perform. -/
  meets : required d.job d.seen d.act
  /-- One number is one job. -/
  job : ∀ d' ∈ before, d'.number = d.number → d'.job = d.job

theorem owned_of_staffed (hanswers : ∀ a s, answers a (h a s).1) (os : List (Order J))
    (hc : Staffed h answers required ds r c)
    (hstart : ∀ j, Order.start j ∈ os → (prog j).OnPaths answers (required j) [])
    {before after : List (Deed J Act Res S)} {d : Deed J Act Res S}
    (hsplit : c.deeds h prog r os = before ++ d :: after) :
    Owned h required (ds ++ before) d := by
  induction os generalizing c r ds before with
  | nil => simp [deeds] at hsplit
  | cons o os ih =>
    have hnext := (staffed_next prog hanswers hc o
      fun j hj => hstart j (hj ▸ List.mem_cons_self ..)).1
    have hlater := fun j hj => hstart j (List.mem_cons_of_mem _ hj)
    cases hd : c.deed r o with
    | none =>
      rw [hd, Option.toList_none, List.append_nil] at hnext
      simp only [deeds, hd, Option.toList_none, List.nil_append] at hsplit
      exact ih hnext hlater hsplit
    | some d₀ =>
      rw [hd] at hnext
      simp only [deeds, hd, Option.toList_some, List.singleton_append] at hsplit
      cases before with
      | nil =>
        obtain ⟨rfl, -⟩ := List.cons.inj hsplit
        obtain ⟨-, -, hseen, hmeets, hjob⟩ := staffed_deed prog hanswers hc hd
        rw [List.append_nil]
        exact ⟨hseen, hmeets, hjob⟩
      | cons b before =>
        obtain ⟨rfl, hrest⟩ := List.cons.inj hsplit
        have howned := ih hnext hlater hrest
        rw [Option.toList_some, List.append_assoc, List.singleton_append] at howned
        exact howned

section Fresh
variable {s : S} {os : List (Order J)}

/-- What holds on every path of the jobs' programs holds of every deed. -/
theorem required_of_deed (hanswers : ∀ a s, answers a (h a s).1)
    (hstart : ∀ j, Order.start j ∈ os → (prog j).OnPaths answers (required j) []) :
    ∀ d ∈ deeds h prog ⟨s, []⟩ {} os, required d.job d.seen d.act := by
  intro d hd
  obtain ⟨before, after, hsplit⟩ := List.append_of_mem hd
  exact (owned_of_staffed hanswers os (staffed_nil s) hstart hsplit).meets

/-- A requirement that any program meets. -/
theorem onPaths_anything (p : Prog Act Res ε Unit) (l : List (Seen Act Res)) :
    p.OnPaths (fun _ _ => True) (fun _ _ => True) l := by
  unfold Prog.OnPaths
  induction p generalizing l with
  | ret a =>
    rw [Prog.wp_ret]
    trivial
  | fail e =>
    rw [Prog.wp_fail]
    trivial
  | act a k ih =>
    rw [Prog.wp_act]
    exact fun _ => ⟨trivial, fun r l' _ => ih r l'⟩

theorem staffed_anything (s : S) : Staffed h (fun (_ : Act) (_ : Res _) => True)
    (fun (_ : J) _ _ => True) [] {} (⟨s, []⟩ : Config Act Res ε S) :=
  staffed_nil s

/-- A program has seen the answers to the deeds of its own number. -/
theorem seen_eq_own {before after : List (Deed J Act Res S)} {d : Deed J Act Res S}
    (hsplit : deeds h prog ⟨s, []⟩ {} os = before ++ d :: after) :
    d.seen = ownAnswers h d.number before :=
  (owned_of_staffed (fun _ _ => trivial) os (staffed_anything s)
    (fun _ _ => onPaths_anything _ _) hsplit).seen

/-- The deeds are the actions that the schedule performs. -/
theorem deeds_performed :
    (deeds h prog ⟨s, []⟩ {} os).map Deed.toPerformed =
      performed h ⟨s, []⟩ (os.map (Order.choice prog)) :=
  deeds_performed_of_staffed (fun _ _ => trivial) os (staffed_anything s)
    fun _ _ => onPaths_anything _ _

end Fresh

/-! ### Histories -/

/-- The event at which a list is split is one of the list. -/
theorem mem_of_split {E : Type} {es before after : List E} {e : E}
    (hsplit : es = before ++ e :: after) : e ∈ es := by
  rw [hsplit]
  exact List.mem_append_right _ (List.mem_cons_self ..)

/-- Each action meets the state that the one before it has left. -/
def Linked (h : Handler Act Res S) : S → List (Performed Act Res S) → S → Prop
  | s, [], s' => s' = s
  | s, e :: es, s' => e.state = s ∧ Linked h (h e.act s).2 es s'

theorem linked_append {s s' : S} {es es' : List (Performed Act Res S)}
    (hlinked : Linked h s (es ++ es') s') : ∃ s₁, Linked h s es s₁ ∧ Linked h s₁ es' s' := by
  induction es generalizing s with
  | nil => exact ⟨s, rfl, hlinked⟩
  | cons e es ih =>
    obtain ⟨s₁, hes, hes'⟩ := ih hlinked.2
    exact ⟨s₁, ⟨hlinked.1, hes⟩, hes'⟩

theorem linked_performed (c : Config Act Res ε S) (chs : List (Choice Act Res ε)) :
    Linked h c.state (c.performed h chs) (c.exec h chs).state := by
  induction chs generalizing c with
  | nil => rfl
  | cons ch chs ih =>
    have hrest := ih (c.next h ch)
    rw [next_state] at hrest
    simp only [performed]
    cases hp : c.performs ch with
    | none =>
      rw [hp] at hrest
      exact hrest
    | some e =>
      rw [hp] at hrest
      exact ⟨performs_state hp, hrest⟩

/-- An invariant of the events so far and the state, for events that contain linked actions. -/
theorem linked_induction {E : Type} (action : E → Performed Act Res S) {I : List E → S → Prop}
    {s s' : S} (es : List E) (hlinked : Linked h s (es.map action) s') (hI : I [] s)
    (hkeep : ∀ before e after, es = before ++ e :: after → I before (action e).state →
      I (before ++ [e]) (h (action e).act (action e).state).2) : I es s' := by
  have hall : ∀ done rest s, es = done ++ rest → I done s → Linked h s (rest.map action) s' →
      I es s' := by
    intro done rest
    induction rest generalizing done with
    | nil =>
      intro s hes hdone hrest
      have hsame : s' = s := hrest
      rw [hes, List.append_nil, hsame]
      exact hdone
    | cons e rest ih =>
      intro s hes hdone hrest
      have hstate : (action e).state = s := hrest.1
      have hnext := hkeep done e rest hes (hstate ▸ hdone)
      rw [hstate] at hnext
      refine ih (done ++ [e]) _ ?_ hnext hrest.2
      rw [List.append_assoc]
      exact hes
  exact hall [] es s rfl hI hlinked

/-- A condition along a history, at one of its events. -/
theorem along_at {G E : Type} {step : G → E → G} {P : G → E → Prop} {g : G}
    {es before after : List E} {e : E} (h : Along step P g es)
    (hsplit : es = before ++ e :: after) :
    P (before.foldl step g) e := by
  induction before generalizing g es with
  | nil =>
    subst hsplit
    exact h.1
  | cons b before ih =>
    subst hsplit
    exact ih h.2 rfl

/-- A condition on the events before each event. -/
def AfterEach {E : Type} (P : List E → E → Prop) (es : List E) : Prop :=
  Along (fun before e => before ++ [e]) P [] es

instance {E : Type} (P : List E → E → Prop) [∀ before e, Decidable (P before e)] (es : List E) :
    Decidable (AfterEach P es) :=
  decidableAlong _ _ _ _

theorem foldl_concat {E : Type} (es done : List E) :
    es.foldl (fun before e => before ++ [e]) done = done ++ es := by
  induction es generalizing done with
  | nil => rw [List.foldl_nil, List.append_nil]
  | cons e es ih => rw [List.foldl_cons, ih, List.append_assoc, List.singleton_append]

theorem AfterEach.at {E : Type} {P : List E → E → Prop} {es before after : List E} {e : E}
    (h : AfterEach P es) (hsplit : es = before ++ e :: after) : P before e := by
  have hat := along_at h hsplit
  rw [foldl_concat, List.nil_append] at hat
  exact hat

section Fresh
variable {s : S} {os : List (Order J)} {I : List (Deed J Act Res S) → S → Prop}

/-- What every deed keeps, from the deeds before it and the state, holds after the schedule. -/
theorem exec_deeds (hI : I [] s)
    (hkeep : ∀ before d after, deeds h prog ⟨s, []⟩ {} os = before ++ d :: after →
      I before d.state → I (before ++ [d]) (h d.act d.state).2) :
    I (deeds h prog ⟨s, []⟩ {} os) (exec h ⟨s, []⟩ (os.map (Order.choice prog))).state := by
  refine linked_induction Deed.toPerformed _ ?_ hI hkeep
  rw [deeds_performed]
  exact linked_performed ⟨s, []⟩ (os.map (Order.choice prog))

/-- The same, where a deed is done. -/
theorem deeds_induction (hI : I [] s)
    (hkeep : ∀ before d after, deeds h prog ⟨s, []⟩ {} os = before ++ d :: after →
      I before d.state → I (before ++ [d]) (h d.act d.state).2)
    {before after : List (Deed J Act Res S)} {d : Deed J Act Res S}
    (hsplit : deeds h prog ⟨s, []⟩ {} os = before ++ d :: after) : I before d.state := by
  have hlinked := linked_performed (h := h) ⟨s, []⟩ (os.map (Order.choice prog))
  rw [← deeds_performed, hsplit, List.map_append] at hlinked
  obtain ⟨s₁, hbefore, hrest⟩ := linked_append hlinked
  have hstate : d.state = s₁ := hrest.1
  rw [hstate]
  refine linked_induction Deed.toPerformed before hbefore hI fun b e a hb => ?_
  refine hkeep b e (a ++ d :: after) ?_
  rw [hsplit, hb]
  simp

end Fresh

end Config

end Effects
