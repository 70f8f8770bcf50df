import BroadcastPool.Lib.Interleave

/-!
# `BroadcastPool.Lib.Ledger`: obligations of running programs

Two stores that agree at rest disagree while a program has written one of them and not yet the
other. `bad s x` says that the stores disagree about `x` in the state `s`, and `owes seen x`
that a program with the answers `seen` still has to restore `x`.

`Prog.Settles` is about one program on its own: on every path it ends with nothing owed.
`exec_settled` is about interleavings: if each step lets a disagreement arise only about what
its own program then owes, every disagreement is owed by a running program. So there is none
once every program has finished (`not_bad_of_idle`).
-/

set_option autoImplicit false

namespace Effects

variable {Act : Type} {Res : Act → Type} {ε S X : Type} {α : Type}

/-- The contract of one program on its own, where the possible answers depend on what the
program has seen. -/
def seenContract (answers : List (Seen Act Res) → (a : Act) → Res a → Prop) :
    Contract Act Res (List (Seen Act Res)) where
  step seen a r seen' := answers seen a r ∧ seen' = seen ++ [⟨a, r⟩]
  assumed _ _ := True
  required _ _ := True

/-- On every path, `p` ends with nothing owed. -/
def Prog.Settles (answers : List (Seen Act Res) → (a : Act) → Res a → Prop)
    (owes : List (Seen Act Res) → X → Prop) (seen : List (Seen Act Res))
    (p : Prog Act Res ε α) : Prop :=
  p.wp (seenContract answers) (fun _ seen' => ∀ x, ¬ owes seen' x) seen

/-- One action of a path. -/
theorem Prog.wp_perform_seen {answers : List (Seen Act Res) → (a : Act) → Res a → Prop}
    (a : Act) (Q : Except ε (Res a) → List (Seen Act Res) → Prop) (seen : List (Seen Act Res))
    (hQ : ∀ r, answers seen a r → Q (.ok r) (seen ++ [⟨a, r⟩])) :
    (Prog.perform a : Prog Act Res ε (Res a)).wp (seenContract answers) Q seen := by
  rw [Prog.wp_perform]
  intro _
  refine ⟨trivial, fun r seen' hstep => ?_⟩
  obtain ⟨hr, rfl⟩ := hstep
  exact hQ r hr

/-- The program has ended. -/
def Prog.isFinished : Prog Act Res ε α → Bool
  | .ret _ => true
  | .fail _ => true
  | .act _ _ => false

/-- A finished program that settles owes nothing. -/
theorem Prog.not_owes_of_isFinished
    {answers : List (Seen Act Res) → (a : Act) → Res a → Prop}
    {owes : List (Seen Act Res) → X → Prop} {seen : List (Seen Act Res)} {p : Prog Act Res ε α}
    (hp : p.Settles answers owes seen) (h : p.isFinished = true) (x : X) : ¬ owes seen x := by
  unfold Prog.Settles at hp
  cases p with
  | ret a =>
    rw [Prog.wp_ret] at hp
    exact hp x
  | fail e =>
    rw [Prog.wp_fail] at hp
    exact hp x
  | act a k => cases h

namespace Config

/-- Every program has ended. -/
def idle (c : Config Act Res ε S) : Bool := c.tasks.all fun t => t.prog.isFinished

variable {h : Handler Act Res S} {answers : List (Seen Act Res) → (a : Act) → Res a → Prop}
  {owes : List (Seen Act Res) → X → Prop} {bad : S → X → Prop} {I : S → Prop}

/-- The tasks settle, the state satisfies `I`, and what is bad is owed by a task. -/
structure Settled (answers : List (Seen Act Res) → (a : Act) → Res a → Prop)
    (owes : List (Seen Act Res) → X → Prop) (bad : S → X → Prop) (I : S → Prop)
    (c : Config Act Res ε S) : Prop where
  settles : ∀ t ∈ c.tasks, t.prog.Settles answers owes t.seen
  state : I c.state
  owed : ∀ x, bad c.state x → ∃ t ∈ c.tasks, owes t.seen x

/-- The condition on one step: its answer is one the program counts on, `I` is kept, and what
is bad after it is owed by its own program, or was bad before and not owed by it. -/
structure SettledStep (h : Handler Act Res S)
    (answers : List (Seen Act Res) → (a : Act) → Res a → Prop)
    (owes : List (Seen Act Res) → X → Prop) (bad : S → X → Prop) (I : S → Prop)
    (e : Performed Act Res S) : Prop where
  answered : answers e.seen e.act (h e.act e.state).1
  state : I (h e.act e.state).2
  owed : ∀ x, bad (h e.act e.state).2 x →
    owes (e.seen ++ [⟨e.act, (h e.act e.state).1⟩]) x ∨ bad e.state x ∧ ¬ owes e.seen x

/-- One choice. A task that is dropped owes nothing. -/
theorem settled_next {c : Config Act Res ε S} (hc : c.Settled answers owes bad I)
    (ch : Choice Act Res ε)
    (hdrop : ∀ i, ch = .drop i → ∀ t, c.tasks[i]? = some t → ∀ x, ¬ owes t.seen x)
    (hstart : ∀ p, ch = .start p → p.Settles answers owes [])
    (hstep : ∀ e, c.performs ch = some e → I e.state → SettledStep h answers owes bad I e) :
    (c.next h ch).Settled answers owes bad I := by
  cases ch with
  | drop i =>
    refine ⟨fun t ht => hc.settles t (List.mem_of_mem_eraseIdx ht), hc.state, fun x hx => ?_⟩
    obtain ⟨t, ht, howes⟩ := hc.owed x hx
    refine ⟨t, ?_, howes⟩
    obtain ⟨j, hj⟩ := List.mem_iff_getElem?.1 ht
    refine List.mem_eraseIdx_iff_getElem?.2 ⟨j, ?_, hj⟩
    rintro rfl
    exact hdrop j rfl t hj x howes
  | start p =>
    refine ⟨fun t ht => ?_, hc.state, fun x hx => ?_⟩
    · rcases List.mem_append.1 ht with ht | ht
      · exact hc.settles t ht
      · cases List.mem_singleton.1 ht
        exact hstart p rfl
    · obtain ⟨t, ht, howes⟩ := hc.owed x hx
      exact ⟨t, List.mem_append_left _ ht, howes⟩
  | step i =>
    simp only [performs] at hstep
    simp only [next]
    split
    · rename_i a k seen ht
      rw [ht] at hstep
      obtain ⟨hanswer, hI, howed⟩ := hstep _ rfl hc.state
      have hi : i < c.tasks.length := (List.getElem?_eq_some_iff.1 ht).1
      refine ⟨fun t hmem => ?_, hI, fun x hx => ?_⟩
      · rcases List.mem_or_eq_of_mem_set hmem with hmem | rfl
        · exact hc.settles t hmem
        · have hwp := hc.settles _ (List.mem_of_getElem? ht)
          unfold Prog.Settles at hwp
          rw [Prog.wp_act] at hwp
          exact (hwp trivial).2 _ _ ⟨hanswer, rfl⟩
      · rcases howed x hx with howes | ⟨hbad, hnot⟩
        · exact ⟨_, List.mem_set hi _, howes⟩
        · -- The step was not about `x`, so the task that owes it is another one.
          obtain ⟨t, hmem, howes⟩ := hc.owed x hbad
          obtain ⟨j, hj, rfl⟩ := List.mem_iff_getElem.1 hmem
          refine ⟨c.tasks[j], ?_, howes⟩
          have hne : i ≠ j := by
            rintro rfl
            rw [List.getElem?_eq_getElem hj] at ht
            rw [Option.some.inj ht] at howes
            exact hnot howes
          exact List.mem_iff_getElem.2
            ⟨j, by rwa [List.length_set], List.getElem_set_ne hne _⟩
    · exact hc

/-- What is bad after a schedule is owed by a task, if every step meets the condition. -/
theorem exec_settled (chs : List (Choice Act Res ε)) (c : Config Act Res ε S)
    (hc : c.Settled answers owes bad I)
    (hdrop : ∀ before i after, chs = before ++ .drop i :: after →
      ∀ t, (c.exec h before).tasks[i]? = some t → ∀ x, ¬ owes t.seen x)
    (hstart : ∀ p, Choice.start p ∈ chs → p.Settles answers owes [])
    (hstep : ∀ e ∈ c.performed h chs, I e.state → SettledStep h answers owes bad I e) :
    (c.exec h chs).Settled answers owes bad I := by
  induction chs generalizing c with
  | nil => exact hc
  | cons ch chs ih =>
    refine ih (c.next h ch) ?_
      (fun before i after hsplit => hdrop (ch :: before) i after (congrArg (ch :: ·) hsplit))
      (fun p hp => hstart p (List.mem_cons_of_mem _ hp))
      fun e he => hstep e (List.mem_append_right _ he)
    refine settled_next hc ch (fun i hi => hdrop [] i chs (congrArg (· :: chs) hi))
      (fun p hp => hstart p (hp ▸ List.mem_cons_self ..)) fun e he => ?_
    exact hstep e (List.mem_append_left _ (Option.mem_toList.2 he))

/-- Once every program has finished, nothing is bad. -/
theorem not_bad_of_idle {c : Config Act Res ε S} (hc : c.Settled answers owes bad I)
    (hidle : c.idle = true) (x : X) : ¬ bad c.state x := by
  intro hx
  obtain ⟨t, ht, howes⟩ := hc.owed x hx
  exact Prog.not_owes_of_isFinished (hc.settles t ht) (List.all_eq_true.1 hidle t ht) x howes

end Config

end Effects
