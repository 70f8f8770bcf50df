import Mathlib.Data.List.Infix
import Mathlib.Data.List.TakeDrop

/-!
# `BroadcastPool.Lib.Channel`: a bounded broadcast channel and one receiver of it

Everything that is sent on the channel reaches every receiver at the receiver's own pace, but the
channel keeps only so many values. `sent` lists all values ever sent, and a receiver is the number
of the next value it reads.

`Receiver` is a receive together with what `tokio::sync::broadcast` documents of it: a receiver gets
the values in the order in which they were sent, each one once. One that is further behind than the
capacity is told how many values it has missed, and its cursor moves to the oldest value that the
channel keeps. `Receiver.standard` is such a receive.

`Heard` relates what a receiver has been given to what was sent: it is a sublist of the values
passed, and the missed ones make up the difference. A receiver has been given everything if and
only if it has missed nothing (`Heard.complete_iff`).
-/

set_option autoImplicit false

namespace Effects

namespace Channel

/-- What a receive finds. -/
inductive Receipt (α : Type)
  | empty
  | lagged (missed : Nat)
  | value (a : α)
deriving DecidableEq, Repr

/-- How many values a receiver has not read. -/
def backlog {α : Type} (sent : List α) (next : Nat) : Nat := sent.length - next

/-- A receive of a channel that keeps so many values. -/
structure Receiver (capacity : Nat) (α : Type) where
  /-- One receive at a position, and the position after it. -/
  receive : List α → Nat → Receipt α × Nat
  /-- A receiver that has read everything waits. -/
  waits : ∀ sent next, sent.length ≤ next → receive sent next = (.empty, next)
  /-- The next value that was sent, while the channel keeps it. -/
  gives : ∀ sent next a, sent[next]? = some a → backlog sent next ≤ capacity →
    receive sent next = (.value a, next + 1)
  /-- The number of the values that the channel has dropped. The oldest one it keeps is next. -/
  lags : ∀ sent next, capacity < backlog sent next →
    receive sent next = (.lagged (backlog sent next - capacity), sent.length - capacity)

/-- The receive that does this. -/
def Receiver.standard (capacity : Nat) (α : Type) : Receiver capacity α where
  receive sent next :=
    match sent[next]? with
    | none => (.empty, next)
    | some a =>
      if capacity < backlog sent next then
        (.lagged (backlog sent next - capacity), sent.length - capacity)
      else (.value a, next + 1)
  waits sent next h := by rw [List.getElem?_eq_none h]
  gives sent next a ha h := by
    rw [ha]
    exact if_neg (Nat.not_lt.2 h)
  lags sent next h := by
    have hlt : next < sent.length := by
      unfold backlog at h
      omega
    rw [List.getElem?_eq_getElem hlt]
    exact if_pos h

section
variable {α : Type} {capacity : Nat} {sent : List α} {next : Nat} (rx : Receiver capacity α)

/-- The three things that a receive can find. -/
theorem Receiver.receive_cases (sent : List α) (next : Nat) :
    (sent.length ≤ next ∧ rx.receive sent next = (.empty, next)) ∨
      (capacity < backlog sent next ∧ rx.receive sent next =
        (.lagged (backlog sent next - capacity), sent.length - capacity)) ∨
      ∃ a, sent[next]? = some a ∧ backlog sent next ≤ capacity ∧
        rx.receive sent next = (.value a, next + 1) := by
  by_cases hend : sent.length ≤ next
  · exact Or.inl ⟨hend, rx.waits sent next hend⟩
  · by_cases hlag : capacity < backlog sent next
    · exact Or.inr (Or.inl ⟨hlag, rx.lags sent next hlag⟩)
    · have hnext : sent[next]? = some sent[next] := List.getElem?_eq_getElem (by omega)
      have hkept : backlog sent next ≤ capacity := Nat.not_lt.1 hlag
      exact Or.inr (Or.inr ⟨_, hnext, hkept, rx.gives sent next _ hnext hkept⟩)

theorem Receiver.receive_empty_iff :
    (rx.receive sent next).1 = .empty ↔ sent.length ≤ next := by
  constructor
  · intro h
    rcases rx.receive_cases sent next with ⟨hend, -⟩ | ⟨-, hreceive⟩ | ⟨a, -, -, hreceive⟩
    · exact hend
    · rw [hreceive] at h
      cases h
    · rw [hreceive] at h
      cases h
  · intro h
    rw [rx.waits sent next h]

/-- What follows from the answer to a receive. -/
theorem Receiver.receive_lagged {missed next' : Nat}
    (h : rx.receive sent next = (.lagged missed, next')) :
    capacity < backlog sent next ∧ 0 < missed ∧ next' = next + missed ∧
      next' + capacity = sent.length := by
  rcases rx.receive_cases sent next with ⟨-, hreceive⟩ | ⟨hlag, hreceive⟩ | ⟨a, -, -, hreceive⟩
  · rw [hreceive] at h
    cases h
  · rw [hreceive] at h
    cases h
    unfold backlog at hlag ⊢
    omega
  · rw [hreceive] at h
    cases h

theorem Receiver.receive_value {a : α} {next' : Nat}
    (h : rx.receive sent next = (.value a, next')) :
    sent[next]? = some a ∧ next' = next + 1 ∧ backlog sent next ≤ capacity := by
  rcases rx.receive_cases sent next with ⟨-, hreceive⟩ | ⟨-, hreceive⟩ | ⟨b, hb, hkept, hreceive⟩
  · rw [hreceive] at h
    cases h
  · rw [hreceive] at h
    cases h
  · rw [hreceive] at h
    cases h
    exact ⟨hb, rfl, hkept⟩

end

/-! ### What a receiver has been given -/

variable {α : Type} {capacity : Nat} {sent : List α} {next : Nat}

/-- A receiver that started at `start` and is now at `next` has been given `heard` and has been
told of `missed` lost values. -/
structure Heard (sent : List α) (start next : Nat) (heard : List α) (missed : Nat) : Prop where
  started : start ≤ next
  bounded : next ≤ sent.length
  sublist : heard.Sublist ((sent.take next).drop start)
  count : start + heard.length + missed = next

variable {start missed : Nat} {heard : List α}

theorem Heard.init (h : start ≤ sent.length) : Heard sent start start [] 0 :=
  ⟨le_rfl, h, List.nil_sublist _, rfl⟩

/-- More values may be sent. -/
theorem Heard.send (h : Heard sent start next heard missed) (more : List α) :
    Heard (sent ++ more) start next heard missed := by
  refine { h with bounded := ?_, sublist := ?_ }
  · rw [List.length_append]
    exact Nat.le_add_right_of_le h.bounded
  · rw [List.take_append_of_le_length h.bounded]
    exact h.sublist

theorem Heard.lagged (h : Heard sent start next heard missed) {rx : Receiver capacity α}
    {n next' : Nat} (hreceive : rx.receive sent next = (.lagged n, next')) :
    Heard sent start next' heard (missed + n) := by
  obtain ⟨-, -, hnext, hsent⟩ := rx.receive_lagged hreceive
  have hle : next ≤ next' := by omega
  refine ⟨h.started.trans hle, by omega, h.sublist.trans ?_, ?_⟩
  · -- What was passed before is a prefix of what is passed now.
    refine (List.IsPrefix.drop ?_ start).sublist
    exact List.take_prefix_take_left hle
  · have hcount := h.count
    omega

theorem Heard.value (h : Heard sent start next heard missed) {rx : Receiver capacity α}
    {a : α} {next' : Nat} (hreceive : rx.receive sent next = (.value a, next')) :
    Heard sent start next' (heard ++ [a]) missed := by
  obtain ⟨ha, rfl, -⟩ := rx.receive_value hreceive
  have hlt : next < sent.length := (List.getElem?_eq_some_iff.1 ha).1
  refine ⟨Nat.le_succ_of_le h.started, hlt, ?_, ?_⟩
  · have htake : sent.take (next + 1) = sent.take next ++ [a] := by
      rw [List.take_add_one, ha]
      rfl
    have hstart : start ≤ (sent.take next).length := by
      rw [List.length_take]
      exact le_min h.started (h.started.trans h.bounded)
    rw [htake, List.drop_append_of_le_length hstart]
    exact h.sublist.append (List.Sublist.refl _)
  · have hcount := h.count
    rw [List.length_append, List.length_singleton]
    omega

/-- A receiver has been given all values it has passed exactly when it has missed none. -/
theorem Heard.complete_iff (h : Heard sent start next heard missed) :
    heard = (sent.take next).drop start ↔ missed = 0 := by
  have hlength : ((sent.take next).drop start).length = next - start := by
    rw [List.length_drop, List.length_take, min_eq_left h.bounded]
  have hcount := h.count
  constructor
  · intro heq
    have := congrArg List.length heq
    omega
  · intro hnone
    refine h.sublist.eq_of_length ?_
    omega

end Channel

end Effects
