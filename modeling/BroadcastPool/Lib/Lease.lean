import Mathlib.Data.List.Chain

/-!
# `BroadcastPool.Lib.Lease`: a lease that every use renews

A lease is granted, used and revoked, and it runs out when it has not been used for `ttl`. A
history lists these events with their times, the oldest first. `Lease.Alive` says when the lease
is alive at a time: it was granted, only uses have followed the last grant, and all the gaps up to
that time are shorter than `ttl`. The `alive_concat` lemmas say what one more event does, which is
what a store that keeps a single deadline has to follow.
-/

set_option autoImplicit false

namespace Effects.Lease

/-- What happens to a lease. -/
inductive Event
  | grant | use | revoke
deriving DecidableEq, Repr

/-- Events with their times, the oldest first. -/
abbrev History : Type := List (Nat × Event)

/-- The second time is less than `ttl` after the first. -/
def Within (ttl s t : Nat) : Prop := t < s + ttl

/-- The lease is alive at `t`: there is a last grant, no revocation after it, and from the grant
to `t` two consecutive events are never `ttl` apart. -/
def Alive (ttl : Nat) (history : History) (t : Nat) : Prop :=
  ∃ before s after, history = before ++ (s, .grant) :: after ∧
    (∀ e ∈ after, e.2 = .use) ∧ (s :: after.map (·.1) ++ [t]).IsChain (Within ttl)

/-- Where an event of a history stands when one event is added at the end. -/
theorem concat_split {history before after : History} {x e : Nat × Event}
    (h : history ++ [x] = before ++ e :: after) :
    (e = x ∧ after = []) ∨ ∃ init, after = init ++ [x] ∧ history = before ++ e :: init := by
  rcases List.eq_nil_or_concat after with rfl | ⟨init, last, rfl⟩
  · exact Or.inl ⟨(List.singleton_inj.1 (List.append_inj' h rfl).2).symm, rfl⟩
  · rw [List.concat_eq_append, ← List.cons_append, ← List.append_assoc] at h
    obtain ⟨hhistory, hlast⟩ := List.append_inj' h rfl
    rw [List.singleton_inj.1 hlast]
    exact Or.inr ⟨init, by simp, hhistory⟩

variable {ttl : Nat} {history : History} {s t : Nat}

theorem not_alive_nil : ¬ Alive ttl [] t := by
  rintro ⟨before, s, after, hsplit, -⟩
  simp at hsplit

/-- A grant starts a new lease, whatever was before it. -/
theorem alive_concat_grant : Alive ttl (history ++ [(s, .grant)]) t ↔ t < s + ttl := by
  constructor
  · rintro ⟨before, s', after, hsplit, huses, hchain⟩
    rcases concat_split hsplit with ⟨hlast, rfl⟩ | ⟨init, rfl, -⟩
    · obtain ⟨rfl, -⟩ := Prod.mk.inj hlast
      simpa [Within] using hchain
    · -- Only uses come after the last grant.
      cases huses (s, .grant) (by simp)
  · intro ht
    exact ⟨history, s, [], rfl, by simp, by simpa [Within] using ht⟩

theorem not_alive_concat_revoke : ¬ Alive ttl (history ++ [(s, .revoke)]) t := by
  rintro ⟨before, s', after, hsplit, huses, -⟩
  rcases concat_split hsplit with ⟨hlast, -⟩ | ⟨init, rfl, -⟩
  · cases hlast
  · cases huses (s, .revoke) (by simp)

/-- The chain of the times with one more time at the end. -/
theorem isChain_within_concat (times : List Nat) :
    ((times ++ [s]) ++ [t]).IsChain (Within ttl) ↔
      (times ++ [s]).IsChain (Within ttl) ∧ t < s + ttl := by
  rw [List.isChain_append]
  simp [Within]

/-- A use counts if the lease was alive at its time, and then it renews the lease. -/
theorem alive_concat_use :
    Alive ttl (history ++ [(s, .use)]) t ↔ Alive ttl history s ∧ t < s + ttl := by
  constructor
  · rintro ⟨before, s', after, hsplit, huses, hchain⟩
    rcases concat_split hsplit with ⟨hlast, -⟩ | ⟨init, rfl, hhistory⟩
    · cases hlast
    · rw [List.map_append, ← List.cons_append] at hchain
      obtain ⟨hinit, ht⟩ := (isChain_within_concat (s' :: init.map (·.1))).1 hchain
      refine ⟨⟨before, s', init, hhistory, fun e he => ?_, hinit⟩, ht⟩
      exact huses e (List.mem_append_left _ he)
  · rintro ⟨⟨before, s', after, hhistory, huses, hchain⟩, ht⟩
    refine ⟨before, s', after ++ [(s, .use)], by simp [hhistory], ?_, ?_⟩
    · intro e he
      rcases List.mem_append.1 he with he | he
      · exact huses e he
      · rw [List.mem_singleton.1 he]
    · rw [List.map_append, ← List.cons_append]
      exact (isChain_within_concat (s' :: after.map (·.1))).2 ⟨hchain, ht⟩

end Effects.Lease
