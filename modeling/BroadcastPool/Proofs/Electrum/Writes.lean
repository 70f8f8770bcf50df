import BroadcastPool.ElectrumServer.Session
import BroadcastPool.Lib.Yields
import BroadcastPool.Proofs.Rules

/-!
# `BroadcastPool.Proofs.Electrum.Writes`: what is written to a wallet

`Writes` is a postcondition about the texts that a program writes to the wallet, in their order,
and the value that it returns. A program that only reads and writes the memory of the process is
silent (`IsMemory.silent`), and so is a question to the indexer.
-/

set_option autoImplicit false

namespace BroadcastPool

open Effects

/-- The texts that are written to the wallet along a path. -/
def writtenTexts (l : List (Seen Act Act.Res)) : List String :=
  l.filterMap fun
    | ⟨.writeClient text, _⟩ => some text
    | _ => none

/-- The action writes to the wallet. -/
def Act.isWrite : Act → Bool
  | writeClient _ => true
  | _ => false

theorem writtenTexts_append (l l' : List (Seen Act Act.Res)) :
    writtenTexts (l ++ l') = writtenTexts l ++ writtenTexts l' :=
  List.filterMap_append

theorem writtenTexts_eq_nil {l : List (Seen Act Act.Res)} (h : ∀ s ∈ l, s.1.isWrite = false) :
    writtenTexts l = [] := by
  unfold writtenTexts
  rw [List.filterMap_eq_nil_iff]
  rintro ⟨a, r⟩ hs
  have hsilent := h _ hs
  cases a <;> first | rfl | cases hsilent

section
variable {answers : (a : Act) → a.Res → Prop} {libs : ElectrumLibs} {p : Proc} {α β : Type}
variable {P P' : List String → α → Prop} {Q : List String → β → Prop}

/-- Wherever the program returns, the texts it has written and the value satisfy `P`. -/
def Writes (answers : (a : Act) → a.Res → Prop) (P : List String → α → Prop) (prog : M α) :
    Prop :=
  prog.Yields answers fun l a => P (writtenTexts l) a

/-- A program that writes nothing. -/
abbrev IsSilent (answers : (a : Act) → a.Res → Prop) (prog : M α) : Prop :=
  Writes answers (fun texts _ => texts = []) prog

theorem writes_ret {a : α} (h : P [] a) : Writes answers P (.ret a : M α) := Prog.yields_ret h

theorem writes_fail (e : Failure) : Writes answers P (.fail e : M α) := Prog.yields_fail e

theorem writes_bind {prog : M α} {f : α → M β} (hp : Writes answers P prog)
    (hf : ∀ texts a, P texts a → Writes answers (fun more b => Q (texts ++ more) b) (f a)) :
    Writes answers Q (prog.bind f) := by
  refine Prog.yields_bind hp fun l a hl => Prog.Yields.mono (fun l' b hb => ?_) (hf _ a hl)
  rw [writtenTexts_append]
  exact hb

/-- What follows a silent part writes all. -/
theorem writes_seq {prog : M α} {f : α → M β} (hp : IsSilent answers prog)
    (hf : ∀ a, Writes answers Q (f a)) : Writes answers Q (prog.bind f) := by
  refine writes_bind hp fun texts a hnone => ?_
  rw [hnone]
  exact hf a

theorem writes_writeClient (text : String) :
    Writes answers (fun texts _ => texts = [text]) (perform (.writeClient text)) :=
  Prog.yields_perform fun _ _ => rfl

theorem isSilent_of_uses {prog : M α} (h : prog.Uses fun a => a.isWrite = false) :
    IsSilent answers prog :=
  Prog.Yields.mono (fun _ _ => writtenTexts_eq_nil) h.yields

theorem IsMemory.silent {prog : M α} (h : IsMemory prog) : IsSilent answers prog := by
  refine isSilent_of_uses (Prog.Uses.mono (fun a ha => ?_) h)
  cases a <;> first | rfl | cases ha

theorem silent_act {a : Act} (h : a.isWrite = false) : IsSilent answers (perform a) :=
  isSilent_of_uses (uses_act h)

/-- What follows an action that is no write may use what its answer is known to be. -/
theorem writes_ask {a : Act} {f : a.Res → M β} (ha : a.isWrite = false)
    (hf : ∀ r, answers a r → Writes answers Q (f r)) :
    Writes answers Q ((perform a).bind f) := by
  refine Prog.yields_bind (P := fun l r => writtenTexts l = [] ∧ answers a r)
    (Prog.yields_perform fun r hr => ⟨writtenTexts_eq_nil (by simpa using ha), hr⟩)
    fun l r hl => Prog.Yields.mono (fun l' b hb => ?_) (hf r hl.2)
  rw [writtenTexts_append, hl.1]
  exact hb

theorem silent_getPendingTxids (scripthash : String) :
    IsSilent answers (getPendingTxidsForScripthash p scripthash) :=
  writes_seq (silent_act rfl) fun _ => writes_ret rfl

theorem silent_hasPendingTx (txid : String) : IsSilent answers (hasPendingTx p txid) :=
  writes_seq (silent_act rfl) fun _ => writes_ret rfl

theorem silent_resolveLiveIndexerUrl : IsSilent answers (resolveLiveIndexerUrl p) := by
  refine writes_seq (clock_indexerUrlOrEmpty p).memory.silent fun url => ?_
  split
  · exact (clock_indexerUrlOrEmpty p).memory.silent
  · exact writes_ret rfl

theorem silent_fetchScripthashHistory (indexerUrl scripthash : String) :
    IsSilent answers (fetchScripthashHistory libs indexerUrl scripthash) := by
  unfold fetchScripthashHistory
  split
  · exact writes_ret rfl
  · refine writes_seq (silent_act rfl) fun answer => ?_
    cases answer <;> exact writes_ret rfl

end

end BroadcastPool
