import BroadcastPool.Proofs.Mempool.Announced
import BroadcastPool.Proofs.Mempool.Extraction
import BroadcastPool.Proofs.TxidColumn

/-!
# `BroadcastPool.Proofs.Mempool.Entries`: the entries of the virtual mempool are true

An entry says of a transaction which outputs it has and which scripthashes it touches. Three
functions store entries, and two extend them later, with scripthashes that they have computed
without the lock. `TrueTo` says what an entry has to say about its transaction: the outputs are
those of its text, and every scripthash is one of an output, or of an output that an input spends
in a previous transaction that was resolved (`Spends`). What was resolved is read off the answers
that the run has given so far.

`Truthful` says of a path that a stored entry is true, and that scripthashes are merged only if
the program has resolved them for a transaction with this txid. `truthful_entryWork` shows it for
everything the program does. `trueEntries_step` follows the entries through a run. An entry may
have been replaced between the computation and the merge. The new one is for a transaction with the
same txid, and the txid commits to the inputs (`Env.TxidCommits`).
-/

set_option autoImplicit false

namespace BroadcastPool

open Effects

/-! ### What an entry has to say -/

/-- An answer showed an entry under the txid with this text. -/
def HeldAs (seen : List (Seen Act Act.Res)) (txid txHex : String) : Prop :=
  ∃ (p : Proc) (txs : PendingTxs), ⟨.pendingTxs p, some txs⟩ ∈ seen ∧
    ∃ info ∈ txs.lookup txid, info.txHex = txHex

/-- An answer showed this text under the txid, in the virtual mempool or in the table. -/
def FoundAs (seen : List (Seen Act Act.Res)) (txid txHex : String) : Prop :=
  HeldAs seen txid txHex ∨ ⟨.txHexByTxid txid, .ok (some txHex)⟩ ∈ seen

/-- A txid in both byte orders. -/
def bothFormats (txid : String) : List String := txid :: (alternateTxidFormat txid).toList

/-- The txids under which `lookup_prev_tx_hex` looks for a previous transaction. -/
def lookupKeys (txid : String) : List String :=
  (bothFormats txid).flatMap fun id => bothFormats (Text.lowercase (Text.trim id))

/-- The lookup of a previous transaction had this answer. -/
def Resolved (env : Env) (seen : List (Seen Act Act.Res)) (txid : String) (prev : Transaction) :
    Prop :=
  ⟨.fetchPrevTx txid, .ok prev⟩ ∈ seen ∨
    ∃ key ∈ lookupKeys txid, ∃ txHex, FoundAs seen key txHex ∧ decodeTx env txHex = .ok prev

/-- The scripthash is the one of an output that an input names in its resolved previous
transaction. -/
def Spends (env : Env) (seen : List (Seen Act Act.Res)) (tx : Transaction) (sh : String) : Prop :=
  ∃ input ∈ tx.input, ∃ prev, Resolved env seen input.prevTxid prev ∧
    spentScripthash env input prev = some sh

/-- The entry is true to the transaction. -/
structure TrueTo (env : Env) (seen : List (Seen Act Act.Res)) (tx : Transaction)
    (info : PendingTxInfo) : Prop where
  decodes : decodeTx env info.txHex = .ok tx
  outputs : extractOutputs env info.txHex = .ok info.outputs
  nodup : info.scripthashes.Nodup
  contains : ∀ sh ∈ outputScripthashes env tx, sh ∈ info.scripthashes
  only : ∀ sh ∈ info.scripthashes, sh ∈ outputScripthashes env tx ∨ Spends env seen tx sh

/-- The entry under the txid is true to a transaction with this txid. -/
def TrueEntry (env : Env) (seen : List (Seen Act Act.Res)) (txid : String)
    (info : PendingTxInfo) : Prop :=
  ∃ tx, env.electrumTxid tx = txid ∧ TrueTo env seen tx info

/-- The previous transaction and the output that an input names. -/
def TxIn.outpoint (input : TxIn) : String × Nat := (input.prevTxid, input.vout)

/-- A txid commits to what the inputs spend: two texts of transactions with one txid differ in their
witnesses only. -/
def Env.TxidCommits (env : Env) : Prop :=
  ∀ txHex txHex' tx tx', decodeTx env txHex = .ok tx → decodeTx env txHex' = .ok tx' →
    env.electrumTxid tx = env.electrumTxid tx' →
    tx.input.map TxIn.outpoint = tx'.input.map TxIn.outpoint

section
variable {env : Env} {seen seen' : List (Seen Act Act.Res)} {tx tx' : Transaction}
  {txid sh : String}

theorem HeldAs.mono (h : seen ⊆ seen') {txHex : String} (hheld : HeldAs seen txid txHex) :
    HeldAs seen' txid txHex := by
  obtain ⟨p, txs, hmem, hinfo⟩ := hheld
  exact ⟨p, txs, h hmem, hinfo⟩

theorem FoundAs.mono (h : seen ⊆ seen') {txHex : String} (hfound : FoundAs seen txid txHex) :
    FoundAs seen' txid txHex := hfound.imp (HeldAs.mono h) fun hmem => h hmem

theorem Resolved.mono (h : seen ⊆ seen') {prev : Transaction} (hres : Resolved env seen txid prev) :
    Resolved env seen' txid prev := by
  rcases hres with hfetch | ⟨key, hkey, txHex, hfound, hdec⟩
  · exact Or.inl (h hfetch)
  · exact Or.inr ⟨key, hkey, txHex, hfound.mono h, hdec⟩

theorem Spends.mono (h : seen ⊆ seen') (hspends : Spends env seen tx sh) :
    Spends env seen' tx sh := by
  obtain ⟨input, hinput, prev, hres, hspent⟩ := hspends
  exact ⟨input, hinput, prev, hres.mono h, hspent⟩

/-- What a transaction spends is decided by what its inputs name. -/
theorem Spends.congr (h : tx.input.map TxIn.outpoint = tx'.input.map TxIn.outpoint)
    (hspends : Spends env seen tx sh) : Spends env seen tx' sh := by
  obtain ⟨input, hinput, prev, hres, hspent⟩ := hspends
  have hmem : input.outpoint ∈ tx'.input.map TxIn.outpoint := h ▸ List.mem_map_of_mem hinput
  obtain ⟨input', hinput', hsame⟩ := List.mem_map.1 hmem
  obtain ⟨hprev, hvout⟩ := Prod.mk.inj hsame
  refine ⟨input', hinput', prev, hprev ▸ hres, ?_⟩
  unfold spentScripthash at hspent ⊢
  rw [hvout]
  exact hspent

theorem TrueTo.mono (h : seen ⊆ seen') {info : PendingTxInfo} (htrue : TrueTo env seen tx info) :
    TrueTo env seen' tx info :=
  { htrue with only := fun sh hsh => (htrue.only sh hsh).imp id (Spends.mono h) }

theorem TrueEntry.mono (h : seen ⊆ seen') {info : PendingTxInfo}
    (htrue : TrueEntry env seen txid info) : TrueEntry env seen' txid info := by
  obtain ⟨tx, htxid, htrue⟩ := htrue
  exact ⟨tx, htxid, htrue.mono h⟩

end

/-! ### What a program finds -/

/-- A row that is listed with a txid has the one of its text. -/
def ListsOwn (env : Env) : (a : Act) → a.Res → Prop
  | .select _, answer => ∀ txs, answer = .ok txs → ∀ tx ∈ txs, ∀ txid ∈ tx.txid,
      computeTxid env tx.txHex = .ok txid
  | _, _ => True

/-- A stored entry is true, and merged scripthashes are resolved for a transaction with the txid, or
for one that an answer showed under the txid. -/
def Truthful (env : Env) (seen : List (Seen Act Act.Res)) : Act → Prop
  | .storePending _ txid info => TrueEntry env seen txid info
  | .mergePending _ txid extra => ∃ txHex tx, decodeTx env txHex = .ok tx ∧
      (env.electrumTxid tx = txid ∨ HeldAs seen txid txHex) ∧ ∀ sh ∈ extra, Spends env seen tx sh
  | _ => True

/-- The action stores or extends an entry. -/
def Act.growsPending : Act → Bool
  | storePending .. | mergePending .. => true
  | _ => false

section
variable {α : Type} {env : Env} {l₀ : List (Seen Act Act.Res)}

theorem truthful_of_not_grows {a : Act} (h : a.growsPending = false)
    (seen : List (Seen Act Act.Res)) : Truthful env seen a := by
  cases a <;> trivial

/-- What a program returns goes with the answers it has got. -/
abbrev Finds (env : Env) (l₀ : List (Seen Act Act.Res))
    (Q : α → List (Seen Act Act.Res) → Prop) (prog : M α) : Prop :=
  prog.Learns (ListsOwn env) (Truthful env) l₀ Q

theorem finds_of_work {prog : M α} (h : IsWork (fun a => a.growsPending = false) prog) :
    Finds env l₀ (fun _ _ => True) prog := by
  refine Prog.learns_of_uses h fun a ha l => truthful_of_not_grows ?_ l
  rcases ha with ha | ha
  · cases a <;> first | rfl | cases ha
  · exact ha

/-- The answer of an action that only reads. -/
theorem finds_act {a : Act} (ha : a.growsPending = false) :
    Finds env l₀ (fun r l => ⟨a, r⟩ ∈ l ∧ ListsOwn env a r) (perform a) :=
  Prog.learns_perform (fun l _ => truthful_of_not_grows ha l) fun _ _ _ hr hmem => ⟨hmem, hr⟩

/-- A text that a lookup returns was found under one of the txids. -/
abbrev FindsUnder (env : Env) (l₀ : List (Seen Act Act.Res)) (keys : List String)
    (prog : M (Option String)) : Prop :=
  Finds env l₀ (fun o l => ∀ txHex ∈ o, ∃ key ∈ keys, FoundAs l key txHex) prog

theorem finds_getPendingTxHex (p : Proc) (txid : String) :
    FindsUnder env l₀ [txid] (getPendingTxHex p txid) := by
  refine Prog.learns_bind (finds_act rfl) fun pending l₁ _ hpending => ?_
  refine Prog.learns_ret fun l hl txHex htxHex => ⟨txid, List.mem_singleton_self _, Or.inl ?_⟩
  obtain ⟨info, hinfo, rfl⟩ := Option.mem_map.1 htxHex
  obtain ⟨txs, htxs, hlookup⟩ := Option.mem_bind_iff.1 hinfo
  cases htxs
  exact ⟨p, txs, hl hpending.1, info, hlookup, rfl⟩

theorem finds_findTxHexByTxid (txid : String) :
    FindsUnder env l₀ [txid] (findTxHexByTxid txid) := by
  have hget : Finds env l₀ (fun o l => (⟨.txHexByTxid txid, .ok o⟩ : Seen Act Act.Res) ∈ l)
      (getTxHexByTxid txid) :=
    learns_orRaise ((finds_act rfl).mono fun r l _ h o ho => ho ▸ h.1)
  refine Prog.learns_bind (learns_catchErr hget) fun o l₁ _ ho => ?_
  cases o with
  | error e => exact Prog.learns_ret fun l _ txHex h => by cases h
  | ok o =>
    refine Prog.learns_ret fun l hl txHex htxHex => ⟨txid, List.mem_singleton_self _, Or.inr ?_⟩
    cases htxHex
    exact hl (ho _ rfl)

theorem FindsUnder.orElse {keys keys' : List String} {q r : M (Option String)}
    (hq : FindsUnder env l₀ keys q) (hr : FindsUnder env l₀ keys' r) :
    FindsUnder env l₀ (keys ++ keys') (orElse? q r) := by
  refine Prog.learns_bind hq fun o l₁ hl₁ ho => ?_
  cases o with
  | some txHex =>
    refine Prog.learns_ret fun l hl txHex' h => ?_
    cases h
    obtain ⟨key, hkey, hfound⟩ := ho txHex rfl
    exact ⟨key, List.mem_append_left _ hkey, hfound.mono hl⟩
  | none =>
    refine (hr.after hl₁).mono fun o l _ h txHex htxHex => ?_
    obtain ⟨key, hkey, hfound⟩ := h txHex htxHex
    exact ⟨key, List.mem_append_right _ hkey, hfound⟩

theorem finds_onAlternate {txid : String} {keys : String → List String}
    {find : String → M (Option String)} (h : ∀ id, FindsUnder env l₀ (keys id) (find id)) :
    FindsUnder env l₀ ((alternateTxidFormat txid).toList.flatMap keys) (onAlternate txid find) := by
  unfold onAlternate
  cases alternateTxidFormat txid with
  | none => exact Prog.learns_ret fun l _ txHex h => by cases h
  | some alt =>
    refine (h alt).mono fun o l _ ho txHex htxHex => ?_
    simpa using ho txHex htxHex

theorem FindsUnder.subset {keys keys' : List String} {prog : M (Option String)}
    (h : FindsUnder env l₀ keys prog) (hsub : keys ⊆ keys') : FindsUnder env l₀ keys' prog := by
  refine h.mono fun o l _ ho txHex htxHex => ?_
  obtain ⟨key, hkey, hfound⟩ := ho txHex htxHex
  exact ⟨key, hsub hkey, hfound⟩

theorem finds_lookupTxHex (p : Proc) (txid : String) :
    FindsUnder env l₀ (bothFormats (Text.lowercase (Text.trim txid))) (lookupTxHex p txid) := by
  refine FindsUnder.subset ((finds_getPendingTxHex p _).orElse
    ((finds_onAlternate (finds_getPendingTxHex p)).orElse
      ((finds_findTxHexByTxid _).orElse (finds_onAlternate finds_findTxHexByTxid)))) ?_
  generalize Text.lowercase (Text.trim txid) = normalized
  have hself : [normalized] ⊆ bothFormats normalized :=
    List.cons_subset.2 ⟨List.mem_cons_self .., List.nil_subset _⟩
  have halternate : (alternateTxidFormat normalized).toList.flatMap (fun id => [id]) ⊆
      bothFormats normalized := by
    rw [List.flatMap_singleton']
    exact List.subset_cons_self _ _
  exact List.append_subset.2 ⟨hself, List.append_subset.2 ⟨halternate,
    List.append_subset.2 ⟨hself, halternate⟩⟩⟩

theorem finds_lookupPrevTxHex (p : Proc) (txid : String) :
    FindsUnder env l₀ (lookupKeys txid) (lookupPrevTxHex p txid) := by
  refine FindsUnder.subset ((finds_lookupTxHex p txid).orElse
    (finds_onAlternate (finds_lookupTxHex p))) ?_
  intro key hkey
  simpa [lookupKeys, bothFormats] using hkey

/-- The previous transaction that the pool or the indexer has. -/
theorem finds_resolvePrevTx (p : Proc) (indexerAddr txid : String) :
    Finds env l₀ (fun o l => ∀ prev ∈ o, Resolved env l txid prev)
      (resolvePrevTx env p indexerAddr txid) := by
  refine Prog.learns_bind (finds_lookupPrevTxHex p txid) fun o l₁ _ ho => ?_
  cases hdec : o.bind fun h => (decodeTx env h).toOption with
  | some prev =>
    refine Prog.learns_ret fun l hl prev' h => ?_
    cases h
    obtain ⟨txHex, htxHex, hprev⟩ := Option.bind_eq_some_iff.1 hdec
    obtain ⟨key, hkey, hfound⟩ := ho txHex htxHex
    refine Or.inr ⟨key, hkey, txHex, hfound.mono hl, ?_⟩
    cases hd : decodeTx env txHex with
    | ok tx =>
      rw [hd] at hprev
      cases hprev
      rfl
    | error e =>
      rw [hd] at hprev
      cases hprev
  | none =>
    show Finds env l₁ _ (if _ then _ else _)
    split
    · exact Prog.learns_ret fun l _ prev h => by cases h
    · refine Prog.learns_bind (finds_act rfl) fun answer l₂ _ hanswer => ?_
      refine Prog.learns_ret fun l hl prev hprev => Or.inl (hl ?_)
      cases answer with
      | error e => cases hprev
      | ok tx =>
        cases hprev
        exact hanswer.1

/-! ### The two ways to find what the inputs spend -/

/-- The loop of the enrichment finds scripthashes that the inputs spend from. The induction is on
the inputs that are left. -/
theorem finds_inputScripthashesLoop (p : Proc) (indexerAddr : String) (deadline : Nat)
    {tx : Transaction} {outputs found : List String} {inputs : List TxIn}
    (hinputs : ∀ input ∈ inputs, input ∈ tx.input) (hfound : ∀ sh ∈ found, Spends env l₀ tx sh) :
    Finds env l₀ (fun shs l => ∀ sh ∈ shs, Spends env l tx sh)
      (inputScripthashesLoop env p indexerAddr deadline outputs inputs found) := by
  induction inputs generalizing found l₀ with
  | nil => exact Prog.learns_ret fun l hl sh hsh => (hfound sh hsh).mono hl
  | cons input inputs ih =>
    have hrest : ∀ input ∈ inputs, input ∈ tx.input :=
      fun input h => hinputs input (List.mem_cons_of_mem _ h)
    refine Prog.learns_bind (finds_act rfl) fun now l₁ hl₁ _ => ?_
    have hfound₁ : ∀ sh ∈ found, Spends env l₁ tx sh := fun sh hsh => (hfound sh hsh).mono hl₁
    show Finds env l₁ _ (if _ then _ else _)
    split
    · exact Prog.learns_ret fun l hl sh hsh => (hfound₁ sh hsh).mono hl
    · refine Prog.learns_bind (finds_resolvePrevTx p indexerAddr input.prevTxid)
        fun prev l₂ hl₂ hprev => ?_
      have hfound₂ : ∀ sh ∈ found, Spends env l₂ tx sh :=
        fun sh hsh => (hfound₁ sh hsh).mono hl₂
      cases hspent : prev.bind (spentScripthash env input) with
      | none => exact ih hrest hfound₂
      | some sh =>
        refine ih hrest fun sh' hsh' => ?_
        obtain ⟨prevTx, hres, hsh⟩ := Option.bind_eq_some_iff.1 hspent
        split at hsh'
        · rcases List.mem_append.1 hsh' with h | h
          · exact hfound₂ sh' h
          · cases List.mem_singleton.1 h
            exact ⟨input, hinputs input (List.mem_cons_self ..), prevTx, hprev prevTx hres, hsh⟩
        · exact hfound₂ sh' hsh'

/-- The enrichment returns scripthashes that the inputs of the transaction spend from. -/
theorem finds_enrichInputScripthashes (p : Proc) (txHex indexerAddr : String) (budget : Nat) :
    Finds env l₀ (fun extra l => ∃ tx, decodeTx env txHex = .ok tx ∧
      ∀ sh ∈ extra, Spends env l tx sh)
      (enrichInputScripthashes env p txHex indexerAddr budget) := by
  unfold enrichInputScripthashes
  cases hdec : decodeTx env txHex with
  | error e => exact Prog.learns_fail _
  | ok tx =>
    refine Prog.learns_bind (finds_act rfl) fun start l₁ _ _ => ?_
    refine (finds_inputScripthashesLoop p indexerAddr _ (fun _ h => h) fun sh h => ?_).mono
      fun extra l _ h => ⟨tx, rfl, h⟩
    cases h

/-- The loop of the rehydration asks the indexer only. -/
theorem finds_fetchInputScripthashes {tx : Transaction} {inputs : List TxIn}
    (hinputs : ∀ input ∈ inputs, input ∈ tx.input) :
    Finds env l₀ (fun shs l => ∀ sh ∈ shs, Spends env l tx sh)
      (fetchInputScripthashes env inputs) := by
  induction inputs generalizing l₀ with
  | nil => exact Prog.learns_ret fun l _ sh h => by cases h
  | cons input inputs ih =>
    refine Prog.learns_bind (finds_act rfl) fun prev l₁ _ hprev => ?_
    refine Prog.learns_bind (ih fun input h => hinputs input (List.mem_cons_of_mem _ h))
      fun rest l₂ hl₂ hrest => ?_
    cases prev with
    | error e => exact Prog.learns_ret fun l hl sh hsh => (hrest sh hsh).mono hl
    | ok prev =>
      refine Prog.learns_ret fun l hl sh hsh => ?_
      rcases List.mem_append.1 hsh with hsh | hsh
      · exact ⟨input, hinputs input (List.mem_cons_self ..), prev,
          Or.inl (hl (hl₂ hprev.1)), Option.mem_toList.1 hsh⟩
      · exact (hrest sh hsh).mono hl

/-- The scripthashes of an entry with these outputs and others that the inputs spend from. -/
theorem trueTo_dedup {seen : List (Seen Act Act.Res)} {txHex : String} {tx : Transaction}
    (htx : decodeTx env txHex = .ok tx) {spent : List String}
    (hspent : ∀ sh ∈ spent, Spends env seen tx sh) {outputs : List PendingTxOutput}
    (houtputs : extractOutputs env txHex = .ok outputs) :
    TrueTo env seen tx
      { txHex, scripthashes := (outputScripthashes env tx ++ spent).dedup, outputs } where
  decodes := htx
  outputs := houtputs
  nodup := List.nodup_dedup _
  contains _ hsh := List.mem_dedup.2 (List.mem_append_left _ hsh)
  only _ hsh := (List.mem_append.1 (List.mem_dedup.1 hsh)).imp id (hspent _)

/-! ### The programs that store and extend entries -/

theorem computeTxid_eq_ok {txHex txid : String} (h : computeTxid env txHex = .ok txid) :
    ∃ tx, decodeTx env txHex = .ok tx ∧ env.electrumTxid tx = txid := by
  unfold computeTxid at h
  cases hdec : decodeTx env txHex with
  | error e =>
    rw [hdec] at h
    cases h
  | ok tx =>
    rw [hdec] at h
    exact ⟨tx, rfl, Except.ok.inj h⟩

theorem computeTxid_trim (txHex : String) :
    computeTxid env (Text.trim txHex) = computeTxid env txHex := by
  unfold computeTxid decodeTx
  rw [Text.trim_trim]

theorem extractOutputs_eq {txHex : String} {tx : Transaction} (h : decodeTx env txHex = .ok tx) :
    extractOutputs env txHex = .ok (outputsOrEmpty env txHex) := by
  unfold outputsOrEmpty extractOutputs
  rw [h]
  rfl

/-- The entry of the outputs only is true. -/
theorem trueEntry_outputsOnly {seen : List (Seen Act Act.Res)} {txHex txid : String}
    (h : computeTxid env txHex = .ok txid) :
    TrueEntry env seen txid (outputsOnlyEntry env txHex) := by
  obtain ⟨tx, htx, htxid⟩ := computeTxid_eq_ok h
  have hnone : ∀ sh ∈ ([] : List String), Spends env seen tx sh := fun sh hsh => by cases hsh
  have htrue := trueTo_dedup htx hnone (extractOutputs_eq htx)
  refine ⟨tx, htxid, ?_⟩
  unfold outputsOnlyEntry
  rw [extractOutputScripthashes_eq htx, extractOutputs_eq htx]
  rw [List.append_nil] at htrue
  exact htrue

theorem finds_storePendingOutputs (p : Proc) {txHex txid : String}
    (h : computeTxid env txHex = .ok txid) :
    Finds env l₀ (fun _ _ => True) (storePendingOutputs env p txid txHex) :=
  Prog.learns_perform (fun _ _ => trueEntry_outputsOnly h) fun _ _ _ _ _ => trivial

theorem finds_preAckStore (p : Proc) (txHex : String) :
    Finds env l₀ (fun _ _ => True) (preAckStore env p txHex) := by
  unfold preAckStore
  cases htxid : computeTxid env (Text.trim txHex) with
  | error e => exact Prog.learns_ret fun _ _ => trivial
  | ok txid =>
    rw [computeTxid_trim] at htxid
    exact finds_storePendingOutputs p htxid

theorem finds_handleBroadcast (p : Proc) (txHex sourceLabel : String) :
    Finds env l₀ (fun txid _ => computeTxid env (Text.trim txHex) = .ok txid)
      (handleBroadcast env p txHex sourceLabel) := by
  unfold handleBroadcast
  dsimp only
  cases hdec : decodeTx env (Text.trim txHex) with
  | error e => exact Prog.learns_fail _
  | ok tx =>
    have htxid : computeTxid env (Text.trim txHex) = .ok (env.electrumTxid tx) := by
      unfold computeTxid
      rw [hdec]
      rfl
    refine Prog.learns_bind (finds_of_work (clock_configNetwork p).work) fun network _ _ _ => ?_
    refine Prog.learns_bind (finds_of_work (work_basic rfl)) fun health _ _ _ => ?_
    refine Prog.learns_bind (finds_of_work (uses_orRaise (work_basic rfl))) fun config _ _ _ => ?_
    refine Prog.learns_bind (finds_of_work (clock_resolveIngestPlan env _ _ _ _).work)
      fun plan _ _ _ => ?_
    refine Prog.learns_bind (finds_of_work (work_captureVirtualBlock p _ _)) fun target _ _ _ => ?_
    refine Prog.learns_bind (finds_of_work (work_importTransaction env _ fun _ _ => rfl))
      fun imported _ _ _ => ?_
    refine Prog.learns_bind (finds_storePendingOutputs p htxid) fun _ _ _ _ => ?_
    refine Prog.learns_bind (finds_of_work (uses_logErrorIf _ (work_clocked env _ fun _ => rfl)))
      fun _ _ _ _ => ?_
    exact Prog.learns_ret fun _ _ => htxid

/-- The background enrichment merges what it has resolved for the transaction of the broadcast. -/
theorem finds_enrichPendingInputScripthashes (p : Proc) {txid txHex : String}
    (h : computeTxid env txHex = .ok txid) :
    Finds env l₀ (fun _ _ => True) (enrichPendingInputScripthashes env p txid txHex) := by
  have hurl : IsWork (fun a => a.growsPending = false) (indexerUrlOrEmpty p) := by
    refine Prog.uses_bind (work_basic rfl) fun o => ?_
    cases o <;> exact Prog.uses_ret _
  refine Prog.learns_bind (finds_of_work hurl) fun url _ _ _ => ?_
  refine Prog.learns_bind (learns_catchErr (finds_enrichInputScripthashes p txHex _ _))
    fun o l₁ _ ho => ?_
  cases o with
  | error e => exact Prog.learns_ret fun _ _ => trivial
  | ok extra =>
    obtain ⟨tx, htx, hspends⟩ := ho extra rfl
    obtain ⟨tx', htx', htxid⟩ := computeTxid_eq_ok h
    obtain rfl : tx = tx' := Except.ok.inj (htx.symm.trans htx')
    refine Prog.learns_perform (fun l hl => ?_) fun _ _ _ _ _ => trivial
    exact ⟨txHex, tx, htx, Or.inl htxid, fun sh hsh => (hspends sh hsh).mono hl⟩

theorem finds_ingestTask (p : Proc) (txHex sourceLabel : String) :
    Finds env l₀ (fun _ _ => True) (ingestTask env p txHex sourceLabel) := by
  refine Prog.learns_bind (finds_of_work (work_basic rfl)) fun start _ _ _ => ?_
  refine Prog.learns_bind (finds_handleBroadcast p txHex sourceLabel).attempt
    fun outcome l₁ _ houtcome => ?_
  refine Prog.learns_bind (finds_of_work (work_basic rfl)) fun finished _ _ _ => ?_
  cases outcome with
  | error e => exact Prog.learns_ret fun _ _ => trivial
  | ok txid =>
    show Finds env _ _ (if _ then _ else _)
    split
    · exact finds_enrichPendingInputScripthashes p (houtcome txid rfl)
    · exact Prog.learns_ret fun _ _ => trivial

theorem finds_walletBroadcast (txHex sourceLabel : String) :
    Finds env l₀ (fun _ _ => True) (walletBroadcast env txHex sourceLabel) := by
  unfold walletBroadcast
  cases htxid : computeTxid env (Text.trim txHex) with
  | error e => exact Prog.learns_ret fun _ _ => trivial
  | ok txid =>
    rw [computeTxid_trim] at htxid
    exact Prog.learns_bind (finds_storePendingOutputs .daemon htxid) fun _ _ _ _ =>
      finds_ingestTask .daemon txHex sourceLabel

/-- The enrichment on demand merges into each entry what it has resolved for the text that the entry
had when it was read. -/
theorem finds_enrichPendingForScripthash (p : Proc) (scripthash indexerUrl : String) :
    Finds env l₀ (fun _ _ => True) (enrichPendingForScripthash env p scripthash indexerUrl) := by
  unfold enrichPendingForScripthash
  split
  · exact Prog.learns_ret fun _ _ => trivial
  · refine Prog.learns_bind (finds_of_work (work_basic rfl)) fun held _ _ _ => ?_
    split
    · exact Prog.learns_ret fun _ _ => trivial
    · refine Prog.learns_bind (finds_act rfl) fun pending l₁ _ hpending => ?_
      refine Prog.learns_forEach _ fun entry hentry l₂ hl₂ => ?_
      cases pending with
      | none => cases hentry
      | some txs =>
        have hheld : HeldAs l₂ entry.1 entry.2.txHex :=
          ⟨p, txs, hl₂ hpending.1, entry.2, AList.mem_lookup_iff.2 hentry, rfl⟩
        unfold enrichEntry
        split
        · exact Prog.learns_ret fun _ _ => trivial
        · refine Prog.learns_bind (learns_catchErr (finds_enrichInputScripthashes p _ _ _))
            fun o l₃ hl₃ ho => ?_
          cases o with
          | error e => exact Prog.learns_ret fun _ _ => trivial
          | ok extra =>
            show Finds env _ _ (if _ then _ else _)
            split
            · exact Prog.learns_ret fun _ _ => trivial
            · obtain ⟨tx, htx, hspends⟩ := ho extra rfl
              refine Prog.learns_perform (fun l hl => ?_) fun _ _ _ _ _ => trivial
              exact ⟨entry.2.txHex, tx, htx, Or.inr (hheld.mono (List.Subset.trans hl₃ hl)),
                fun sh hsh => (hspends sh hsh).mono hl⟩

/-- The rehydration extracts the scripthashes of the row's own text. -/
theorem finds_extractAffectedScripthashes (txHex : String) :
    Finds env l₀ (fun shs l => ∃ tx spent, decodeTx env txHex = .ok tx ∧
      shs = (outputScripthashes env tx ++ spent).dedup ∧ ∀ sh ∈ spent, Spends env l tx sh)
      (extractAffectedScripthashes env txHex) := by
  unfold extractAffectedScripthashes
  cases hdec : decodeTx env txHex with
  | error e => exact Prog.learns_fail _
  | ok tx =>
    refine Prog.learns_bind (finds_fetchInputScripthashes fun _ h => h) fun spent l₁ _ hspent => ?_
    exact Prog.learns_ret fun l hl =>
      ⟨tx, spent, rfl, rfl, fun sh hsh => (hspent sh hsh).mono hl⟩

theorem finds_storeRehydrated (p : Proc) {tx : BroadcastTx} {txid : String}
    (h : ∀ t, computeTxid env tx.txHex = .ok t → t = txid) :
    Finds env l₀ (fun _ _ => True) (storeRehydrated env p tx txid) := by
  refine Prog.learns_bind (learns_catchErr (finds_extractAffectedScripthashes tx.txHex))
    fun o l₁ _ ho => ?_
  cases o with
  | error e => exact Prog.learns_ret fun _ _ => trivial
  | ok shs =>
    obtain ⟨t, spent, hdec, rfl, hspent⟩ := ho shs rfl
    refine Prog.learns_perform (fun l hl => ⟨t, h _ ?_, ?_⟩) fun _ _ _ _ _ => trivial
    · unfold computeTxid
      rw [hdec]
      rfl
    · exact trueTo_dedup hdec (fun sh hsh => (hspent sh hsh).mono hl) (extractOutputs_eq hdec)

/-- A row that is listed with its own txid is rehydrated under it. -/
theorem finds_rehydrateTx (p : Proc) {tx : BroadcastTx}
    (h : ∀ txid ∈ tx.txid, computeTxid env tx.txHex = .ok txid) :
    Finds env l₀ (fun _ _ => True) (rehydrateTx env p tx) := by
  have hown : ∀ {txid}, computeTxid env tx.txHex = .ok txid →
      ∀ t, computeTxid env tx.txHex = .ok t → t = txid :=
    fun htxid t ht => Except.ok.inj (ht.symm.trans htxid)
  unfold rehydrateTx
  split
  · rename_i txid hcolumn
    exact finds_storeRehydrated p (hown (h txid hcolumn))
  · rename_i txid hcolumn htxid
    exact finds_storeRehydrated p (hown htxid)
  · exact Prog.learns_ret fun _ _ => trivial

theorem finds_listBroadcastTxs (status : Option String) (network : String) (limit : Int) :
    Finds env l₀ (fun txs _ => ∀ tx ∈ txs, ∀ txid ∈ tx.txid,
      computeTxid env tx.txHex = .ok txid) (listBroadcastTxs status network limit) :=
  learns_orFail _ ((finds_act rfl).mono fun _ _ _ h txs htxs => h.2 txs htxs)

theorem finds_loadPendingFromDb (p : Proc) :
    Finds env l₀ (fun _ _ => True) (loadPendingFromDb env p) := by
  refine Prog.learns_bind (finds_of_work (clock_configNetwork p).work) fun network _ _ _ => ?_
  refine Prog.learns_bind (finds_of_work (work_basic rfl)) fun config _ _ _ => ?_
  split
  · refine Prog.learns_bind (finds_listBroadcastTxs _ _ _) fun pending _ _ hpending => ?_
    refine Prog.learns_bind (finds_listBroadcastTxs _ _ _) fun scheduled _ _ hscheduled => ?_
    refine Prog.learns_forEach _ fun tx htx _ _ => finds_rehydrateTx p ?_
    rcases List.mem_append.1 htx with htx | htx
    · exact hpending tx htx
    · exact hscheduled tx htx
  · exact Prog.learns_fail _

theorem finds_startUp (p : Proc) (rpc indexer : Bool) (config : Config) :
    Finds env l₀ (fun _ _ => True) (startUp env p rpc indexer config) := by
  refine Prog.learns_bind (finds_act rfl) fun _ _ _ _ => ?_
  refine Prog.learns_bind (finds_of_work (work_openDatabase env fun _ _ _ _ => rfl))
    fun _ _ _ _ => ?_
  refine Prog.learns_bind (finds_of_work (clock_refreshChainHealth p).work) fun _ _ _ _ => ?_
  refine Prog.learns_bind (learns_catchErr (finds_loadPendingFromDb p)) fun _ _ _ _ => ?_
  refine Prog.learns_bind (finds_of_work (uses_catchErr (work_requeueRetriableFailures env p
    fun _ _ => rfl))) fun _ _ _ _ => ?_
  exact Prog.learns_ret fun _ _ => trivial

/-! ### Everything the program does -/

/-- Work on the virtual mempool: a piece of work of the program, the whole work for a wallet's
broadcast, an enrichment on demand, or a rehydration by itself. -/
def IsEntryWork (env : Env) (prog : M Unit) : Prop :=
  (∃ a : Activity, prog = a.prog env) ∨
    (∃ txHex source, prog = walletBroadcast env txHex source) ∨
    (∃ p scripthash indexerUrl, prog = enrichPendingForScripthash env p scripthash indexerUrl) ∨
    ∃ p, prog = loadPendingFromDb env p

theorem allows_not_grows {a : Activity} (ha : a.growsMempool = false) :
    a.Allows env fun act => act.growsPending = false where
  update _ _ _ := rfl
  mark _ _ _ _ _ := rfl
  encrypt _ _ _ _ _ := rfl
  insert _ _ _ _ := rfl
  delete _ := rfl
  archive _ _ _ := rfl
  storePending h := by
    rw [ha] at h
    cases h
  mergePending h := by
    rw [ha] at h
    cases h
  indexerBroadcast _ _ := rfl
  rpcBroadcast _ _ := rfl
  clearSafeMode := rfl
  startProcess _ _ _ _ _ := rfl

/-- The work that stores or extends entries. -/
theorem finds_growsMempool {a : Activity} (hgrows : a.growsMempool = true) :
    Finds env l₀ (fun _ _ => True) (a.prog env) := by
  cases a with
  | preAck txHex => exact finds_preAckStore .daemon txHex
  | ingest txHex source => exact finds_ingestTask .daemon txHex source
  | restart rpc indexer config => exact finds_startUp .daemon rpc indexer config
  | command rpc indexer config c =>
    refine Prog.learns_bind (finds_startUp .cli rpc indexer config) fun _ _ _ _ => ?_
    exact finds_of_work (work_command (allows_not_grows (a := .acknowledge) rfl) config.network c
      (fun _ _ _ _ => rfl) (fun _ _ _ _ _ => rfl) (fun _ _ => rfl) fun _ _ => rfl)
  | _ => cases hgrows

theorem finds_activity (a : Activity) : Finds env l₀ (fun _ _ => True) (a.prog env) := by
  by_cases hgrows : a.growsMempool = true
  · exact finds_growsMempool hgrows
  · exact finds_of_work (work_everyActivity a (allows_not_grows (by simpa using hgrows)) rfl
      (fun _ => rfl) fun _ => rfl)

/-- Everything the program does, on each of its paths. -/
theorem truthful_entryWork {prog : M Unit} (h : IsEntryWork env prog) :
    prog.OnPaths (ListsOwn env) (Truthful env) [] := by
  suffices hfinds : Finds env [] (fun _ _ => True) prog from hfinds.onPaths
  rcases h with ⟨a, h⟩ | ⟨txHex, source, h⟩ | ⟨p, sh, url, h⟩ | ⟨p, h⟩
  · exact h ▸ finds_activity a
  · exact h ▸ finds_walletBroadcast txHex source
  · exact h ▸ finds_enrichPendingForScripthash p sh url
  · exact h ▸ finds_loadPendingFromDb p

end

/-! ### One step -/

/-- The entry `info'` is `info` with some of the scripthashes `extra`. -/
structure PendingTxInfo.ExtendedBy (info : PendingTxInfo) (extra : List String)
    (info' : PendingTxInfo) : Prop where
  txHex : info'.txHex = info.txHex
  outputs : info'.outputs = info.outputs
  nodup : info.scripthashes.Nodup → info'.scripthashes.Nodup
  keeps : info.scripthashes ⊆ info'.scripthashes
  only : ∀ sh ∈ info'.scripthashes, sh ∈ info.scripthashes ∨ sh ∈ extra

section
variable {env : Env} {w : World}

theorem mergeScripthashes_extendedBy (info : PendingTxInfo) (extra : List String) :
    info.ExtendedBy extra (World.mergeScripthashes info extra).1 := by
  -- The induction is on what is left to merge, from any entry reached on the way.
  suffices h : ∀ (merged : PendingTxInfo) (added : List String),
      merged.ExtendedBy extra (extra.foldl
        (fun (acc : PendingTxInfo × List String) sh =>
          if acc.1.scripthashes.contains sh then acc
          else ({ acc.1 with scripthashes := acc.1.scripthashes ++ [sh] }, acc.2 ++ [sh]))
        (merged, added)).1 from h info []
  induction extra with
  | nil => exact fun merged added => ⟨rfl, rfl, id, List.Subset.refl _, fun _ => Or.inl⟩
  | cons sh extra ih =>
    intro merged added
    simp only [List.foldl_cons]
    split
    · have h := ih merged added
      exact { h with only := fun sh' hsh' => (h.only sh' hsh').imp id (List.mem_cons_of_mem _) }
    · rename_i hnew
      have hfresh : sh ∉ merged.scripthashes := by simpa using hnew
      have h := ih { merged with scripthashes := merged.scripthashes ++ [sh] } (added ++ [sh])
      refine ⟨h.txHex, h.outputs, fun hnodup => h.nodup ?_, fun sh' hsh' => ?_, fun sh' hsh' => ?_⟩
      · refine List.nodup_append.2 ⟨hnodup, List.nodup_singleton sh, fun a ha b hb => ?_⟩
        rw [List.mem_singleton.1 hb]
        exact fun he => hfresh (he ▸ ha)
      · exact h.keeps (List.mem_append_left _ hsh')
      · rcases h.only sh' hsh' with hold | hextra
        · rcases List.mem_append.1 hold with hold | hsh
          · exact Or.inl hold
          · exact Or.inr (List.mem_cons.2 (Or.inl (List.mem_singleton.1 hsh)))
        · exact Or.inr (List.mem_cons_of_mem _ hextra)

/-- A true entry stays true when scripthashes that its transaction spends from are added. -/
theorem TrueTo.extend {seen : List (Seen Act Act.Res)} {tx : Transaction}
    {info info' : PendingTxInfo} {extra : List String} (h : TrueTo env seen tx info)
    (hextended : info.ExtendedBy extra info') (hextra : ∀ sh ∈ extra, Spends env seen tx sh) :
    TrueTo env seen tx info' where
  decodes := hextended.txHex ▸ h.decodes
  outputs := by
    rw [hextended.txHex, hextended.outputs]
    exact h.outputs
  nodup := hextended.nodup h.nodup
  contains sh hsh := hextended.keeps (h.contains sh hsh)
  only sh hsh := by
    rcases hextended.only sh hsh with hold | hnew
    · exact h.only sh hold
    · exact Or.inr (hextra sh hnew)

/-- The memory of another process, when a step has written one of them at most. -/
theorem entry_of_ne {p q : Proc} {m : PoolManager} {w' : World} (hpq : p ≠ q)
    (hw' : w' = w ∨ w' = w.setPm q m) {txid : String} {info : PendingTxInfo}
    (h : info ∈ (w'.ticked.pm p).pendingTxs.lookup txid) :
    info ∈ (w.pm p).pendingTxs.lookup txid := by
  rw [World.ticked_pm] at h
  rcases hw' with rfl | rfl
  · exact h
  · rw [World.setPm_pm_ne w m hpq] at h
    exact h

theorem mem_lookup_insert {txs : PendingTxs} {key txid : String} {value info : PendingTxInfo}
    (h : info ∈ (txs.insert key value).lookup txid) :
    (txid = key ∧ info = value) ∨ info ∈ txs.lookup txid := by
  by_cases hkey : txid = key
  · subst hkey
    rw [AList.lookup_insert] at h
    cases h
    exact Or.inl ⟨rfl, rfl⟩
  · rw [AList.lookup_insert_ne hkey] at h
    exact Or.inr h

theorem mem_lookup_erase {txs : PendingTxs} {key txid : String} {info : PendingTxInfo}
    (h : info ∈ (txs.erase key).lookup txid) : info ∈ txs.lookup txid := by
  by_cases hkey : txid = key
  · subst hkey
    rw [AList.lookup_erase] at h
    cases h
  · rw [AList.lookup_erase_ne hkey] at h
    exact h

/-- An entry of a process after a step was there before, or the step has stored it, or has extended
it. -/
theorem exec_entry {a : Act} {p : Proc} {txid : String} {info : PendingTxInfo}
    (h : info ∈ ((World.exec env a w).2.pm p).pendingTxs.lookup txid) :
    info ∈ (w.pm p).pendingTxs.lookup txid ∨ a = .storePending p txid info ∨
      ∃ extra, ∃ old ∈ (w.pm p).pendingTxs.lookup txid, a = .mergePending p txid extra ∧
        old.ExtendedBy extra info := by
  by_cases hwrites : a.writesPending = true
  · -- The actions on the map. A poisoned lock writes nothing, the other process keeps its own
    -- entries, and under another txid the entry stays.
    cases a with
    | startProcess q rpc indexer config =>
      by_cases hpq : p = q
      · subst hpq
        have hempty : ((World.exec env (.startProcess p rpc indexer config) w).2.pm p).pendingTxs =
            ∅ := by
          simp only [World.exec, World.effect, World.ticked_pm, World.setPm_pm_self]
        rw [hempty, AList.lookup_empty] at h
        cases h
      · exact Or.inl (entry_of_ne hpq (Or.inr rfl) h)
    | storePending q key value =>
      simp only [World.exec, World.effect] at h
      split at h
      · rw [World.ticked_pm] at h
        exact Or.inl h
      · by_cases hpq : p = q
        · subst hpq
          rw [World.ticked_pm, World.setPm_pm_self] at h
          rcases mem_lookup_insert h with ⟨rfl, rfl⟩ | hold
          · exact Or.inr (Or.inl rfl)
          · exact Or.inl hold
        · exact Or.inl (entry_of_ne hpq (Or.inr rfl) h)
    | mergePending q key extra =>
      simp only [World.exec, World.effect] at h
      split at h
      · rw [World.ticked_pm] at h
        exact Or.inl h
      · split at h
        · rw [World.ticked_pm] at h
          exact Or.inl h
        · rename_i old hold
          by_cases hpq : p = q
          · subst hpq
            rw [World.ticked_pm, World.setPm_pm_self] at h
            rcases mem_lookup_insert h with ⟨rfl, rfl⟩ | hsame
            · exact Or.inr (Or.inr ⟨extra, old, hold, rfl, mergeScripthashes_extendedBy old extra⟩)
            · exact Or.inl hsame
          · exact Or.inl (entry_of_ne hpq (Or.inr rfl) h)
    | removePending q key =>
      simp only [World.exec, World.effect] at h
      split at h
      · rw [World.ticked_pm] at h
        exact Or.inl h
      · split at h
        · rw [World.ticked_pm] at h
          exact Or.inl h
        · by_cases hpq : p = q
          · subst hpq
            rw [World.ticked_pm, World.setPm_pm_self] at h
            exact Or.inl (mem_lookup_erase h)
          · exact Or.inl (entry_of_ne hpq (Or.inr rfl) h)
    | _ => cases hwrites
  · rw [exec_pendingTxs (by simpa using hwrites)] at h
    exact Or.inl h

end

/-! ### A run -/

/-- The entries of both processes are true, as far as these answers go. -/
def World.TrueEntries (env : Env) (seen : List (Seen Act Act.Res)) (w : World) : Prop :=
  ∀ p txid, ∀ info ∈ (w.pm p).pendingTxs.lookup txid, TrueEntry env seen txid info

/-- An answer was given, and it shows true entries only. -/
structure ShowsTrue (env : Env) (seen : List (Seen Act Act.Res)) (s : Seen Act Act.Res) : Prop where
  given : s ∈ seen
  shows : ∀ p txs, s = ⟨.pendingTxs p, some txs⟩ → ∀ txid, ∀ info ∈ txs.lookup txid,
    TrueEntry env seen txid info

/-- The answer that an action got. -/
def answered (env : Env) (e : Performed Act Act.Res World) : Seen Act Act.Res :=
  ⟨e.act, (World.exec env e.act e.state).1⟩

section
variable {env : Env} {seen given : List (Seen Act Act.Res)} {w : World}

theorem World.TrueEntries.mono {seen' : List (Seen Act Act.Res)} (h : w.TrueEntries env seen)
    (hsub : seen ⊆ seen') : w.TrueEntries env seen' :=
  fun p txid info hinfo => (h p txid info hinfo).mono hsub

theorem ShowsTrue.mono {seen' : List (Seen Act Act.Res)} {s : Seen Act Act.Res}
    (h : ShowsTrue env seen s) (hsub : seen ⊆ seen') : ShowsTrue env seen' s where
  given := hsub h.given
  shows p txs hs txid info hinfo := (h.shows p txs hs txid info hinfo).mono hsub

/-- What is merged into an entry is spent by the transaction of this entry. The program may have
computed it from an earlier entry: the txid commits to the inputs. -/
theorem trueEntry_merge (hcommits : env.TxidCommits) (hseen : ∀ s ∈ seen, ShowsTrue env given s)
    {p : Proc} {txid : String} {extra : List String} {old info : PendingTxInfo}
    (hold : TrueEntry env given txid old)
    (htruthful : Truthful env seen (.mergePending p txid extra))
    (hextended : old.ExtendedBy extra info) : TrueEntry env given txid info := by
  obtain ⟨tx, htxid, htrue⟩ := hold
  obtain ⟨txHex, tx', htx', hown, hspends⟩ := htruthful
  have htxid' : env.electrumTxid tx' = txid := by
    rcases hown with h | ⟨q, txs, hshown, info', hinfo', rfl⟩
    · exact h
    · obtain ⟨tx₀, htxid₀, htrue₀⟩ := (hseen _ hshown).shows q txs rfl txid info' hinfo'
      have hsame : tx₀ = tx' := Except.ok.inj (htrue₀.decodes.symm.trans htx')
      exact hsame ▸ htxid₀
  have hinputs := hcommits _ _ tx' tx htx' htrue.decodes (htxid'.trans htxid.symm)
  refine ⟨tx, htxid, htrue.extend hextended fun sh hsh => ?_⟩
  exact ((hspends sh hsh).mono fun s hs => (hseen s hs).given).congr hinputs

/-- One step, if what it stores and merges goes with what its program has seen. -/
theorem trueEntries_step (hcommits : env.TxidCommits) {a : Act} (h : w.TrueEntries env given)
    (hseen : ∀ s ∈ seen, ShowsTrue env given s) (htruthful : Truthful env seen a) :
    (World.exec env a w).2.TrueEntries env given := by
  intro p txid info hinfo
  rcases exec_entry hinfo with hold | rfl | ⟨extra, old, hold, rfl, hextended⟩
  · exact h p txid info hold
  · exact TrueEntry.mono (fun s hs => (hseen s hs).given) htruthful
  · exact trueEntry_merge hcommits hseen (h p txid old hold) htruthful hextended

/-- The answer of a step shows entries of the world. -/
theorem showsTrue_answer {a : Act} (h : w.TrueEntries env given)
    (hgiven : ⟨a, (World.exec env a w).1⟩ ∈ given) :
    ShowsTrue env given ⟨a, (World.exec env a w).1⟩ := by
  refine ⟨hgiven, fun p txs hs txid info hinfo => h p txid info ?_⟩
  obtain ⟨rfl, hanswer⟩ := Sigma.mk.inj hs
  have hshown := eq_of_heq hanswer
  simp only [World.exec, World.effect] at hshown
  split at hshown
  · cases hshown
  · cases hshown
    exact hinfo

/-- An output to a scripthash is one of a transaction that is listed under it. -/
theorem mem_txidsFor_of_outputsFor {txs : PendingTxs}
    (h : ∀ txid, ∀ info ∈ txs.lookup txid, TrueEntry env seen txid info) {scripthash : String}
    {out : HeldOutput} (hout : out ∈ txs.outputsFor scripthash) :
    out.1 ∈ txs.txidsFor scripthash := by
  obtain ⟨entry, hentry, hout⟩ := List.mem_flatMap.1 hout
  obtain ⟨output, houtput, rfl⟩ := List.mem_map.1 hout
  obtain ⟨hmem, hscripthash⟩ := List.mem_filter.1 houtput
  have hlookup : entry.2 ∈ txs.lookup entry.1 := AList.mem_lookup_iff.2 hentry
  refine PendingTxs.mem_txidsFor.2 ⟨entry.2, hlookup, ?_⟩
  obtain ⟨tx, -, htrue⟩ := h _ _ hlookup
  refine htrue.contains scripthash ?_
  have houtputs := htrue.outputs
  unfold extractOutputs at houtputs
  rw [htrue.decodes] at houtputs
  rw [← Except.ok.inj houtputs] at hmem
  obtain ⟨⟨txOut, i⟩, hzip, rfl⟩ := List.mem_map.1 hmem
  refine List.mem_map.2 ⟨txOut, ?_, of_decide_eq_true hscripthash⟩
  exact List.mem_of_getElem? (List.mem_zipIdx_iff_getElem?.1 hzip)

/-- The work for a wallet's broadcast, an enrichment and a rehydration, for any property of the
actions. -/
theorem work_entries {K : Act → Prop} {prog : M Unit}
    (hprog : (∃ txHex source, prog = walletBroadcast env txHex source) ∨
      (∃ p scripthash indexerUrl, prog = enrichPendingForScripthash env p scripthash indexerUrl) ∨
      ∃ p, prog = loadPendingFromDb env p)
    (hinsert : ∀ newTx row, IsNewRow env newTx row → K (.insert row))
    (hstore : ∀ p txid info, K (.storePending p txid info))
    (hmerge : ∀ p txid extra, K (.mergePending p txid extra))
    (hu : ∀ id now, K (.update (.due id now))) : IsWork K prog := by
  rcases hprog with ⟨txHex, source, hprog⟩ | ⟨p, scripthash, indexerUrl, hprog⟩ | ⟨p, hprog⟩
  -- The three of them store, extend or insert through the actions that are asked for.
  all_goals rw [hprog]
  · unfold walletBroadcast
    split
    · exact Prog.uses_bind (work_act (hstore _ _ _)) fun _ =>
        work_ingestTask env .daemon hinsert (hstore .daemon) hmerge hu
    · exact Prog.uses_ret _
  · refine IsLookup.work ?_ hmerge
    unfold enrichPendingForScripthash
    split
    · exact Prog.uses_ret _
    · refine Prog.uses_bind (uses_act rfl) fun held => ?_
      split
      · exact Prog.uses_ret _
      · refine Prog.uses_bind (uses_act rfl) fun pending => ?_
        refine Prog.uses_forEach _ fun entry _ => ?_
        unfold enrichEntry
        split
        · exact Prog.uses_ret _
        · refine Prog.uses_bind (uses_catchErr (lookup_enrichInputScripthashes env p _ _ _))
            fun o => ?_
          cases o with
          | error e => exact Prog.uses_ret _
          | ok extra =>
            show Prog.Uses _ (if _ then _ else _)
            split
            · exact Prog.uses_ret _
            · exact uses_act rfl
  · exact (memory_loadPendingFromDb env p).work hstore hmerge

theorem grounded_entryWork (hseal : env.SealOpens) {prog : M Unit} (h : IsEntryWork env prog) :
    prog.OnPaths anyAnswer (Grounded env) [] := by
  rcases h with ⟨a, h⟩ | h
  · exact h ▸ grounded_activity hseal a
  · refine Prog.Keeps.onPaths (I := HasRead env []) ?_ fun k hk => by cases hk
    refine keeps_ordinary (work_entries h (fun newTx row hnew => ?_) ?_ ?_ ?_)
    · exact (allows_isOrdinary (a := .ingest "" "") rfl).insert newTx trivial row hnew
    · exact fun _ _ _ => isOrdinary_of_writesPool rfl
    · exact fun _ _ _ => isOrdinary_of_writesPool rfl
    · exact fun _ _ => isOrdinary_update rfl

theorem marks_entryWork {prog : M Unit} (h : IsEntryWork env prog) :
    prog.OnPaths (AnswersOwn env) (Marks env) [] := by
  rcases h with ⟨a, h⟩ | h
  · exact h ▸ marks_activity a
  · refine Prog.Keeps.onPaths (I := HasRead env []) ?_ fun k hk => by cases hk
    refine keeps_leaving (work_entries h (fun newTx row hnew => ?_) ?_ ?_ ?_)
    · exact (allows_leavesTxids (a := .ingest "" "") rfl).insert newTx trivial row hnew
    · exact fun _ _ _ => leavesTxids_of_writesPool rfl
    · exact fun _ _ _ => leavesTxids_of_writesPool rfl
    · exact fun _ _ => leavesTxids_update rfl

/-- A list of rows shows the own txids, if the table has no others. -/
theorem listsOwn_exec {a : Act} (h : w.OwnTxids env) : ListsOwn env a (World.exec env a w).1 := by
  cases a
  case select q =>
    intro txs hok tx htx txid htxid
    rcases exec_select env w q with ⟨e, hexec⟩ | ⟨txs', hmap, hexec⟩
    · rw [hexec] at hok
      cases hok
    · rw [hexec] at hok
      cases hok
      obtain ⟨r, hr, hreads⟩ := mem_of_mapM_eq_ok hmap tx htx
      have hspec := mapBroadcastRow_spec hreads
      rw [hspec.txHex]
      rw [hspec.txid] at htxid
      exact h r (mem_selectRows hr).1 txid htxid
  all_goals trivial

/-- The entries of the virtual mempool are true in every reachable state, and a transaction with an
output to a scripthash is listed under it. -/
theorem entries_true (hseal : env.SealOpens) (hanswers : env.AnswersTxids)
    (hcommits : env.TxidCommits) {chs : List (Choice Act Act.Res Failure)}
    (hschedule : ∀ prog, Choice.start prog ∈ chs → IsEntryWork env prog)
    (hids : DistinctIds w (Config.performed (World.exec env) ⟨w, []⟩ chs))
    (hown : w.OwnTxids env) (hempty : ∀ p, (w.pm p).pendingTxs = ∅) :
    let reached := (Config.exec (World.exec env) ⟨w, []⟩ chs).state
    reached.TrueEntries env
        ((Config.performed (World.exec env) ⟨w, []⟩ chs).map (answered env)) ∧
      ∀ p scripthash, ∀ out ∈ (reached.pm p).pendingTxs.outputsFor scripthash,
        out.1 ∈ (reached.pm p).pendingTxs.txidsFor scripthash := by
  intro reached
  have howns : ∀ e ∈ Config.performed (World.exec env) ⟨w, []⟩ chs, e.state.OwnTxids env :=
    own_txids_of_paths hanswers (fun prog hp => grounded_entryWork hseal (hschedule prog hp))
      (fun prog hp => marks_entryWork (hschedule prog hp)) hids hown
  have htruthful : ∀ e ∈ Config.performed (World.exec env) ⟨w, []⟩ chs,
      Truthful env e.seen e.act :=
    Config.performed_of_paths_of_answers _ _ (fun e he => listsOwn_exec (howns e he))
      (fun t ht => by cases ht) fun prog hp => truthful_entryWork (hschedule prog hp)
  have hstart : w.TrueEntries env [] := by
    intro p txid info hinfo
    rw [hempty p, AList.lookup_empty] at hinfo
    cases hinfo
  have hrun := Config.exec_recorded (h := World.exec env) (fun g e => g ++ [answered env e])
    (I := fun given w => w.TrueEntries env given) (J := fun given s => ShowsTrue env given s)
    (P := fun _ _ => True) (fun g e s hs => hs.mono (List.subset_append_left _ _)) chs ⟨w, []⟩ []
    ⟨hstart, fun t ht => by cases ht⟩ (along_of_forall (fun _ _ => trivial) _)
    fun e he given htrue hseen _ => by
      have hnext := trueEntries_step hcommits htrue hseen (htruthful e he)
      have hmore : given ⊆ given ++ [answered env e] := List.subset_append_left _ _
      refine ⟨hnext.mono hmore, showsTrue_answer (htrue.mono hmore) ?_⟩
      exact List.mem_append_right _ (List.mem_singleton_self _)
  have htrue := hrun.state
  rw [← List.flatMap_eq_foldl, ← List.map_eq_flatMap] at htrue
  exact ⟨htrue, fun p scripthash out hout => mem_txidsFor_of_outputsFor (htrue p) hout⟩

end

/-- The transaction of a byte. It has one output, and "08" spends the one of "07". -/
def spendingTx (b : UInt8) : Transaction where
  version := b.toNat
  lockTime := 0
  input := if b = 8 then
      [{ prevTxid := "07", vout := 0, scriptSig := [], witness := [], sequence := 0 }]
    else []
  output := [{ value := 5000, scriptPubkey := [b] }]

/-- Libraries that know these transactions. -/
def spendingLibs : Env :=
  { sampleEnv with
    scripthash := Text.hexEncode
    electrumTxid := fun tx => Text.hexEncode [UInt8.ofNat tx.version.toNat]
    consensusDecode := fun bytes => bytes.head?.map fun b => (spendingTx b, []) }

/-- The backends answer with the txid, and the indexer knows the previous transactions. -/
def spendingEnv : Env :=
  { spendingLibs with
    indexerBroadcast := fun _ txHex => computeTxid spendingLibs txHex
    rpcBroadcast := fun _ txHex => computeTxid spendingLibs txHex
    fetchPrevTx := fun _ txid => decodeTx spendingLibs txid }

theorem decodeTx_spendingEnv {txHex : String} {tx : Transaction}
    (h : decodeTx spendingEnv txHex = .ok tx) : ∃ b, tx = spendingTx b := by
  unfold decodeTx at h
  split at h
  · cases h
  · rename_i raw hraw
    cases raw with
    | nil => cases h
    | cons b raw => exact ⟨b, (Except.ok.inj h).symm⟩

theorem txidCommits_spendingEnv : spendingEnv.TxidCommits := by
  intro txHex txHex' tx tx' htx htx' htxid
  obtain ⟨b, rfl⟩ := decodeTx_spendingEnv htx
  obtain ⟨b', rfl⟩ := decodeTx_spendingEnv htx'
  have hbytes := congrArg Text.hexDecode htxid
  have htxid : ∀ b, spendingEnv.electrumTxid (spendingTx b) = Text.hexEncode [b] := fun b => by
    show Text.hexEncode [UInt8.ofNat (b.toNat : Int).toNat] = _
    rw [Int.toNat_natCast, UInt8.ofNat_toNat]
  rw [htxid, htxid, Text.hexDecode_hexEncode, Text.hexDecode_hexEncode] at hbytes
  cases hbytes
  rfl

theorem answersTxids_spendingEnv : spendingEnv.AnswersTxids := by
  intro tick txHex txid h
  simp only [spendingEnv, or_self] at h
  unfold computeTxid decodeTx at h ⊢
  simpa only [spendingEnv] using h

/-- A wallet sends "08", and then asks about the scripthash that it spends from. -/
def spendingSchedule : List (Choice Act Act.Res Failure) :=
  .start ((Activity.preAck "08").prog spendingEnv) :: List.replicate 2 (.step 0) ++
    .start (enrichPendingForScripthash spendingEnv .daemon "07" "tcp://127.0.0.1:50001") ::
      List.replicate 12 (.step 1)

theorem isEntryWork_spendingSchedule (prog : M Unit)
    (h : Choice.start prog ∈ spendingSchedule) : IsEntryWork spendingEnv prog := by
  simp only [spendingSchedule, List.mem_cons, List.mem_append, List.mem_replicate] at h
  rcases h with (h | ⟨-, h⟩) | h | ⟨-, h⟩
  · cases h
    exact Or.inl ⟨.preAck "08", rfl⟩
  · cases h
  · cases h
    exact Or.inr (Or.inr (Or.inl ⟨_, _, _, rfl⟩))
  · cases h

theorem entries_true_spendingSchedule :
    let reached := (Config.exec (World.exec spendingEnv) ⟨sampleWorld, []⟩ spendingSchedule).state
    (reached.daemon.pendingTxs.lookup "08").map (·.scripthashes) = some ["08", "07"] ∧
      reached.TrueEntries spendingEnv
        ((Config.performed (World.exec spendingEnv) ⟨sampleWorld, []⟩ spendingSchedule).map
          (answered spendingEnv)) :=
  ⟨by decide, (entries_true (fun _ _ _ => rfl)
    answersTxids_spendingEnv txidCommits_spendingEnv isEntryWork_spendingSchedule
    (by decide) (fun r hr => by cases hr) (fun p => by cases p <;> rfl)).1⟩

end BroadcastPool
