import BroadcastPool.Pool.Rejection
import BroadcastPool.Proofs.MissedRelease
import BroadcastPool.Proofs.SparedRow
import BroadcastPool.Sample

/-!
# `BroadcastPool.Proofs.Retry`: whether a rejected row is tried again

A backend's reason asks to wait if it has one of a few words (`AsksToWait`).
`is_retriable_broadcast_error` looks for these words in the text of the error (`isRetriable_iff`).
The indexer's text has the reason in it (`retriable_indexer`), Core's has not.
-/

set_option autoImplicit false

namespace BroadcastPool

open Effects

/-! ### The texts -/

/-- The words of a rejection that time takes care of: the transaction is not final, its locktime is
not reached, or too many of the transactions it builds on are unconfirmed. -/
def waitingWords : List String :=
  ["non-final", "non final", "not final", "locktime", "too-long-mempool-chain"]

/-- The reason has one of the words, in upper or lower case. -/
def AsksToWait (reason : String) : Prop :=
  ∃ word ∈ waitingWords, word.toList <:+: (Text.lowercase reason).toList

instance (reason : String) : Decidable (AsksToWait reason) :=
  inferInstanceAs (Decidable (∃ word ∈ waitingWords, _))

/-- The source looks for these words. -/
theorem isRetriable_iff (msg : String) :
    isRetriableBroadcastError msg = true ↔ AsksToWait msg := by
  simp only [AsksToWait, waitingWords, List.exists_mem_cons_iff, ← Text.containsText_iff]
  simp [isRetriableBroadcastError, or_assoc]

theorem isRetriable_eq_false_iff (msg : String) :
    isRetriableBroadcastError msg = false ↔ ¬ AsksToWait msg := by
  rw [← isRetriable_iff, Bool.not_eq_true]

/-- A beginning without these words, which no word can straddle, does not matter. -/
theorem isRetriable_append {lead : String} (hlead : isRetriableBroadcastError lead = false)
    (hover : ∀ word ∈ waitingWords,
      Text.straddles word.toList (Text.lowercase lead).toList = false) (reason : String) :
    isRetriableBroadcastError (lead ++ reason) = isRetriableBroadcastError reason := by
  have hword : ∀ word ∈ waitingWords,
      (word.toList <:+: (Text.lowercase (lead ++ reason)).toList ↔
        word.toList <:+: (Text.lowercase reason).toList) := by
    intro word hmem
    have hnone : ¬ word.toList <:+: (Text.lowercase lead).toList :=
      fun hin => (isRetriable_eq_false_iff lead).1 hlead ⟨word, hmem, hin⟩
    rw [Text.lowercase_append, Text.infix_append_iff_of_not_straddles (hover word hmem)]
    exact or_iff_right hnone
  rw [Bool.eq_iff_iff, isRetriable_iff, isRetriable_iff]
  constructor
  · rintro ⟨word, hmem, hin⟩
    exact ⟨word, hmem, (hword word hmem).1 hin⟩
  · rintro ⟨word, hmem, hin⟩
    exact ⟨word, hmem, (hword word hmem).2 hin⟩

/-- Core's text is the same for every reason, and it is not retriable. -/
theorem retriable_rpc (reason : String) :
    isRetriableBroadcastError (rpcErrorText reason) = false := by
  show isRetriableBroadcastError "Failed to broadcast transaction" = false
  decide +kernel

/-- The indexer's text is retriable exactly if the reason is. -/
theorem retriable_indexer (reason : String) :
    isRetriableBroadcastError (indexerErrorText (jsonRpcErrorText reason)) =
      isRetriableBroadcastError reason := by
  have hmsg : isRetriableBroadcastError (jsonRpcErrorText reason) =
      isRetriableBroadcastError reason :=
    isRetriable_append (by decide +kernel) (by decide +kernel) reason
  unfold indexerErrorText
  dsimp only
  split
  · rename_i hfinal
    have hreason : isRetriableBroadcastError (jsonRpcErrorText reason) = true := by
      unfold isRetriableBroadcastError
      simp only [hfinal, Bool.true_or]
    rw [← hmsg, hreason, String.append_assoc, isRetriable_iff]
    refine ⟨"non-final", by decide, ?_⟩
    rw [Text.lowercase_append]
    exact List.infix_append_of_infix_left (by decide +kernel)
  · rw [← hmsg]
    exact isRetriable_append (by decide +kernel) (by decide +kernel) _

/-! ### Who is asked about a row -/

/-- Whether a row with the id has been handed to a backend. -/
def noteHandOver (x : String) (handed : Bool) (s : Seen Act Act.Res) : Bool :=
  handed || s.1.handsOver.any fun tx => tx.id = x

/-- The handler that follows the hand-overs of one row. -/
abbrev handHandler (env : Env) (x : String) : Handler Act Act.Res (World × Bool) :=
  (World.exec env).noting (noteHandOver x)

abbrev handNotesContract (env : Env) (x : String) : Contract Act Act.Res (World × Bool) :=
  (handHandler env x).contract (fun _ _ => True) fun _ _ => True

/-- A statement about the rows with an id, about Core being configured, and about the note. -/
abbrev OnRows (p : Proc) (x : String) (J : List Row → Bool → Bool → Prop) (s : World × Bool) :
    Prop :=
  J (rowsOf x s.1.pool) (s.1.pm p).rpc s.2

section Others
variable {env : Env} {p : Proc} {x y : String} {J : List Row → Bool → Bool → Prop} {α : Type}

theorem exec_rpc {a : Act} (h : a.NoStart) (w : World) (p : Proc) :
    ((World.exec env a w).2.pm p).rpc = (w.pm p).rpc := by
  refine exec_pm_field PoolManager.rpc p (fun _ _ => rfl) (fun _ _ => rfl) (fun _ _ => rfl)
    (fun _ _ => rfl) (fun _ _ => rfl) (fun hw => ?_) (fun hs => ?_)
  · cases a <;> cases hw
    · exact absurd rfl (h _ _ _ _)
    all_goals
      simp only [World.effect]
      repeat' split
      all_goals first | rfl | (apply setPm_field PoolManager.rpc; rfl)
  · cases a <;> cases hs
    · exact absurd rfl (h _ _ _ _)
    all_goals
      apply setPm_field PoolManager.rpc
      rfl

/-- Actions that spare a row change nothing about it. -/
theorem keeps_spares {prog : M α} (h : prog.Uses (Act.Spares x)) :
    prog.Keeps (handNotesContract env x) (OnRows p x J) := by
  refine Prog.keeps_of_uses (fun a ha s hs _ => ⟨trivial, fun r s' hstep => ?_⟩) h
  have hnext : s' = (handHandler env x a s).2 := (congrArg Prod.snd hstep).symm
  have hnote : noteHandOver x s.2 ⟨a, (World.exec env a s.1).1⟩ = s.2 := by
    unfold noteHandOver
    cases hover : a.handsOver with
    | none => simp
    | some tx => simp [ha.handsOver tx hover]
  rw [hnext]
  show J (rowsOf x (World.exec env a s.1).2.pool) ((World.exec env a s.1).2.pm p).rpc
    (noteHandOver x s.2 ⟨a, (World.exec env a s.1).1⟩)
  rw [hnote, exec_rowsOf ha.touches, exec_rpc ha.noStart]
  exact hs

/-- Whatever a query shows. -/
theorem sparesRow_any : SparesRow (handNotesContract env x) (OnRows p x J) x fun _ _ => True where
  keeps := keeps_spares
  shows context q := (keeps_spares (spares_lookup (quiet_select context q).lookup)).gives.mono
    fun _ _ _ _ _ => trivial

end Others

/-! ### What a query shows of the row -/

section Parts
variable {env : Env} {p : Proc} {x : String} {J : List Row → Bool → Bool → Prop}

theorem run_select_ok {context : String} {q : Query} {w : World} {txs : List BroadcastTx}
    (h : ((orFail context (perform (.select q))).run (World.exec env) w).1 = .ok txs) :
    ∃ now, (selectRows q w.pool).mapM (mapBroadcastRow env now) = .ok txs := by
  rw [run_orFail] at h
  have hrun : (perform (.select q)).run (World.exec env) w =
      (.ok (World.exec env (.select q) w).1, (World.exec env (.select q) w).2) := rfl
  rw [hrun] at h
  rcases exec_select env w q with ⟨e, hexec⟩ | ⟨txs', hmap, hexec⟩
  · rw [hexec] at h
    cases h
  · rw [hexec] at h
    cases h
    exact ⟨_, hmap⟩

/-- The ids of what is read are the ids of the rows. -/
theorem ids_of_mapM {now : DateTime} {rows : List Row} {txs : List BroadcastTx}
    (h : rows.mapM (mapBroadcastRow env now) = .ok txs) :
    txs.map (·.id) = rows.map (·.id) := by
  induction rows generalizing txs with
  | nil =>
    cases h
    rfl
  | cons r rows ih =>
    simp only [List.mapM_cons, except_bind_eq_ok] at h
    obtain ⟨tx, htx, txs', hrest, h⟩ := h
    cases h
    rw [List.map_cons, List.map_cons, ih hrest, (mapBroadcastRow_spec htx).id]

/-- What a query shows of a row that is the only one with its id. -/
structure ShowsRow (env : Env) (q : Query) (x : String) (r : Row) (txs : List BroadcastTx) :
    Prop where
  reads : ∀ tx ∈ txs, tx.id = x → q.selects r = true ∧ ∃ now, ReadsAs env now r tx
  once : (txs.map (·.id)).count x ≤ 1

theorem gives_select_row {r : Row} (hJ : ∀ l rpc handed, J l rpc handed → l = [r])
    (context : String) (q : Query) :
    Prog.Gives (handNotesContract env x) (OnRows p x J) (ShowsRow env q x r)
      (orFail context (perform (.select q))) := by
  rintro ⟨w, handed⟩ hs
  have hselect : (orFail context (perform (.select q))).Keeps (handNotesContract env x)
      (OnRows p x J) := keeps_spares (spares_lookup (quiet_select context q).lookup)
  have hkept := hselect _ hs
  rw [Prog.wp_plain_iff] at hkept ⊢
  refine ⟨hkept, fun txs htxs => ?_⟩
  rw [Prog.run_noting] at htxs
  obtain ⟨now, hmap⟩ := run_select_ok htxs
  have hone : rowsOf x w.pool = [r] := hJ _ _ _ hs
  refine ⟨fun tx htx hid => ?_, ?_⟩
  · obtain ⟨now, r', hr', hselects, hreads⟩ := answers_of_mapM hmap tx htx
    have hmem : r' ∈ rowsOf x w.pool := mem_rowsOf.2 ⟨hr', hreads.id.symm.trans hid⟩
    rw [hone, List.mem_singleton] at hmem
    rw [hmem] at hselects hreads
    exact ⟨hselects, now, hreads⟩
  · rw [ids_of_mapM hmap]
    refine le_trans (count_ids_selectRows q w.pool x) ?_
    rw [hone]
    exact le_refl _

theorem sparesRow_shows {r : Row} (hJ : ∀ l rpc handed, J l rpc handed → l = [r]) :
    SparesRow (handNotesContract env x) (OnRows p x J) x
      fun q tx => q.selects r = true ∧ ∃ now, ReadsAs env now r tx where
  keeps := keeps_spares
  shows context q := (gives_select_row hJ context q).mono fun _ h => h.reads

end Parts

/-! ### The rejection -/

/-- Both backends reject a transaction, each for its reason. -/
structure RejectedFor (env : Env) (txHex indexerReason coreReason : String) : Prop where
  indexer : ∀ tick, env.indexerBroadcast tick txHex =
    .error (indexerErrorText (jsonRpcErrorText indexerReason))
  core : ∀ tick, env.rpcBroadcast tick txHex = .error (rpcErrorText coreReason)

/-- The reason of the backend that is asked last: Core, where it is configured. -/
def lastReason (rpc : Bool) (indexerReason coreReason : String) : String :=
  if rpc then coreReason else indexerReason

/-- The text that the pool gets to see. -/
def rejectionText (rpc : Bool) (indexerReason coreReason : String) : String :=
  if rpc then rpcErrorText coreReason else indexerErrorText (jsonRpcErrorText indexerReason)

/-- The row has not been handed over yet. -/
def Untried (r : Row) (rpc : Bool) (rows : List Row) (hasRpc handed : Bool) : Prop :=
  rows = [r] ∧ hasRpc = rpc ∧ handed = false

/-- What a rejection with a text leaves of a row: the row itself, or the failed one. -/
def LeftBy (r : Row) (text : String) (rows : List Row) : Prop :=
  if isRetriableBroadcastError text then rows = [r]
  else ∃ r', rows = [r'] ∧ r'.status = "failed" ∧ r'.errorMessage = some text ∧
    r'.nlocktime = r.nlocktime

/-- If the row has been handed over, the rejection has been stored. -/
def Stored (r : Row) (text : String) (rows : List Row) (_hasRpc handed : Bool) : Prop :=
  handed = true → LeftBy r text rows

section Rejection
variable {env : Env} {p : Proc} {r : Row} {rpc : Bool} {indexerReason coreReason : String}
  {tx : BroadcastTx} {w : World}

theorem handHandler_exec (a : Act) (x : String) (handed : Bool) :
    handHandler env x a (w, handed) =
      ((World.exec env a w).1, (World.exec env a w).2,
        noteHandOver x handed ⟨a, (World.exec env a w).1⟩) := rfl

theorem handHandler_apply (a : Act) (x : String) (handed : Bool) :
    handHandler env x a (w, handed) =
      ((w.effect env a).1, (w.effect env a).2.ticked,
        noteHandOver x handed ⟨a, (w.effect env a).1⟩) := rfl

/-- A rejected hand-over ends with the text of the backend that was asked last. -/
theorem run_broadcastTransaction_rejected
    (hrejected : RejectedFor env tx.txHex indexerReason coreReason) :
    ∃ e, ((broadcastTransaction p tx).run (handHandler env tx.id) (w, false)).1 =
        .error (.error e) ∧
      ((broadcastTransaction p tx).run (handHandler env tx.id) (w, false)).2.1.pool = w.pool ∧
      (((broadcastTransaction p tx).run (handHandler env tx.id) (w, false)).2.2 = true →
        e = rejectionText (w.pm p).rpc indexerReason coreReason) := by
  -- Which backends are asked depends on three flags only.
  cases htry : (w.pm p).chainHealth.shouldTryIndexer <;>
    cases hindexer : (w.pm p).indexer <;> cases hrpc : (w.pm p).rpc <;>
    simp [broadcastTransaction, indexerVerdict, perform, Prog.run_bind, handHandler_apply,
      World.effect, htry, hindexer, hrpc, hrejected.indexer, hrejected.core, bail, run_orRaise,
      noteHandOver, Act.handsOver, rejectionText]

/-- A map that keeps ids maps the rows with an id. -/
theorem rowsOf_map_of_id {f : Row → Row} (hid : ∀ r, (f r).id = r.id) (x : String)
    (rows : List Row) : rowsOf x (rows.map f) = (rowsOf x rows).map f := by
  unfold rowsOf
  rw [List.filter_map]
  congr 2
  funext r
  simp [hid]

theorem resealed_rowMac (r : Row) :
    resealed env r = { r with rowMac := (resealed env r).rowMac } := by
  unfold resealed
  split <;> rfl

/-- The row is stored as failed, with the text, and the note is still the same. -/
def FailedWith (r : Row) (text : String) (noted : Bool) (rows : List Row)
    (_hasRpc handed : Bool) : Prop :=
  handed = noted ∧ ∃ r', rows = [r'] ∧ r'.status = "failed" ∧ r'.errorMessage = some text ∧
    r'.nlocktime = r.nlocktime

/-- The row is as it was, and the note is still the same. -/
def SameRow (r : Row) (noted : Bool) (rows : List Row) (_hasRpc handed : Bool) : Prop :=
  handed = noted ∧ rows = [r]

variable (env) in
/-- A reseal leaves the rows with the id, resealed or not. -/
theorem rowsOf_reseal (w : World) (x : String) :
    rowsOf x (World.exec env (.reseal x) w).2.pool = rowsOf x w.pool ∨
      rowsOf x (World.exec env (.reseal x) w).2.pool = (rowsOf x w.pool).map (resealed env) := by
  rcases exec_reseal env w x with ⟨-, e, hexec⟩ | hexec
  · rw [hexec]
    exact Or.inl rfl
  · rw [hexec]
    cases hreseal : resealRow env x w.pool with
    | error e => exact Or.inl rfl
    | ok rows =>
      right
      unfold resealRow at hreseal
      split at hreseal
      · cases hreseal
      · split at hreseal
        · cases hreseal
        · cases hreseal
          show rowsOf x (w.pool.map _) = _
          rw [rowsOf_map_of_id]
          · refine List.map_congr_left fun r hr => ?_
            rw [if_pos (mem_rowsOf.1 hr).2]
          · intro r
            split
            · rw [resealed_rowMac]
            · rfl

theorem keeps_reseal_failed (text : String) (noted : Bool) :
    (resealRowMac r.id).Keeps (handNotesContract env r.id)
      (OnRows p r.id (FailedWith r text noted)) := by
  refine keeps_orFail _ fun s hs => Prog.wp_perform_handler _ _ _ s fun _ => ⟨trivial, ?_⟩
  obtain ⟨hnoted, r', hrows, hstatus, herror, hlock⟩ := hs
  have hnote : noteHandOver r.id s.2 ⟨.reseal r.id, (World.exec env (.reseal r.id) s.1).1⟩ =
      noted := by
    simp [noteHandOver, Act.handsOver, hnoted]
  refine ⟨hnote, ?_⟩
  rcases rowsOf_reseal env s.1 r.id with hsame | hmap
  · exact ⟨r', hsame.trans hrows, hstatus, herror, hlock⟩
  · refine ⟨resealed env r', ?_, ?_⟩
    · rw [hrows] at hmap
      exact hmap
    · rw [resealed_rowMac]
      exact ⟨hstatus, herror, hlock⟩

/-- `update_tx_status` stores a failure. -/
theorem wp_updateTxStatus_failed (hdb : ∀ tick, env.dbFault tick = none) (text : String)
    {noted : Bool} {s : World × Bool} (hs : OnRows p r.id (SameRow r noted) s) :
    (updateTxStatus env r.id .failed (some text)).wp (handNotesContract env r.id)
      (fun _ s' => OnRows p r.id (FailedWith r text noted) s') s := by
  obtain ⟨w, handed⟩ := s
  have hnoted : handed = noted := hs.1
  have hrows : rowsOf r.id w.pool = [r] := hs.2
  have hset : ∀ now, rowsOf r.id (applyUpdate env (.txStatus r.id .failed (some text) now) w.pool) =
      [{ r with status := "failed", errorMessage := some text, updatedAt := now }] := by
    intro now
    unfold applyUpdate
    rw [rowsOf_map_of_id (Update.onRow_id _), hrows]
    show [Update.onRow env (.txStatus r.id .failed (some text) now) r] = _
    unfold Update.onRow
    rw [if_pos ⟨rfl, rfl⟩]
    rfl
  refine (Prog.wp_bind _ _ _ _).2 ((Prog.wp_bind _ _ _ _).2 ?_)
  refine Prog.wp_perform_handler _ _ _ _ fun _ => ⟨trivial, ?_⟩
  rw [handHandler_apply]
  show (Prog.ret _ : M String).wp _ _ _
  rw [Prog.wp_ret]
  refine (Prog.wp_bind _ _ _ _).2 ((wp_orFail _ _ _ _).2 (Prog.wp_perform_handler _ _ _ _
    fun _ => ⟨trivial, ?_⟩))
  rw [handHandler_exec, exec_update_ok (hdb _)]
  refine keeps_reseal_failed (p := p) text noted _ ⟨?_, _, hset _, rfl, rfl, rfl⟩
  simp [noteHandOver, Act.handsOver, hnoted]

/-- The hand-over of the row itself: the rejection is stored. -/
theorem wp_broadcastDueTx_rejected (hdb : ∀ tick, env.dbFault tick = none)
    (hrejected : RejectedFor env tx.txHex indexerReason coreReason) (hid : tx.id = r.id)
    {s : World × Bool} (hs : OnRows p r.id (Untried r rpc) s) :
    (broadcastDueTx env p tx).wp (handNotesContract env r.id)
      (fun _ s' => OnRows p r.id (Stored r (rejectionText rpc indexerReason coreReason)) s')
      s := by
  obtain ⟨w, handed⟩ := s
  obtain ⟨hrows, hrpc, hhanded⟩ := hs
  have hw : rowsOf r.id w.pool = [r] := hrows
  have hnotHanded : handed = false := hhanded
  obtain ⟨e, hfails, hpool, htext⟩ := run_broadcastTransaction_rejected (p := p) (w := w) hrejected
  rw [hid] at hfails hpool htext
  rw [show (w.pm p).rpc = rpc from hrpc] at htext
  rw [hnotHanded]
  refine (Prog.wp_bind _ _ _ _).2 ((Prog.wp_plain_iff _ _ _ _).2 ?_)
  rw [run_catchErr]
  rcases hrun : (broadcastTransaction p tx).run (handHandler env r.id) (w, false) with ⟨o, s'⟩
  rw [hrun] at hfails hpool htext
  cases hfails
  show (if isRetriableBroadcastError e then _ else _ : M Unit).wp _ _ s'
  have hkept : rowsOf r.id s'.1.pool = [r] := by
    rw [show s'.1.pool = w.pool from hpool]
    exact hw
  -- The classifier decides on the text of the error: the row stays, or the rejection is stored.
  split
  · rename_i hretriable
    show (Prog.ret () : M Unit).wp _ _ s'
    rw [Prog.wp_ret]
    intro hhanded'
    rw [htext hhanded'] at hretriable
    unfold LeftBy
    rw [if_pos hretriable]
    exact hkept
  · rename_i hretriable
    rw [hid]
    have hsame : OnRows p r.id (SameRow r s'.2) s' := ⟨rfl, hkept⟩
    refine Prog.wp_mono ?_ _ s' (wp_updateTxStatus_failed (p := p) hdb e hsame)
    intro o s'' hfailed hhanded'
    obtain ⟨hnoted, hleft⟩ := hfailed
    rw [htext (hnoted.symm.trans hhanded')] at hretriable hleft
    unfold LeftBy
    rw [if_neg hretriable]
    exact hleft

/-! ### The batch and the tick -/

section Batch
variable {J : List Row → Bool → Bool → Prop} {x : String} {α : Type}

/-- What follows a part of a program that keeps `I`, where `I` is enough at the end. -/
theorem wp_keeps_bind {I Q : World × Bool → Prop} {c : Contract Act Act.Res (World × Bool)}
    {prog : M α} {f : α → M Unit} {s : World × Bool} (hprog : prog.Keeps c I)
    (hI : ∀ s', I s' → Q s') (hs : I s)
    (hf : ∀ a s', I s' → (f a).wp c (fun _ s'' => Q s'') s') :
    (prog.bind f).wp c (fun _ s' => Q s') s := by
  refine (Prog.wp_bind _ _ _ s).2 (Prog.wp_mono ?_ _ s (hprog s hs))
  rintro (e | a) s' hs'
  · exact hI s' hs'
  · exact hf a s' hs'

theorem wp_gives_bind {I Q : World × Bool → Prop} {P : α → Prop}
    {c : Contract Act Act.Res (World × Bool)} {prog : M α} {f : α → M Unit} {s : World × Bool}
    (hprog : Prog.Gives c I P prog) (hI : ∀ s', I s' → Q s') (hs : I s)
    (hf : ∀ a s', P a → I s' → (f a).wp c (fun _ s'' => Q s'') s') :
    (prog.bind f).wp c (fun _ s' => Q s') s := by
  refine (Prog.wp_bind _ _ _ s).2 (Prog.wp_mono ?_ _ s (hprog s hs))
  rintro (e | a) s' ⟨hs', hP⟩
  · exact hI s' hs'
  · exact hf a s' (hP a rfl) hs'

theorem stored_of_untried {text : String} (s : World × Bool)
    (h : OnRows p r.id (Untried r rpc) s) : OnRows p r.id (Stored r text) s := by
  intro hhanded
  rw [h.2.2] at hhanded
  cases hhanded

/-- A part of the program that hands nothing over leaves the note. -/
theorem keeps_note {prog : M α} (h : prog.Uses fun a => a.handsOver = none) :
    prog.Keeps (handNotesContract env x) fun s => s.2 = false := by
  refine Prog.keeps_of_uses (fun a ha s hs _ => ⟨trivial, fun r s' hstep => ?_⟩) h
  have hnext : s' = (handHandler env x a s).2 := (congrArg Prod.snd hstep).symm
  rw [hnext]
  show noteHandOver x s.2 ⟨a, (World.exec env a s.1).1⟩ = false
  simp [noteHandOver, ha, hs]

/-- The row itself, as one of the batch. -/
theorem wp_broadcastIfFinal_rejected (hdb : ∀ tick, env.dbFault tick = none)
    (hrejected : RejectedFor env tx.txHex indexerReason coreReason) (hid : tx.id = r.id)
    (now : DateTime) {s : World × Bool} (hs : OnRows p r.id (Untried r rpc) s) :
    (broadcastIfFinal env p tx now).wp (handNotesContract env r.id)
      (fun _ s' => OnRows p r.id (Stored r (rejectionText rpc indexerReason coreReason)) s')
      s := by
  refine wp_keeps_bind (keeps_spares (spares_lookup (clock_locktimeOrRefuse p _).lookup))
    stored_of_untried
    hs fun ok s' hs' => ?_
  show (if _ then _ else _ : M Unit).wp _ _ s'
  split
  · exact wp_broadcastDueTx_rejected hdb hrejected hid hs'
  · have hmiss : (recordMiss env p tx now).Uses fun a => a.handsOver = none := by
      refine Prog.Uses.mono (fun a ha => ?_)
        (work_recordMiss (K := fun a => a.handsOver = none) env p tx now fun _ _ _ => rfl)
      rcases ha with hbasic | hnone
      · cases a <;> first | rfl | cases hbasic
      · exact hnone
    refine Prog.wp_mono ?_ _ s' (keeps_note hmiss s' hs'.2.2)
    intro o s'' hnote hhanded
    rw [hnote] at hhanded
    cases hhanded

/-- The batch: once the row has been handed over, the rejection is stored. -/
theorem wp_broadcastDueLoop_rejected (hdb : ∀ tick, env.dbFault tick = none) (now : DateTime)
    (txs : List BroadcastTx)
    (hrejected : ∀ tx ∈ txs, tx.id = r.id →
      RejectedFor env tx.txHex indexerReason coreReason)
    (honce : (txs.map (·.id)).count r.id ≤ 1) {s : World × Bool}
    (hs : OnRows p r.id (Untried r rpc) s) :
    (broadcastDueLoop env p now txs).wp (handNotesContract env r.id)
      (fun _ s' => OnRows p r.id (Stored r (rejectionText rpc indexerReason coreReason)) s')
      s := by
  -- By the batch. The rows before the one with the id spare it, its own turn stores the rejection,
  -- and the rows after it have other ids.
  induction txs generalizing s with
  | nil =>
    show (Prog.ret () : M Unit).wp _ _ s
    rw [Prog.wp_ret]
    exact stored_of_untried s hs
  | cons tx txs ih =>
    refine wp_keeps_bind (keeps_spares (uses_act (spares_isSafeMode p r.id))) stored_of_untried hs
      fun halted s₁ hs₁ => ?_
    show (if _ then _ else _ : M Unit).wp _ _ s₁
    split
    · show (Prog.ret () : M Unit).wp _ _ s₁
      rw [Prog.wp_ret]
      exact stored_of_untried s₁ hs₁
    · split
      · refine Prog.wp_mono ?_ _ _
          (keeps_spares (uses_act (spares_enterSafeMode p r.id tx.id)) s₁ hs₁)
        intro o s' hs'
        exact stored_of_untried s' hs'
      · by_cases hid : tx.id = r.id
        · have hothers : ∀ tx' ∈ txs, tx'.id ≠ r.id := by
            intro tx' htx' hid'
            rw [List.map_cons, hid, List.count_cons_self] at honce
            have hmem : r.id ∈ txs.map (·.id) := List.mem_map.2 ⟨tx', htx', hid'⟩
            have hpos := List.count_pos_iff.2 hmem
            omega
          have hfirst := wp_broadcastIfFinal_rejected (p := p) hdb
            (hrejected tx (List.mem_cons_self ..) hid) hid now hs₁
          refine (Prog.wp_bind _ _ _ s₁).2 (Prog.wp_mono ?_ _ s₁ hfirst)
          rintro (e | u) s₂ hstored
          · exact hstored
          · exact sparesRow_any.broadcastDueLoop env p now txs hothers s₂ hstored
        · refine wp_keeps_bind (keeps_spares (spares_broadcastIfFinal env p hid now))
            stored_of_untried hs₁
            fun _ s₂ hs₂ => ?_
          rw [List.map_cons, List.count_cons_of_ne hid] at honce
          exact ih (fun tx' htx' => hrejected tx' (List.mem_cons_of_mem _ htx')) honce hs₂

/-- The hand-overs of a tick: once the row has been handed over, the rejection is stored. -/
theorem wp_broadcastDueTransactions_rejected (hdb : ∀ tick, env.dbFault tick = none)
    (hrejected : RejectedFor env (decOrRaw env r.id r.txHex) indexerReason coreReason)
    {s : World × Bool} (hs : OnRows p r.id (Untried r rpc) s) :
    (broadcastDueTransactions env p).wp (handNotesContract env r.id)
      (fun _ s' => OnRows p r.id (Stored r (rejectionText rpc indexerReason coreReason)) s')
      s := by
  have hone : ∀ l hasRpc handed, Untried r rpc l hasRpc handed → l = [r] := fun _ _ _ h => h.1
  refine wp_keeps_bind (keeps_spares (uses_act (spares_isSafeMode p r.id))) stored_of_untried hs
    fun halted s₁ hs₁ => ?_
  show (if _ then _ else _ : M Unit).wp _ _ s₁
  split
  · show (Prog.ret () : M Unit).wp _ _ s₁
    rw [Prog.wp_ret]
    exact stored_of_untried s₁ hs₁
  · refine wp_keeps_bind (keeps_spares (spares_lookup (clock_configNetwork p).lookup))
      stored_of_untried
      hs₁ fun network s₂ hs₂ => ?_
    refine wp_keeps_bind (keeps_spares (spares_lookup (uses_act rfl))) stored_of_untried hs₂
      fun now s₃ hs₃ => ?_
    refine wp_gives_bind (gives_select_row hone _ _) stored_of_untried hs₃
      fun candidates s₄ hshows hs₄ => ?_
    refine wp_gives_bind (gives_dueTxs_sublist p now candidates fun tx => ?_) stored_of_untried
      hs₄ fun due s₅ hdue hs₅ => ?_
    · exact keeps_spares
        (spares_lookup (IsClock.lookup (uses_catchErr (clock_isTxDueForBroadcast p tx now))))
    refine wp_broadcastDueLoop_rejected hdb now due (fun tx htx hid => ?_) ?_ hs₅
    · obtain ⟨-, now', hreads⟩ := hshows.reads tx (hdue.subset htx) hid
      rw [hreads.txHex]
      exact hrejected
    · exact le_trans ((hdue.map _).count_le r.id) hshows.once

/-- A tick: once the row has been handed over, the rejection is stored. -/
theorem wp_runSchedulerTick_rejected (hdb : ∀ tick, env.dbFault tick = none)
    (hrejected : RejectedFor env (decOrRaw env r.id r.txHex) indexerReason coreReason)
    (hstatus : r.status = "scheduled") {s : World × Bool}
    (hs : OnRows p r.id (Untried r rpc) s) :
    (runSchedulerTick env p).wp (handNotesContract env r.id)
      (fun _ s' => OnRows p r.id (Stored r (rejectionText rpc indexerReason coreReason)) s')
      s := by
  -- The row is scheduled: the phases before the hand-over select pending and failed rows only.
  have hspares : SparesRow (handNotesContract env r.id) (OnRows p r.id (Untried r rpc)) r.id
      fun q tx => q.selects r = true ∧ ∃ now, ReadsAs env now r tx :=
    sparesRow_shows fun _ _ _ h => h.1
  have hpending : ∀ network tx, ¬ ((Query.pendingByScheduledTime network).selects r = true ∧
      ∃ now, ReadsAs env now r tx) := by
    rintro network tx ⟨hselects, -⟩
    simp [Query.selects, hstatus] at hselects
  have hfailed : ∀ network tx, (Query.list (some "failed") network 1000).selects r = true ∧
      (∃ now, ReadsAs env now r tx) → isRequeued tx = false := by
    rintro network tx ⟨hselects, -⟩
    simp [Query.selects, hstatus] at hselects
  refine wp_keeps_bind (keeps_spares (uses_act (spares_isSafeMode p r.id))) stored_of_untried hs
    fun halted s₁ hs₁ => ?_
  show (if _ then _ else _ : M Unit).wp _ _ s₁
  split
  · show (Prog.ret () : M Unit).wp _ _ s₁
    rw [Prog.wp_ret]
    exact stored_of_untried s₁ hs₁
  · refine wp_keeps_bind (keeps_spares (spares_lookup (uses_act rfl))) stored_of_untried hs₁
      fun health s₂ hs₂ => ?_
    refine wp_keeps_bind (Prog.keeps_ensure _ _) stored_of_untried hs₂ fun _ s₃ hs₃ => ?_
    refine wp_keeps_bind (keeps_spares (spares_lookup (clock_configNetwork p).lookup))
      stored_of_untried
      hs₃ fun network s₄ hs₄ => ?_
    refine wp_gives_bind (hspares.getPendingByScheduledTime (hpending network))
      stored_of_untried hs₄ fun pending s₅ hothers hs₅ => ?_
    refine wp_keeps_bind (hspares.markPendingLoop env p pending hothers) stored_of_untried hs₅
      fun _ s₆ hs₆ => ?_
    refine wp_keeps_bind (keeps_catchErr (hspares.requeueRetriableFailures env p hfailed))
      stored_of_untried hs₆ fun _ s₇ hs₇ => ?_
    exact wp_broadcastDueTransactions_rejected hdb hrejected hs₇

/-- A tick spares a failed row that is not taken back. -/
theorem keeps_runSchedulerTick_failed {r : Row}
    (hJ : ∀ l hasRpc handed, J l hasRpc handed → l = [r]) (hstatus : r.status = "failed")
    (hspared : ∀ now tx, ReadsAs env now r tx → isRequeued tx = false) :
    (runSchedulerTick env p).Keeps (handNotesContract env x) (OnRows p x J) := by
  refine (sparesRow_shows hJ).runSchedulerTick env p (fun network tx hshown => ?_)
    (fun network tx hshown => ?_) fun network tx hshown => ?_
  · obtain ⟨hselects, -⟩ := hshown
    simp [Query.selects, hstatus] at hselects
  · obtain ⟨-, now, hreads⟩ := hshown
    exact hspared now tx hreads
  · obtain ⟨hselects, -⟩ := hshown
    simp [Query.selects, hstatus] at hselects

end Batch

/-! ### What is left after the tick -/

/-- The tick hands the row over. -/
def TriesRow (env : Env) (p : Proc) (id : String) (w : World) : Prop :=
  ∃ s ∈ (runSchedulerTick env p).answers (World.exec env) w, ∃ tx ∈ s.1.handsOver, tx.id = id

/-- The row is scheduled after the tick if the reason asks to wait, and failed otherwise. -/
def TickFollows (env : Env) (p : Proc) (r : Row) (reason : String) (w : World) : Prop :=
  ∃ r', rowsOf r.id (afterTicks env p 1 w).pool = [r'] ∧
    r'.status = if AsksToWait reason then "scheduled" else "failed"

/-- The row is failed after the tick and after any number of further ticks, whatever the world
answers in them. -/
def StaysFailed (env : Env) (p : Proc) (r : Row) (w : World) : Prop :=
  ∀ env' k, ∃ r', rowsOf r.id (afterTicks env' p k (afterTicks env p 1 w)).pool = [r'] ∧
    r'.status = "failed"

theorem foldl_noteHandOver (x : String) (handed : Bool) (seen : List (Seen Act Act.Res)) :
    seen.foldl (noteHandOver x) handed =
      (handed || seen.any fun s => s.1.handsOver.any fun tx => tx.id = x) := by
  induction seen generalizing handed with
  | nil => simp
  | cons s seen ih => rw [List.foldl_cons, ih, List.any_cons, noteHandOver, Bool.or_assoc]

theorem noted_of_triesRow {id : String} (h : TriesRow env p id w) :
    ((runSchedulerTick env p).run (handHandler env id) (w, false)).2.2 = true := by
  obtain ⟨s, hs, tx, htx, hid⟩ := h
  rw [Prog.run_noting, foldl_noteHandOver, Bool.false_or]
  refine List.any_eq_true.2 ⟨s, hs, ?_⟩
  rw [htx]
  simpa using hid

/-- A tick that tries the row leaves what the rejection leaves of it. -/
theorem leftBy_tick (hdb : ∀ tick, env.dbFault tick = none) (hrow : rowsOf r.id w.pool = [r])
    (hstatus : r.status = "scheduled")
    (hrejected : RejectedFor env (decOrRaw env r.id r.txHex) indexerReason coreReason)
    (htries : TriesRow env p r.id w) :
    LeftBy r (rejectionText (w.pm p).rpc indexerReason coreReason)
      (rowsOf r.id (afterTicks env p 1 w).pool) := by
  have huntried : OnRows p r.id (Untried r (w.pm p).rpc) (w, false) := ⟨hrow, rfl, rfl⟩
  have hwp := wp_runSchedulerTick_rejected hdb hrejected hstatus huntried
  have hstored := (Prog.run_trace_of_wp _ _ _ hwp fun _ _ => trivial).1
  have hleft := hstored (noted_of_triesRow htries)
  rw [Prog.run_noting] at hleft
  exact hleft

/-- Further ticks leave a failed row that is not taken back. -/
theorem afterTicks_failed {r : Row} (hstatus : r.status = "failed")
    (hspared : ∀ env now tx, ReadsAs env now r tx → isRequeued tx = false)
    (hrow : rowsOf r.id w.pool = [r]) (k : Nat) :
    rowsOf r.id (afterTicks env p k w).pool = [r] := by
  induction k with
  | zero => exact hrow
  | succ k ih =>
    have hkeeps : (runSchedulerTick env p).Keeps (handNotesContract env r.id)
        (OnRows p r.id fun l _ _ => l = [r]) :=
      keeps_runSchedulerTick_failed (fun _ _ _ h => h) hstatus fun now tx => hspared env now tx
    have hwp := hkeeps (afterTicks env p k w, false) ih
    have hkept := (Prog.run_trace_of_wp _ _ _ hwp fun _ _ => trivial).1
    rw [Prog.run_noting] at hkept
    exact hkept

/-- A row that failed for a text that is not retriable, and that has no locktime, is not taken
back. -/
theorem isRequeued_eq_false {text : String} {now : DateTime}
    (herror : r.errorMessage = some text) (htext : isRetriableBroadcastError text = false)
    (hlock : r.nlocktime = some 0) (hreads : ReadsAs env now r tx) : isRequeued tx = false := by
  have hzero : tx.nlocktime.getD 0 = 0 := by
    obtain ⟨n, hn⟩ := Option.isSome_iff_exists.1 hreads.nlocktime.2
    have hsame : some (0 : Int) = some (n : Int) := by
      rw [← hlock, hreads.nlocktime.1, hn]
      rfl
    rw [hn]
    exact (Int.ofNat.inj (Option.some.inj hsame)).symm
  unfold isRequeued
  rw [hreads.errorMessage, herror, hzero]
  simp [htext]

/-- The text is retriable where the reason is, unless the text is Core's. -/
theorem retriable_rejectionText (rpc : Bool) :
    isRetriableBroadcastError (rejectionText rpc indexerReason coreReason) =
      (!rpc && isRetriableBroadcastError indexerReason) := by
  cases rpc <;> simp [rejectionText, retriable_indexer, retriable_rpc]

/-- After a tick that tries a row, its status follows the reason if and only if Core is not
configured or its reason does not ask to wait. A row that failed for another reason stays failed, if
it has no locktime. -/
theorem retry_follows_reason (hdb : ∀ tick, env.dbFault tick = none)
    (hrow : rowsOf r.id w.pool = [r]) (hstatus : r.status = "scheduled")
    (hrejected : RejectedFor env (decOrRaw env r.id r.txHex) indexerReason coreReason)
    (htries : TriesRow env p r.id w) :
    (TickFollows env p r (lastReason (w.pm p).rpc indexerReason coreReason) w ↔
      ((w.pm p).rpc = true → ¬ AsksToWait coreReason)) ∧
    (¬ AsksToWait (lastReason (w.pm p).rpc indexerReason coreReason) →
      r.nlocktime = some 0 → StaysFailed env p r w) := by
  have hleft := leftBy_tick hdb hrow hstatus hrejected htries
  unfold LeftBy at hleft
  constructor
  · rw [retriable_rejectionText] at hleft
    -- With Core as a backend the text of the error is its own wrapper, which never asks to wait.
    cases hrpc : (w.pm p).rpc with
    | false =>
      rw [hrpc, Bool.not_false, Bool.true_and] at hleft
      refine iff_of_true ?_ fun h => by cases h
      show ∃ r' : Row, _ ∧ r'.status = if AsksToWait indexerReason then _ else _
      split at hleft
      · rename_i hreason
        exact ⟨r, hleft, by rw [if_pos ((isRetriable_iff _).1 hreason), hstatus]⟩
      · rename_i hreason
        obtain ⟨r', hrows, hfailed, -⟩ := hleft
        rw [isRetriable_iff] at hreason
        exact ⟨r', hrows, by rw [if_neg hreason, hfailed]⟩
    | true =>
      rw [hrpc, Bool.not_true, Bool.false_and, if_neg Bool.false_ne_true] at hleft
      obtain ⟨r', hrows, hfailed, -⟩ := hleft
      show (∃ r' : Row, _ ∧ r'.status = if AsksToWait coreReason then _ else _) ↔ _
      constructor
      · rintro ⟨r'', hrows', hfollows⟩ - hreason
        rw [hrows] at hrows'
        cases hrows'
        rw [hfailed, if_pos hreason] at hfollows
        exact absurd hfollows (by decide)
      · intro hreason
        exact ⟨r', hrows, by rw [if_neg (hreason rfl), hfailed]⟩
  · -- No reason to wait: the text is stored with the failure, and no later tick takes the row back.
    intro hreason hlock env' k
    rw [← isRetriable_eq_false_iff] at hreason
    have htext : isRetriableBroadcastError
        (rejectionText (w.pm p).rpc indexerReason coreReason) = false := by
      rw [retriable_rejectionText]
      unfold lastReason at hreason
      split at hreason
      · simp [*]
      · simp [hreason]
    rw [if_neg (by simp [htext])] at hleft
    obtain ⟨r', hrows, hfailed, herror, hsame⟩ := hleft
    have hid : r'.id = r.id := (mem_rowsOf.1 (by rw [hrows]; exact List.mem_singleton_self _)).2
    rw [← hid] at hrows ⊢
    refine ⟨r', afterTicks_failed hfailed (fun env now tx hreads => ?_) hrows k, hfailed⟩
    exact isRequeued_eq_false herror htext (hsame.trans hlock) hreads

end Rejection

/-- An environment whose backends reject every transaction for one reason. -/
def rejectingEnv (reason : String) : Env :=
  { sampleEnv with
    indexerBroadcast := fun _ _ => .error (indexerErrorText (jsonRpcErrorText reason))
    rpcBroadcast := fun _ _ => .error (rpcErrorText reason) }

theorem rejectedFor_rejectingEnv (reason txHex : String) :
    RejectedFor (rejectingEnv reason) txHex reason reason where
  indexer _ := rfl
  core _ := rfl

/-- The served row, with Core as the only backend. -/
def coreWorld (row : Row) : World :=
  { servedWorld row with
    daemon := { (servedWorld row).daemon with
      rpc := true
      indexer := false
      chainHealth := { coreUp := true, source := .bitcoinCore, polled := true } } }

theorem rowsOf_servedWorld (r : Row) : rowsOf r.id (servedWorld r).pool = [r] := by
  simp [servedWorld, rowsOf]

/-- The action hands a row with the id over. -/
def Act.handsRow (id : String) (a : Act) : Bool := a.handsOver.any fun tx => tx.id = id

theorem triesRow_of_any {env : Env} {p : Proc} {id : String} {w : World}
    (h : ((runSchedulerTick env p).answers (World.exec env) w).any
      (fun s => s.1.handsRow id) = true) : TriesRow env p id w := by
  obtain ⟨s, hs, hrow⟩ := List.any_eq_true.1 h
  obtain ⟨tx, htx, hid⟩ := (Option.any_eq_true ..).1 hrow
  exact ⟨s, hs, tx, htx, by simpa using hid⟩

/-- The indexer's rejection keeps the row scheduled if it asks to wait. For another reason, the row
fails for good. -/
theorem retry_follows_reason_indexer :
    TickFollows (rejectingEnv "Non-Final") .daemon dueRow "Non-Final" (servedWorld dueRow) ∧
      TickFollows (rejectingEnv "dust") .daemon dueRow "dust" (servedWorld dueRow) ∧
      StaysFailed (rejectingEnv "dust") .daemon dueRow (servedWorld dueRow) := by
  have hrow := rowsOf_servedWorld dueRow
  have hlocked : TriesRow (rejectingEnv "Non-Final") .daemon dueRow.id (servedWorld dueRow) :=
    triesRow_of_any (by decide +kernel)
  have hdust : TriesRow (rejectingEnv "dust") .daemon dueRow.id (servedWorld dueRow) :=
    triesRow_of_any (by decide +kernel)
  have hwaits := retry_follows_reason (fun _ => rfl) hrow rfl
    (rejectedFor_rejectingEnv "Non-Final" _) hlocked
  have hfails := retry_follows_reason (fun _ => rfl) hrow rfl
    (rejectedFor_rejectingEnv "dust" _) hdust
  exact ⟨hwaits.1.2 fun h => (by cases h), hfails.1.2 fun h => (by cases h),
    hfails.2 (by decide +kernel) rfl⟩

/-- A served row that is locked until a height that is reached. -/
def heightRow : Row := resealed sampleEnv { dueRow with nlocktime := some 1 }

/-- Core's rejection for the same reason fails the row. A row with a locktime that failed for
another reason is handed over again by the next tick. -/
theorem retry_ignores_reason :
    (TriesRow (rejectingEnv "non-final") .daemon dueRow.id (coreWorld dueRow) ∧
      ¬ TickFollows (rejectingEnv "non-final") .daemon dueRow "non-final" (coreWorld dueRow)) ∧
    (¬ AsksToWait "dust" ∧
      TriesRow (rejectingEnv "dust") .daemon heightRow.id (servedWorld heightRow) ∧
      ¬ StaysFailed (rejectingEnv "dust") .daemon heightRow (servedWorld heightRow)) := by
  have hcore : (rowsOf dueRow.id (afterTicks (rejectingEnv "non-final") .daemon 1
      (coreWorld dueRow)).pool).map (·.status) = ["failed"] := by
    decide +kernel
  have hnext : (rowsOf heightRow.id (afterTicks sampleEnv .daemon 1
      (afterTicks (rejectingEnv "dust") .daemon 1 (servedWorld heightRow))).pool).map
        (·.status) = ["broadcast"] := by
    decide +kernel
  refine ⟨⟨triesRow_of_any (by decide +kernel), ?_⟩, by decide +kernel,
    triesRow_of_any (by decide +kernel), ?_⟩
  · rintro ⟨r', hrows, hstatus⟩
    rw [hrows, List.map_singleton, hstatus] at hcore
    exact absurd hcore (by decide)
  · intro hstays
    obtain ⟨r', hrows, hstatus⟩ := hstays sampleEnv 1
    rw [hrows, List.map_singleton, hstatus] at hnext
    exact absurd hnext (by decide)

end BroadcastPool
