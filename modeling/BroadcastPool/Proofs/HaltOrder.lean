import BroadcastPool.Proofs.Db.Selection
import BroadcastPool.Proofs.SafeMode
import BroadcastPool.Proofs.Serving
import BroadcastPool.Sample

/-!
# `BroadcastPool.Proofs.HaltOrder`: a tampered row and the order of the batch

`get_due_transactions` has no `ORDER BY`, so the batch of `broadcast_due_transactions` can come
in any order. The loop looks at `tampered` row by row: what comes before the tampered row is
handed over, what comes after it is not.

`HaltsInEveryOrder` says of one state and one outside world that nothing is handed over in any
order of the rows. `haltsInEveryOrder_iff` says when that holds: the call does not get to a batch
that it can send (`EndsBefore`), or no row that verifies is due. While the chain stands still this
is exact. One direction follows the program for each of the reasons not to send, the other puts a
row that verifies and is due first.
-/

set_option autoImplicit false

namespace BroadcastPool

open Effects

/-- The world with its rows in another order. -/
def World.inOrder (w : World) (pool : List Row) : World := { w with pool }

/-- One call of `broadcast_due_transactions` hands nothing to a backend. -/
def HandsNothingOver (env : Env) (w : World) : Prop :=
  ∀ e ∈ (broadcastDueTransactions env .daemon).trace (World.exec env) w,
    e.2.handsOver = none

/-- Nothing is handed over in any order of the rows. -/
def HaltsInEveryOrder (env : Env) (w : World) : Prop :=
  ∀ pool, pool.Perm w.pool → HandsNothingOver env (w.inOrder pool)

/-- The rows that `get_due_transactions` selects. -/
def World.dueRows (w : World) : List Row :=
  w.pool.filter (Query.due w.daemon.config.network).selects

/-- The call has no batch that it can send: safe mode is on, no backend is asked, the
configuration or the table cannot be read, or a selected row cannot. -/
def EndsBefore (env : Env) (w : World) : Prop :=
  w.daemon.safeMode = true ∨ (w.daemon.rpc = false ∧ w.daemon.asksIndexer = false) ∨
    env.configPoisoned (w.tick + 1) = true ∨ (env.dbFault (w.tick + 3)).isSome = true ∨
      ∃ r ∈ w.dueRows, ¬ r.Readable

/-- The selected rows that verify, as the call reads them. -/
def World.verified (env : Env) (w : World) : List BroadcastTx :=
  (w.dueRows.filterMap fun r => (mapBroadcastRow env (env.clock (w.tick + 3)) r).toOption).filter
    fun tx => tx.tampered = some false

/-- The contract in which every action has to hand nothing over. -/
abbrev handContract (env : Env) : Contract Act Act.Res World :=
  (World.exec env).contract (fun _ _ => True) fun _ a => a.handsOver = none

section
variable {env : Env} {w : World}

theorem handsNothingOver_of_wp {Q : Except Failure Unit → World → Prop}
    (h : (broadcastDueTransactions env .daemon).wp (handContract env) Q w) :
    HandsNothingOver env w :=
  (Prog.run_trace_of_wp _ _ _ h fun _ _ => trivial).2

/-- A program that cannot go on without a hand-over hands something over. -/
theorem not_handsNothingOver_of_wp
    (h : (broadcastDueTransactions env .daemon).wp
      (servedContract env fun _ a => a.handsOver = none) (fun _ _ => False) w) :
    ¬ HandsNothingOver env w := by
  intro hnone
  exact (Prog.run_trace_of_wp _ _ _ h hnone).1

/-! ### Up to the batch -/

/-- The call reads these transactions. -/
structure Reads (env : Env) (w : World) (txs : List BroadcastTx) : Prop where
  safeMode : w.daemon.safeMode = false
  unpoisoned : env.configPoisoned (w.tick + 1) = false
  served : env.dbFault (w.tick + 3) = none
  rows : w.dueRows.mapM (mapBroadcastRow env (env.clock (w.tick + 3))) = .ok txs

/-- The rest of the call, after the batch was read. -/
def afterRead (env : Env) (now : DateTime) (txs : List BroadcastTx) : M Unit := do
  let due ← dueTxs .daemon now txs
  broadcastDueLoop env .daemon now due

section Head
variable {assumed required : World → Act → Prop} {β : Type}
  (hrequired : ∀ (w : World) (a : Act), a.handsOver = none → required w a)
  {Q : Except Failure β → World → Prop}

include hrequired

/-- An action that hands nothing over, with its known outcome. -/
theorem wp_step_bind {a : Act} (hsend : a.handsOver = none) {r : a.Res} {w' : World}
    (hexec : World.exec env a w = (r, w')) {f : a.Res → M β}
    (hf : (f r).wp ((World.exec env).contract assumed required) Q w') :
    ((perform a).bind f).wp ((World.exec env).contract assumed required) Q w := by
  refine (Prog.wp_bind _ _ _ _).2 (Prog.wp_perform_handler _ _ _ w
    fun _ => ⟨hrequired w a hsend, ?_⟩)
  rw [hexec]
  exact hf

theorem wp_configNetwork_bind (hunpoisoned : env.configPoisoned w.tick = false)
    {f : String → M β}
    (hf : (f w.daemon.config.network).wp ((World.exec env).contract assumed required) Q
      w.ticked) :
    ((configNetwork .daemon).bind f).wp ((World.exec env).contract assumed required) Q w := by
  have hlock : World.exec env (.lockConfig .daemon) w = (.ok w.daemon.config, w.ticked) := by
    simp [World.exec, World.effect, hunpoisoned]
    rfl
  unfold configNetwork orRaise
  rw [Prog.bind_eq, Prog.bind_assoc, Prog.bind_assoc]
  exact wp_step_bind hrequired rfl hlock hf

theorem wp_configNetwork_poisoned (hpoisoned : env.configPoisoned w.tick = true)
    {f : String → M β} (hQ : ∀ e, Q (.error e) w.ticked) :
    ((configNetwork .daemon).bind f).wp ((World.exec env).contract assumed required) Q w := by
  have hlock : World.exec env (.lockConfig .daemon) w =
      (.error "Config lock failed", w.ticked) := by
    simp [World.exec, World.effect, hpoisoned]
  unfold configNetwork orRaise
  rw [Prog.bind_eq, Prog.bind_assoc, Prog.bind_assoc]
  exact wp_step_bind hrequired rfl hlock ((Prog.wp_fail _ _ _).mpr (hQ _))

theorem wp_getDueTransactions_bind {network : String} {r : Except String (List BroadcastTx)}
    (hexec : World.exec env (.select (.due network)) w = (r, w.ticked))
    {f : List BroadcastTx → M β} (hQ : ∀ e, r = .error e → ∀ e', Q (.error e') w.ticked)
    (hf : ∀ txs, r = .ok txs →
      (f txs).wp ((World.exec env).contract assumed required) Q w.ticked) :
    ((getDueTransactions network).bind f).wp ((World.exec env).contract assumed required) Q
      w := by
  unfold getDueTransactions orFail
  rw [Prog.bind_assoc]
  refine wp_step_bind hrequired rfl hexec ?_
  cases r with
  | ok txs => exact hf txs rfl
  | error e => exact (Prog.wp_fail _ _ _).mpr (hQ e rfl _)

/-- A call that reads its batch goes on with it four steps later. -/
theorem wp_of_reads {txs : List BroadcastTx} (h : Reads env w txs)
    {Q : Except Failure Unit → World → Prop}
    (hrest : (afterRead env (env.clock (w.tick + 2)) txs).wp
      ((World.exec env).contract assumed required) Q w.ticked.ticked.ticked.ticked) :
    (broadcastDueTransactions env .daemon).wp ((World.exec env).contract assumed required) Q
      w := by
  have hsafe : World.exec env (.isSafeMode .daemon) w = (false, w.ticked) := by
    simp only [World.exec, World.effect, ← h.safeMode]
    rfl
  have hselect : World.exec env (.select (.due w.daemon.config.network)) w.ticked.ticked.ticked =
      (.ok txs, w.ticked.ticked.ticked.ticked) := exec_select_of_ok h.served h.rows
  refine wp_step_bind hrequired rfl hsafe ?_
  refine wp_configNetwork_bind hrequired h.unpoisoned ?_
  refine wp_step_bind hrequired rfl (r := env.clock (w.tick + 2)) rfl ?_
  exact wp_getDueTransactions_bind hrequired hselect (fun e he => (by cases he))
    fun txs' htxs => Except.ok.inj htxs ▸ hrest

/-- A call that reads no batch ends before it. -/
theorem wp_of_not_reads (h : ∀ txs, ¬ Reads env w txs) :
    (broadcastDueTransactions env .daemon).wp ((World.exec env).contract assumed required)
      (fun _ _ => True) w := by
  cases hsafe : w.daemon.safeMode with
  | true =>
    have hexec : World.exec env (.isSafeMode .daemon) w = (true, w.ticked) := by
      simp only [World.exec, World.effect, ← hsafe]
      rfl
    exact wp_step_bind hrequired rfl hexec ((Prog.wp_ret _ _ _).mpr trivial)
  | false =>
    have hexec : World.exec env (.isSafeMode .daemon) w = (false, w.ticked) := by
      simp only [World.exec, World.effect, ← hsafe]
      rfl
    refine wp_step_bind hrequired rfl hexec ?_
    cases hpoisoned : env.configPoisoned (w.tick + 1) with
    | true => exact wp_configNetwork_poisoned hrequired hpoisoned fun _ => trivial
    | false =>
      refine wp_configNetwork_bind hrequired hpoisoned ?_
      refine wp_step_bind hrequired rfl (r := env.clock (w.tick + 2)) rfl ?_
      rcases hread : World.exec env (.select (.due w.daemon.config.network))
        w.ticked.ticked.ticked with ⟨r, w'⟩
      have hticked : w' = w.ticked.ticked.ticked.ticked := by
        rcases exec_select env w.ticked.ticked.ticked (.due w.daemon.config.network) with
          ⟨e, hexec⟩ | ⟨txs, -, hexec⟩
        · exact congrArg Prod.snd (hread.symm.trans hexec)
        · exact congrArg Prod.snd (hread.symm.trans hexec)
      subst hticked
      refine wp_getDueTransactions_bind hrequired hread (fun _ _ _ => trivial) fun txs htxs => ?_
      obtain ⟨hserved, hrows⟩ := exec_select_ok_iff.1 ((congrArg Prod.fst hread).trans htxs)
      exact absurd ⟨hsafe, hpoisoned, hserved, hrows⟩ (h txs)

end Head

/-! ### No backend -/

/-- What decides whether the daemon has a backend: Core, the indexer, and the chain health. -/
def PoolManager.backends (m : PoolManager) : Bool × Bool × ChainHealth :=
  (m.rpc, m.indexer, m.chainHealth)

/-- The daemon has no Core, and does not ask its indexer. -/
structure Unserved (indexer : Bool) (w : World) : Prop where
  rpc : w.daemon.rpc = false
  indexer : w.daemon.indexer = indexer
  asks : w.daemon.asksIndexer = false

/-- An action that changes no backend and hands nothing over. -/
def Act.isIdle : Act → Bool
  | startProcess .. | writeChainHealth .. => false
  | a => a.handsOver.isNone

/-- Which backends a daemon has does not change while it runs. -/
theorem exec_backends (env : Env) (w : World) {a : Act} (h : a.isIdle = true) :
    (World.exec env a w).2.daemon.backends = w.daemon.backends := by
  show (w.effect env a).2.ticked.daemon.backends = _
  show ((w.effect env a).2.pm .daemon).backends = (w.pm .daemon).backends
  cases a
  case startProcess | writeChainHealth => cases h
  case select | selectLegacy | txHexByTxid | insert | update | delete | reseal | migrate =>
    exact congrArg PoolManager.backends (statement_pm _ .daemon)
  all_goals
    simp only [World.effect]
    repeat' split
    all_goals
      first
        | rfl
        | (apply setPm_field PoolManager.backends; rfl)

variable {indexer : Bool}

theorem Unserved.congr (h : Unserved indexer w) {w' : World}
    (hsame : w'.daemon.backends = w.daemon.backends) : Unserved indexer w' := by
  obtain ⟨hrpc, hrest⟩ := Prod.mk.inj hsame
  obtain ⟨hindexer, hhealth⟩ := Prod.mk.inj hrest
  refine ⟨hrpc.trans h.rpc, hindexer.trans h.indexer, ?_⟩
  have hasks := h.asks
  unfold PoolManager.asksIndexer at hasks ⊢
  rw [hindexer, hhealth]
  exact hasks

theorem handsOver_of_isIdle {a : Act} (h : a.isIdle = true) : a.handsOver = none := by
  cases a <;> first | rfl | cases h

/-- A plain action, and what its answer is. -/
theorem gives_idle {a : Act} {P : a.Res → Prop} (ha : a.isIdle = true)
    (hP : ∀ w, Unserved indexer w → P (World.exec env a w).1) :
    Prog.Gives (handContract env) (Unserved indexer) P (perform a : M a.Res) := by
  intro w hw
  refine Prog.wp_perform_handler _ a _ w fun _ => ⟨handsOver_of_isIdle ha, ?_, fun r hr => ?_⟩
  · exact hw.congr (exec_backends env w ha)
  · cases hr
    exact hP w hw

/-- A program of plain actions. -/
theorem keeps_idle {α : Type} {prog : M α} (h : prog.Uses fun a => a.isIdle = true) :
    prog.Keeps (handContract env) (Unserved indexer) := by
  refine Prog.keeps_of_uses (fun a ha w hw _ => ⟨handsOver_of_isIdle ha, fun r w' hstep => ?_⟩) h
  have hsame := exec_backends env w ha
  rw [show World.exec env a w = (r, w') from hstep] at hsame
  exact hw.congr hsame

theorem gives_unserved_chainHealth :
    Prog.Gives (handContract env) (Unserved indexer)
      (fun h : ChainHealth => (indexer && h.shouldTryIndexer) = false)
      (perform (.chainHealth .daemon) : M ChainHealth) := by
  refine gives_idle rfl fun w hw => ?_
  have hasks : (w.daemon.indexer && w.daemon.chainHealth.shouldTryIndexer) = false := hw.asks
  rw [hw.indexer] at hasks
  exact hasks

theorem gives_unserved_hasIndexer :
    Prog.Gives (handContract env) (Unserved indexer) (fun up : Bool => up = indexer)
      (perform (.hasIndexer .daemon) : M Bool) :=
  gives_idle rfl fun _ hw => hw.indexer

theorem gives_unserved_hasRpc :
    Prog.Gives (handContract env) (Unserved indexer) (fun up : Bool => up = false)
      (perform (.hasRpc .daemon) : M Bool) :=
  gives_idle rfl fun _ hw => hw.rpc

/-- What is done only if the indexer is asked is not done. -/
theorem keeps_unasked {α : Type} {asked idle idle' : M α}
    (hidle : idle.Keeps (handContract env) (Unserved indexer))
    (hidle' : idle'.Keeps (handContract env) (Unserved indexer)) :
    (do
      let health ← perform (.chainHealth .daemon)
      if health.shouldTryIndexer then
        if ← perform (.hasIndexer .daemon) then asked else idle
      else idle' : M α).Keeps (handContract env) (Unserved indexer) := by
  refine gives_unserved_chainHealth.keeps_bind fun health hskip => ?_
  show Prog.Keeps _ _ (if _ then _ else _)
  split
  · rename_i htry
    refine gives_unserved_hasIndexer.keeps_bind fun up hup => ?_
    show Prog.Keeps _ _ (if _ then _ else _)
    split
    · rename_i hasks
      rw [← hup, hasks, htry] at hskip
      cases hskip
    · exact hidle
  · exact hidle'

theorem keeps_unserved_checkBlockHeight :
    (checkBlockHeight .daemon).Keeps (handContract env) (Unserved indexer) := by
  refine Prog.keeps_bind (keeps_unasked (Prog.keeps_ret _) (Prog.keeps_ret _)) fun o => ?_
  cases o with
  | some height => exact Prog.keeps_ret _
  | none =>
    refine gives_unserved_hasRpc.keeps_bind fun up hup => ?_
    rw [hup]
    exact Prog.keeps_ret _

theorem keeps_unserved_getMedianTimePastCached :
    (getMedianTimePastCached .daemon).Keeps (handContract env) (Unserved indexer) := by
  have hmedian : (getMedianTimePast .daemon).Keeps (handContract env) (Unserved indexer) := by
    refine Prog.keeps_bind ?_ fun o => ?_
    · refine gives_unserved_hasRpc.keeps_bind fun up hup => ?_
      rw [hup]
      exact Prog.keeps_ret _
    · cases o with
      | some mtp => exact Prog.keeps_ret _
      | none => exact keeps_unasked (Prog.keeps_fail _) (Prog.keeps_fail _)
  have hrefresh : (refreshMtpCache .daemon).Keeps (handContract env) (Unserved indexer) := by
    refine Prog.keeps_bind hmedian fun mtp => ?_
    refine Prog.keeps_bind (keeps_idle (uses_act rfl)) fun fetchedAt => ?_
    exact Prog.keeps_bind (keeps_idle (uses_act rfl)) fun _ => Prog.keeps_ret _
  refine Prog.keeps_bind (keeps_idle (uses_act rfl)) fun c => ?_
  cases c with
  | none => exact hrefresh
  | some entry =>
    refine Prog.keeps_bind (keeps_idle (uses_act rfl)) fun t => ?_
    show Prog.Keeps _ _ (if _ then _ else _)
    split
    · exact Prog.keeps_ret _
    · exact hrefresh

theorem keeps_unserved_isLocktimeSatisfied (nlocktime : Option Nat) :
    (isLocktimeSatisfied .daemon nlocktime).Keeps (handContract env) (Unserved indexer) := by
  cases nlocktime with
  | none => exact Prog.keeps_ret _
  | some n =>
    by_cases hzero : n = 0
    · rw [hzero]
      exact Prog.keeps_ret _
    · by_cases htime : 500000000 < n
      · rw [isLocktimeSatisfied_time htime]
        exact Prog.keeps_bind keeps_unserved_getMedianTimePastCached fun _ => Prog.keeps_ret _
      · rw [isLocktimeSatisfied_height htime hzero]
        exact Prog.keeps_bind keeps_unserved_checkBlockHeight fun _ => Prog.keeps_ret _

theorem keeps_unserved_dueTxs (now : DateTime) (txs : List BroadcastTx) :
    (dueTxs .daemon now txs).Keeps (handContract env) (Unserved indexer) := by
  induction txs with
  | nil => exact Prog.keeps_ret _
  | cons tx txs ih =>
    refine Prog.keeps_bind (keeps_catchErr ?_) fun o => Prog.keeps_bind ih fun _ => Prog.keeps_ret _
    unfold isTxDueForBroadcast
    split
    · exact Prog.keeps_ret _
    · refine Prog.keeps_bind (keeps_unserved_isLocktimeSatisfied tx.nlocktime) fun ok => ?_
      split
      all_goals
        split
        all_goals exact Prog.keeps_ret _

/-- Without a backend a transaction is not handed over, and no txid comes back. -/
theorem gives_unserved_broadcastTransaction (tx : BroadcastTx) :
    Prog.Gives (handContract env) (Unserved indexer) (fun _ => False)
      (broadcastTransaction .daemon tx) := by
  have hverdict : Prog.Gives (handContract env) (Unserved indexer) (fun v => v = none)
      (indexerVerdict .daemon tx) := by
    refine Prog.gives_bind gives_unserved_chainHealth fun health hskip => ?_
    show Prog.Gives _ _ _ (if _ then _ else _)
    split
    · rename_i htry
      refine Prog.gives_bind gives_unserved_hasIndexer fun up hup => ?_
      show Prog.Gives _ _ _ (if _ then _ else _)
      split
      · rename_i hasks
        rw [← hup, hasks, htry] at hskip
        cases hskip
      · exact Prog.gives_ret rfl
    · exact Prog.gives_ret rfl
  refine Prog.gives_bind hverdict fun verdict hnone => ?_
  rw [hnone]
  refine Prog.gives_bind gives_unserved_hasRpc fun up hup => ?_
  rw [hup]
  exact Prog.gives_fail _

/-- An `UPDATE` of one row with its reseal. -/
theorem keeps_unserved_clocked (context : String) (u : String → Update) :
    (do
      let now ← nowText env
      updateAndReseal context (u now) : M Unit).Keeps (handContract env) (Unserved indexer) := by
  refine keeps_idle (Prog.uses_bind (Prog.uses_bind (uses_act rfl) fun _ => Prog.uses_ret _)
    fun now => ?_)
  refine Prog.uses_bind (uses_orFail _ (uses_act rfl)) fun _ => ?_
  exact uses_orFail _ (uses_act rfl)

theorem keeps_unserved_broadcastDueTx (tx : BroadcastTx) :
    (broadcastDueTx env .daemon tx).Keeps (handContract env) (Unserved indexer) := by
  have hcaught : Prog.Gives (handContract env) (Unserved indexer)
      (fun o : Except String String => ∃ e, o = .error e)
      (catchErr (broadcastTransaction .daemon tx)) := by
    refine Prog.gives_bind (P := fun o : Except Failure String => ∃ e, o = .error e) ?_ ?_
    · intro w hw
      refine (Prog.wp_attempt _ _ _).2 (Prog.wp_mono ?_ _ w
        (gives_unserved_broadcastTransaction tx w hw))
      rintro o w' ⟨hw', hnone⟩
      refine ⟨hw', fun o' ho' => ?_⟩
      cases ho'
      cases o with
      | error e => exact ⟨e, rfl⟩
      | ok txid => exact absurd rfl (fun h => hnone txid h)
    · rintro o ⟨e, rfl⟩
      cases e with
      | error e => exact Prog.gives_ret ⟨e, rfl⟩
      | panic e => exact Prog.gives_fail _
  refine hcaught.keeps_bind ?_
  rintro o ⟨e, rfl⟩
  show Prog.Keeps _ _ (if _ then _ else _)
  split
  · exact Prog.keeps_ret _
  · exact keeps_unserved_clocked _ _

theorem keeps_unserved_broadcastDueLoop (now : DateTime) (txs : List BroadcastTx) :
    (broadcastDueLoop env .daemon now txs).Keeps (handContract env) (Unserved indexer) := by
  induction txs with
  | nil => exact Prog.keeps_ret _
  | cons tx txs ih =>
    refine Prog.keeps_bind (keeps_idle (uses_act rfl)) fun halted => ?_
    show Prog.Keeps _ _ (if _ then _ else if _ then _ else _)
    split
    · exact Prog.keeps_ret _
    · split
      · exact keeps_idle (uses_act rfl)
      · refine Prog.keeps_bind (Prog.keeps_bind ?_ fun ok => ?_) fun _ => ih
        · refine Prog.keeps_bind
            (keeps_catchErr (keeps_unserved_isLocktimeSatisfied tx.nlocktime)) fun o => ?_
          cases o with
          | ok ok => exact Prog.keeps_ret _
          | error e => exact Prog.keeps_fail _
        · show Prog.Keeps _ _ (if _ then _ else _)
          split
          · exact keeps_unserved_broadcastDueTx tx
          · unfold recordMiss
            split
            · have hrecord : ∀ id missedAt original, (recordBroadcastMiss env id missedAt
                  original).Keeps (handContract env) (Unserved indexer) := fun _ _ _ =>
                keeps_idle (Prog.uses_bind (Prog.uses_bind (uses_act rfl) fun _ =>
                  Prog.uses_ret _) fun _ => Prog.uses_bind (uses_orFail _ (uses_act rfl)) fun _ =>
                    Prog.uses_ret _)
              refine Prog.keeps_bind (keeps_logErrorIf _ (hrecord _ _ _)) fun _ => ?_
              exact keeps_logErrorIf _ keeps_unserved_getMedianTimePastCached
            · exact Prog.keeps_ret _

/-- Without a backend nothing is handed over. -/
theorem handsNothingOver_of_unserved (hrpc : w.daemon.rpc = false)
    (hasks : w.daemon.asksIndexer = false) : HandsNothingOver env w := by
  by_cases hreads : ∃ txs, Reads env w txs
  · obtain ⟨txs, h⟩ := hreads
    have hunserved : Unserved w.daemon.indexer w.ticked.ticked.ticked.ticked := ⟨hrpc, rfl, hasks⟩
    have hrest : (afterRead env (env.clock (w.tick + 2)) txs).Keeps (handContract env)
        (Unserved w.daemon.indexer) :=
      Prog.keeps_bind (keeps_unserved_dueTxs _ _) fun _ => keeps_unserved_broadcastDueLoop _ _
    exact handsNothingOver_of_wp (wp_of_reads (fun _ _ h => h) h (hrest _ hunserved))
  · exact handsNothingOver_of_wp (wp_of_not_reads (fun _ _ h => h) fun txs h => hreads ⟨txs, h⟩)

/-! ### A batch with nothing to send -/

/-- A program in which every action of the run hands nothing over. -/
theorem wp_hand_of_trace {α : Type} {prog : M α} {w : World}
    (h : ∀ e ∈ prog.trace (World.exec env) w, e.2.handsOver = none) :
    prog.wp (handContract env) (fun o w' => (o, w') = prog.run (World.exec env) w) w :=
  Prog.wp_of_trace (World.exec env) prog w h

theorem keeps_hand {α : Type} {prog : M α} (h : IsClock prog) :
    prog.Keeps (handContract env) fun _ => True :=
  Prog.keeps_of_uses (fun a ha _ _ _ =>
    ⟨(by cases a <;> first | rfl | cases ha), fun _ _ _ => trivial⟩) h

/-- A loop over tampered rows hands nothing over. -/
theorem wp_loop_of_tampered (now : DateTime) {txs : List BroadcastTx}
    (h : ∀ tx ∈ txs, tx.tampered = some true) :
    (broadcastDueLoop env .daemon now txs).wp (handContract env) (fun _ _ => True) w := by
  cases txs with
  | nil => exact (Prog.wp_ret _ _ _).mpr trivial
  | cons tx txs =>
    refine (Prog.wp_bind _ _ _ _).2 (Prog.wp_perform_handler _ _ _ w fun _ => ⟨rfl, ?_⟩)
    show Prog.wp _ (if _ then _ else if _ then _ else _) _ _
    rw [if_pos (h tx (List.mem_cons_self ..))]
    split
    · exact (Prog.wp_ret _ _ _).mpr trivial
    · exact Prog.wp_perform_handler _ _ _ _ fun _ => ⟨rfl, trivial⟩

/-- A transaction is one of these if a selected row is read as it and verifies. -/
theorem mem_verified {tx : BroadcastTx} :
    tx ∈ w.verified env ↔ ∃ r ∈ w.dueRows,
      mapBroadcastRow env (env.clock (w.tick + 3)) r = .ok tx ∧ tx.tampered = some false := by
  have hok : ∀ x : Except String BroadcastTx, x.toOption = some tx ↔ x = .ok tx := by
    rintro (e | a) <;> simp [Except.toOption]
  simp only [World.verified, List.mem_filter, List.mem_filterMap, hok, decide_eq_true_eq]
  constructor
  · rintro ⟨⟨r, hr, hmap⟩, hclean⟩
    exact ⟨r, hr, hmap, hclean⟩
  · rintro ⟨r, hr, hmap, hclean⟩
    exact ⟨⟨r, hr, hmap⟩, hclean⟩

/-- What the batch reads is scheduled, and it is tampered or one of those that verify. -/
theorem Reads.row {txs : List BroadcastTx} (h : Reads env w txs) {tx : BroadcastTx}
    (htx : tx ∈ txs) :
    tx.status = .scheduled ∧ (tx.tampered = some true ∨ tx ∈ w.verified env) := by
  obtain ⟨r, hr, hmap⟩ := mem_of_mapM_eq_ok h.rows tx htx
  have hreads := mapBroadcastRow_spec hmap
  obtain ⟨-, hsel⟩ := List.mem_filter.1 hr
  simp only [Query.selects, Bool.and_eq_true, decide_eq_true_eq] at hsel
  refine ⟨?_, ?_⟩
  · rw [hreads.status, hsel.1]
    rfl
  · rcases hreads.tampered with ⟨hclean, -⟩ | ⟨htampered, -⟩
    · exact Or.inr (mem_verified.2 ⟨r, hr, hmap, hclean⟩)
    · exact Or.inl htampered

/-- Nothing is due whose release time has not come, whatever the chain is. -/
theorem gives_dueTxs_released (now : DateTime) (txs : List BroadcastTx) :
    Prog.Gives (handContract env) (fun _ => True)
      (fun due => ∀ tx ∈ due, tx ∈ txs ∧ ReleaseReached tx now) (dueTxs .daemon now txs) := by
  -- By the list: what is due of it is due of its rest, and the first one only if its own time has
  -- come.
  induction txs with
  | nil => exact Prog.gives_ret (by simp)
  | cons tx txs ih =>
    have hdue : Prog.Gives (handContract env) (fun _ => True)
        (fun b : Bool => b = true → ReleaseReached tx now)
        (isTxDueForBroadcast .daemon tx now) := by
      unfold isTxDueForBroadcast
      split
      · exact Prog.gives_ret fun h => by cases h
      · refine Prog.gives_bind (keeps_hand (clock_isLocktimeSatisfied .daemon _)).gives
          fun ok _ => ?_
        unfold ReleaseReached
        cases tx.deferUntil with
        | some deferUntil =>
          by_cases hearly : now < deferUntil
          · show Prog.Gives _ _ _ (if _ then _ else _)
            rw [if_pos hearly]
            exact Prog.gives_ret fun h => by cases h
          · show Prog.Gives _ _ _ (if _ then _ else _)
            rw [if_neg hearly]
            exact Prog.gives_ret fun _ => not_lt.1 hearly
        | none =>
          by_cases hreached : tx.scheduledTime.any (· ≤ now) = true
          · show Prog.Gives _ _ _ (if _ then _ else _)
            rw [if_pos hreached]
            obtain ⟨hsome, hle⟩ := (Option.any_eq_true_iff_get _ _).1 hreached
            exact Prog.gives_ret fun _ =>
              ⟨_, (Option.some_get hsome).symm, of_decide_eq_true hle⟩
          · show Prog.Gives _ _ _ (if _ then _ else _)
            rw [if_neg hreached]
            exact Prog.gives_ret fun h => by cases h
    -- An error of the check is logged and counts as not due.
    have hcaught : Prog.Gives (handContract env) (fun _ => True)
        (fun o : Except String Bool => o = .ok true → ReleaseReached tx now)
        (catchErr (isTxDueForBroadcast .daemon tx now)) := by
      refine Prog.gives_bind
        (P := fun o : Except Failure Bool => o = .ok true → ReleaseReached tx now) ?_ ?_
      · intro w hw
        refine (Prog.wp_attempt _ _ _).2 (Prog.wp_mono ?_ _ w (hdue w hw))
        rintro o w' ⟨-, ho⟩
        refine ⟨trivial, fun o' ho' htrue => ?_⟩
        cases ho'
        exact ho true htrue rfl
      · rintro ((e | e) | b) hb
        · exact Prog.gives_ret fun h => by cases h
        · exact Prog.gives_fail _
        · exact Prog.gives_ret fun h => hb (congrArg Except.ok (Except.ok.inj h))
    refine Prog.gives_bind hcaught fun o ho => ?_
    refine Prog.gives_bind ih fun rest hrest => Prog.gives_ret fun t ht => ?_
    split at ht
    · rename_i hok
      rcases List.mem_cons.1 ht with rfl | ht
      · exact ⟨List.mem_cons_self .., ho hok⟩
      · exact ⟨List.mem_cons_of_mem _ (hrest t ht).1, (hrest t ht).2⟩
    · exact ⟨List.mem_cons_of_mem _ (hrest t ht).1, (hrest t ht).2⟩

/-- Nothing is handed over if no row that verifies has a release time that has come. -/
theorem handsNothingOver_of_unreleased
    (h : ∀ tx ∈ w.verified env, ¬ ReleaseReached tx (env.clock (w.tick + 2))) :
    HandsNothingOver env w := by
  by_cases hreads : ∃ txs, Reads env w txs
  · obtain ⟨txs, hreads⟩ := hreads
    refine handsNothingOver_of_wp (wp_of_reads (Q := fun _ _ => True) (fun _ _ h => h) hreads ?_)
    refine (Prog.wp_bind _ _ _ _).2 (Prog.wp_mono ?_ _ _
      (gives_dueTxs_released (env.clock (w.tick + 2)) txs _ trivial))
    rintro (e | due) w' ⟨-, hdue⟩
    · trivial
    · refine wp_loop_of_tampered _ fun tx htx => ?_
      obtain ⟨hmem, hreached⟩ := hdue due rfl tx htx
      exact (hreads.row hmem).2.resolve_right fun hverified => h tx hverified hreached
  · exact handsNothingOver_of_wp (wp_of_not_reads (fun _ _ h => h) fun txs h => hreads ⟨txs, h⟩)

/-! ### While the chain stands still -/

section Still
variable {pool : List Row} {network : String} {rpc indexer asked : Bool} {height mtp : Nat}
  {now : DateTime} (hstill : env.StandsStill rpc asked height mtp)
  (hup : rpc = true ∨ asked = true)

include hstill hup

/-- The batch keeps the transactions that are due. The first one stays first if it is. -/
theorem returns_dueTxs {assumed : World → Act → Prop} (txs : List BroadcastTx) :
    Prog.Returns (servedContract env assumed)
      (Steady env pool network rpc indexer asked mtp)
      (fun due => (∀ tx ∈ txs, tx.status = .scheduled) →
        (∀ tx ∈ due, tx ∈ txs ∧ tx.DueAt now height mtp) ∧
          ∀ tx rest, txs = tx :: rest → tx.DueAt now height mtp → ∃ rest', due = tx :: rest')
      (dueTxs .daemon now txs) := by
  induction txs with
  | nil => exact Prog.returns_ret fun _ => ⟨by simp, fun tx rest h => by cases h⟩
  | cons tx txs ih =>
    refine Prog.returns_bind (returns_catchErr (returns_isTxDueForBroadcast hstill hup tx))
      fun o ho => ?_
    obtain ⟨due, rfl, hdue⟩ := ho
    refine Prog.returns_bind ih fun rest hrest => Prog.returns_ret fun hscheduled => ?_
    have hdue := hdue (hscheduled tx (List.mem_cons_self ..))
    have hrest := (hrest fun t ht => hscheduled t (List.mem_cons_of_mem _ ht)).1
    have hlater : ∀ t ∈ rest, t ∈ tx :: txs ∧ t.DueAt now height mtp := fun t ht =>
      ⟨List.mem_cons_of_mem _ (hrest t ht).1, (hrest t ht).2⟩
    split
    · rename_i hok
      have hfirst : tx.DueAt now height mtp := hdue.1 (Except.ok.inj hok)
      refine ⟨fun t ht => ?_, fun tx' rest' heq _ => ?_⟩
      · rcases List.mem_cons.1 ht with rfl | ht
        · exact ⟨List.mem_cons_self .., hfirst⟩
        · exact hlater t ht
      · obtain ⟨rfl, -⟩ := List.cons.inj heq
        exact ⟨rest, rfl⟩
    · rename_i hnot
      refine ⟨hlater, fun tx' rest' heq hfirst => ?_⟩
      obtain ⟨rfl, -⟩ := List.cons.inj heq
      exact absurd (congrArg Except.ok (hdue.2 hfirst)) hnot

/-- A loop that starts with a transaction that verifies and is due hands something over. -/
theorem wp_broadcastDueLoop {tx : BroadcastTx} {txs : List BroadcastTx}
    (hclean : tx.tampered = some false)
    (hopen : gateOpen (tx.nlocktime.getD 0) height mtp = true)
    (hw : Steady env pool network rpc indexer asked mtp w) :
    (broadcastDueLoop env .daemon now (tx :: txs)).wp
      (servedContract env fun _ a => a.handsOver = none) (fun _ _ => False) w := by
  have hsafe : Prog.Returns (servedContract env fun _ a => a.handsOver = none)
      (Steady env pool network rpc indexer asked mtp) (fun halted : Bool => halted = false)
      (perform (.isSafeMode .daemon) : M Bool) :=
    returns_read (fun _ => rfl) fun _ hw => hw.safeMode
  have hfinal : Prog.Returns (servedContract env fun _ a => a.handsOver = none)
      (Steady env pool network rpc indexer asked mtp) (fun ok => ok = true)
      (locktimeOrRefuse .daemon tx.nlocktime) := by
    refine Prog.returns_bind
      (returns_catchErr (returns_isLocktimeSatisfied hstill hup tx.nlocktime)) fun o ho => ?_
    obtain ⟨ok, rfl, hok⟩ := ho
    exact Prog.returns_ret (hok.trans hopen)
  refine hsafe.wp_bind (fun halted hhalted w hw => ?_) hw
  show Prog.wp _ (if _ then _ else if _ then _ else _) _ _
  rw [hhalted, if_neg Bool.false_ne_true, if_neg (by rw [hclean]; simp)]
  refine (Prog.wp_bind _ _ _ _).2 ?_
  refine hfinal.wp_bind (fun ok hok w hw => ?_) hw
  show Prog.wp _ (if _ then _ else _) _ _
  rw [if_pos hok]
  refine (Prog.wp_bind _ _ _ _).2 ?_
  refine (Prog.wp_bind _ _ _ _).2 ((Prog.wp_attempt _ _ _).2 ?_)
  exact wp_broadcastTransaction hup tx hw

end Still

variable {height mtp : Nat}

/-- The state when the batch was read. -/
theorem Reads.steady {txs : List BroadcastTx} (h : Reads env w txs)
    (hcache : CacheHolds env mtp w.daemon.mtpCache) :
    Steady env w.pool w.daemon.config.network w.daemon.rpc w.daemon.indexer
      w.daemon.asksIndexer mtp w.ticked.ticked.ticked.ticked :=
  ⟨⟨rfl, rfl⟩, h.safeMode, rfl, rfl, rfl, hcache⟩

/-- Nothing is handed over if no row that verifies is due. -/
theorem handsNothingOver_of_none_due
    (hstill : env.StandsStill w.daemon.rpc w.daemon.asksIndexer height mtp)
    (hup : w.daemon.rpc = true ∨ w.daemon.asksIndexer = true)
    (hcache : CacheHolds env mtp w.daemon.mtpCache)
    (h : ∀ tx ∈ w.verified env, ¬ tx.DueAt (env.clock (w.tick + 2)) height mtp) :
    HandsNothingOver env w := by
  by_cases hreads : ∃ txs, Reads env w txs
  · obtain ⟨txs, hreads⟩ := hreads
    have hreturns : Prog.Returns (servedContract env fun _ _ => True)
        (Steady env w.pool w.daemon.config.network w.daemon.rpc w.daemon.indexer
          w.daemon.asksIndexer mtp) _ (dueTxs .daemon (env.clock (w.tick + 2)) txs) :=
      returns_dueTxs hstill hup txs
    obtain ⟨-, due, hrun, hdue⟩ := (Prog.run_trace_of_wp (World.exec env) _ _
      (hreturns _ (hreads.steady hcache)) fun _ _ => trivial).1
    have hquiet : ∀ e ∈ (dueTxs .daemon (env.clock (w.tick + 2)) txs).trace (World.exec env)
        w.ticked.ticked.ticked.ticked, e.2.handsOver = none := by
      intro e he
      have hclock := Prog.trace_of_uses (World.exec env) (clock_dueTxs .daemon _ txs) _ e he
      cases hact : e.2 <;> first | rfl | (rw [hact] at hclock; cases hclock)
    refine handsNothingOver_of_wp (wp_of_reads (Q := fun _ _ => True) (fun _ _ h => h) hreads ?_)
    refine (Prog.wp_bind _ _ _ _).2 (Prog.wp_mono ?_ _ _ (wp_hand_of_trace hquiet))
    intro o w' hend
    have ho : o = .ok due := (congrArg Prod.fst hend).trans hrun
    rw [ho]
    refine wp_loop_of_tampered _ fun tx htx => ?_
    obtain ⟨hmem, hdueAt⟩ := (hdue fun tx htx => (hreads.row htx).1).1 tx htx
    exact (hreads.row hmem).2.resolve_right fun hverified => h tx hverified hdueAt
  · exact handsNothingOver_of_wp (wp_of_not_reads (fun _ _ h => h) fun txs h => hreads ⟨txs, h⟩)

/-- The batch is sent when it starts with a transaction that verifies and is due. -/
theorem not_handsNothingOver_of_first {tx : BroadcastTx} {rest : List BroadcastTx}
    (hstill : env.StandsStill w.daemon.rpc w.daemon.asksIndexer height mtp)
    (hup : w.daemon.rpc = true ∨ w.daemon.asksIndexer = true)
    (hcache : CacheHolds env mtp w.daemon.mtpCache) (hreads : Reads env w (tx :: rest))
    (hclean : tx.tampered = some false) (hdue : tx.DueAt (env.clock (w.tick + 2)) height mtp) :
    ¬ HandsNothingOver env w := by
  refine not_handsNothingOver_of_wp (wp_of_reads (fun _ _ _ => trivial) hreads ?_)
  refine (returns_dueTxs hstill hup (tx :: rest)).wp_bind (fun due hfirst w' hw => ?_)
    (hreads.steady hcache)
  obtain ⟨rest', rfl⟩ :=
    (hfirst fun tx htx => (hreads.row htx).1).2 tx rest rfl hdue
  exact wp_broadcastDueLoop hstill hup hclean hdue.2 hw

/-! ### Every order -/

/-- The selected rows are the same in every order. -/
theorem mem_dueRows_inOrder {pool : List Row} (hperm : pool.Perm w.pool) {r : Row} :
    r ∈ (w.inOrder pool).dueRows ↔ r ∈ w.dueRows :=
  (hperm.filter _).mem_iff

theorem mem_verified_inOrder {pool : List Row} (hperm : pool.Perm w.pool) {tx : BroadcastTx} :
    tx ∈ (w.inOrder pool).verified env ↔ tx ∈ w.verified env := by
  simp only [mem_verified, mem_dueRows_inOrder hperm]
  rfl

/-- A call without a batch that it can send hands nothing over in any order. -/
theorem haltsInEveryOrder_of_endsBefore (h : EndsBefore env w) : HaltsInEveryOrder env w := by
  intro pool hperm
  by_cases hreads : ∃ txs, Reads env (w.inOrder pool) txs
  · obtain ⟨txs, hreads⟩ := hreads
    rcases h with hsafe | ⟨hrpc, hasks⟩ | hpoisoned | hfault | ⟨r, hr, hunreadable⟩
    · exact absurd (hsafe.symm.trans hreads.safeMode) (by simp)
    · exact handsNothingOver_of_unserved hrpc hasks
    · exact absurd (hpoisoned.symm.trans hreads.unpoisoned) (by simp)
    · have hnone : env.dbFault (w.tick + 3) = none := hreads.served
      rw [hnone] at hfault
      cases hfault
    · obtain ⟨tx, -, htx⟩ :=
        exists_mem_of_mapM_eq_ok hreads.rows r ((mem_dueRows_inOrder hperm).2 hr)
      exact absurd ((readable_iff _).2 ⟨tx, htx⟩) hunreadable
  · exact handsNothingOver_of_wp (wp_of_not_reads (fun _ _ h => h) fun txs h => hreads ⟨txs, h⟩)

/-- Some order hands a row over that verifies and is due. -/
theorem not_haltsInEveryOrder
    (hstill : env.StandsStill w.daemon.rpc w.daemon.asksIndexer height mtp)
    (hcache : CacheHolds env mtp w.daemon.mtpCache) (hstarts : ¬ EndsBefore env w)
    {tx : BroadcastTx} (hverified : tx ∈ w.verified env)
    (hdue : tx.DueAt (env.clock (w.tick + 2)) height mtp) : ¬ HaltsInEveryOrder env w := by
  intro hhalts
  obtain ⟨r, hr, htx, hclean⟩ := mem_verified.1 hverified
  obtain ⟨hmem, hsel⟩ := List.mem_filter.1 hr
  unfold EndsBefore at hstarts
  simp only [not_or, not_exists, not_and, not_not] at hstarts
  obtain ⟨hsafe, hbackend, hpoisoned, hfault, hreadable⟩ := hstarts
  have hup : w.daemon.rpc = true ∨ w.daemon.asksIndexer = true := by
    cases hrpc : w.daemon.rpc with
    | true => exact Or.inl rfl
    | false => exact Or.inr (Bool.eq_true_of_not_eq_false (hbackend hrpc))
  have hperm : (r :: w.pool.erase r).Perm w.pool := (List.perm_cons_erase hmem).symm
  -- The row comes first, and so does its transaction.
  obtain ⟨txs, hrows⟩ : ∃ txs, (w.inOrder (r :: w.pool.erase r)).dueRows.mapM
      (mapBroadcastRow env (env.clock (w.tick + 3))) = .ok txs :=
    exists_mapM_of_readable _ fun r' hr' => hreadable r' ((mem_dueRows_inOrder hperm).1 hr')
  obtain ⟨rest, rfl⟩ : ∃ rest, txs = tx :: rest := by
    have hcons : (w.inOrder (r :: w.pool.erase r)).dueRows =
        r :: (w.pool.erase r).filter (Query.due w.daemon.config.network).selects :=
      List.filter_cons_of_pos hsel
    rw [hcons, List.mapM_cons, except_bind_eq_ok] at hrows
    obtain ⟨tx', htx', hrows⟩ := hrows
    obtain ⟨rest, -, hcons⟩ := (except_bind_eq_ok _ _ _).1 hrows
    rw [htx] at htx'
    cases htx'
    cases hcons
    exact ⟨rest, rfl⟩
  refine not_handsNothingOver_of_first (w := w.inOrder (r :: w.pool.erase r)) hstill hup hcache
    ⟨Bool.eq_false_iff.2 hsafe, Bool.eq_false_iff.2 hpoisoned, ?_, hrows⟩ hclean hdue
    (hhalts _ hperm)
  have hserved : env.dbFault (w.tick + 3) = none := by simpa using hfault
  exact hserved

end

/-- Nothing is handed over in any order if the call has no batch that it can send, or if no row
that verifies has a release time that has come. While the chain stands still, nothing is handed
over in any order exactly if the call has no such batch or no row that verifies is due. -/
theorem haltsInEveryOrder_iff (env : Env) (w : World) :
    (EndsBefore env w ∨
        (∀ tx ∈ w.verified env, ¬ ReleaseReached tx (env.clock (w.tick + 2))) →
      HaltsInEveryOrder env w) ∧
    ∀ height mtp, env.StandsStill w.daemon.rpc w.daemon.asksIndexer height mtp →
      CacheHolds env mtp w.daemon.mtpCache →
        (HaltsInEveryOrder env w ↔ EndsBefore env w ∨
          ∀ tx ∈ w.verified env, ¬ tx.DueAt (env.clock (w.tick + 2)) height mtp) := by
  refine ⟨?_, fun height mtp hstill hcache => ⟨fun h => ?_, ?_⟩⟩
  · rintro (hends | hunreleased)
    · exact haltsInEveryOrder_of_endsBefore hends
    · exact fun pool hperm => handsNothingOver_of_unreleased fun tx htx =>
        hunreleased tx ((mem_verified_inOrder hperm).1 htx)
  · by_cases hends : EndsBefore env w
    · exact Or.inl hends
    · exact Or.inr fun tx htx hdue => not_haltsInEveryOrder hstill hcache hends htx hdue h
  · rintro (hends | hnone)
    · exact haltsInEveryOrder_of_endsBefore hends
    · by_cases hserved : w.daemon.rpc = false ∧ w.daemon.asksIndexer = false
      · exact haltsInEveryOrder_of_endsBefore (Or.inr (Or.inl hserved))
      · refine fun pool hperm => handsNothingOver_of_none_due (w := w.inOrder pool) hstill ?_ hcache
          fun tx htx => hnone tx ((mem_verified_inOrder hperm).1 htx)
        cases hrpc : w.daemon.rpc with
        | true => exact Or.inl hrpc
        | false =>
          exact Or.inr (Bool.eq_true_of_not_eq_false fun hasks => hserved ⟨hrpc, hasks⟩)

/-! ### Two orders of one batch -/

/-- A daemon with a backend and a batch of these rows. -/
def batchWorld (rows : List Row) : World := { servedWorld dueRow with pool := rows }

/-- A due row whose hex was changed. -/
def forgedRow : Row := { dueRow with id := "id1", txHex := "08" }

/-- With the tampered row first nothing is sent, with the tampered row last the other row is. -/
theorem halt_depends_on_order :
    ¬ forgedRow.MacMatches sampleEnv ∧ [forgedRow, dueRow].Perm [dueRow, forgedRow] ∧
      HandsNothingOver sampleEnv (batchWorld [forgedRow, dueRow]) ∧
      ¬ HandsNothingOver sampleEnv (batchWorld [dueRow, forgedRow]) := by
  refine ⟨?_, List.Perm.swap .., ?_, ?_⟩
  · rw [macMatches_iff (n := 0) rfl]
    decide
  · unfold HandsNothingOver
    decide
  · unfold HandsNothingOver
    decide

/-- A row that verifies, scheduled for a time that has not come. -/
def laterRow : Row :=
  resealed sampleEnv { dueRow with id := "id2", scheduledTime := some "1000" }

/-- A batch of which the row that verifies is not due yet, and one of which it is. -/
theorem haltsInEveryOrder_iff_batches :
    HaltsInEveryOrder sampleEnv (batchWorld [laterRow, forgedRow]) ∧
      ¬ HaltsInEveryOrder sampleEnv (batchWorld [forgedRow, dueRow]) := by
  have hstill : ∀ asked, sampleEnv.StandsStill false asked 100 1700000000 := fun _ =>
    ⟨fun _ _ => rfl, fun _ _ _ => rfl, fun _ _ => rfl, fun _ _ _ => rfl⟩
  have hcache : ∀ rows, CacheHolds sampleEnv 1700000000 (batchWorld rows).daemon.mtpCache :=
    fun rows f m h => by cases h
  refine ⟨((haltsInEveryOrder_iff sampleEnv _).2 100 1700000000 (hstill _) (hcache _)).2
    (Or.inr (by decide)), fun h => ?_⟩
  rcases ((haltsInEveryOrder_iff sampleEnv _).2 100 1700000000 (hstill _) (hcache _)).1 h with
    hends | hnone
  · rcases hends with h | h | h | h | ⟨r, hr, hunreadable⟩
    · cases h
    · cases h.2
    · cases h
    · cases h
    · have hread : ∀ r ∈ (batchWorld [forgedRow, dueRow]).dueRows,
          (mapBroadcastRow sampleEnv 0 r).isOk = true := by decide
      cases hmap : mapBroadcastRow sampleEnv 0 r with
      | ok tx => exact hunreadable ((readable_iff 0).2 ⟨tx, hmap⟩)
      | error e =>
        have hok := hread r hr
        rw [hmap] at hok
        cases hok
  · exact absurd hnone (by decide)

end BroadcastPool
