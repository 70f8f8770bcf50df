import BroadcastPool.Pool.Scheduler
import BroadcastPool.Proofs.Db.Seal
import BroadcastPool.Proofs.Db.Selection
import BroadcastPool.Sample

/-!
# `BroadcastPool.Proofs.MacCoverage`: what `row_mac` says about a release

Somebody without the key can change any column that `row_mac_input` leaves out. `CoversRelease R`
is the law that such a change decides nothing: for every two tables whose rows are related by
`R`, the scheduler selects the same rows and decides the same about each of them.

The law does not hold for the ten columns of `row_mac_input` (`not_coversRelease_sameCovered`).
The selection also reads `network`, the due check reads `defer_until`, the price trigger reads
`price_currency`, and a selected row that cannot be read stops the whole query. With these four
the law holds (`coversRelease_sameRelease`), and none of them can be left out.
-/

set_option autoImplicit false

namespace BroadcastPool

open Effects

/-- The rows agree on the columns of `row_mac_input`, and on `row_mac`. -/
structure Row.SameCovered (r r' : Row) : Prop where
  id : r.id = r'.id
  status : r.status = r'.status
  broadcastMode : r.broadcastMode = r'.broadcastMode
  scheduledTime : r.scheduledTime = r'.scheduledTime
  nlocktime : r.nlocktime = r'.nlocktime
  targetPrice : r.targetPrice = r'.targetPrice
  scheduleTrigger : r.scheduleTrigger = r'.scheduleTrigger
  priceCondition : r.priceCondition = r'.priceCondition
  txHex : r.txHex = r'.txHex
  destinationAddress : r.destinationAddress = r'.destinationAddress
  rowMac : r.rowMac = r'.rowMac

/-- The rows also agree on what a release depends on and `row_mac` does not cover. -/
structure Row.SameRelease (r r' : Row) : Prop where
  covered : r.SameCovered r'
  network : r.network = r'.network
  deferUntil : r.deferUntil = r'.deferUntil
  priceCurrency : r.priceCurrency = r'.priceCurrency
  readable : r.Readable ↔ r'.Readable

/-- The tables have related rows. -/
def TablesRelated (R : Row → Row → Prop) (rows rows' : List Row) : Prop :=
  (∀ r ∈ rows, ∃ r' ∈ rows', R r r') ∧ ∀ r' ∈ rows', ∃ r ∈ rows, R r r'

/-- The scheduler decides the same about two rows it has read. -/
structure SameDecisions (tx tx' : BroadcastTx) : Prop where
  tampered : tx.tampered = tx'.tampered
  txHex : tx.txHex = tx'.txHex
  due : ∀ p now, isTxDueForBroadcast p tx now = isTxDueForBroadcast p tx' now
  tick : isTickMode tx = isTickMode tx'
  block : ∀ height, isBlockReached height tx = isBlockReached height tx'
  price : ∀ prices, priceTriggerMet prices tx = priceTriggerMet prices tx'

/-- Tables whose rows are related, and of which every row carries a valid MAC, lead to the same
selections and the same decisions. -/
def CoversRelease (env : Env) (R : Row → Row → Prop) : Prop :=
  ∀ (w : World) (rows : List Row), TablesRelated R w.pool rows →
    (∀ r ∈ w.pool, r.MacMatches env) →
    (∀ network id,
      (Chosen env w (getDueTransactions network) id ↔
        Chosen env { w with pool := rows } (getDueTransactions network) id) ∧
      (Chosen env w (getPendingByScheduledTime network) id ↔
        Chosen env { w with pool := rows } (getPendingByScheduledTime network) id) ∧
      (Chosen env w (getPendingByBlockHeight network) id ↔
        Chosen env { w with pool := rows } (getPendingByBlockHeight network) id) ∧
      (Chosen env w (getPriceTriggeredPending network) id ↔
        Chosen env { w with pool := rows } (getPriceTriggeredPending network) id)) ∧
    ∀ r ∈ w.pool, ∀ r' ∈ rows, R r r' → ∀ readAt tx tx',
      mapBroadcastRow env readAt r = .ok tx → mapBroadcastRow env readAt r' = .ok tx' →
        SameDecisions tx tx'

section
variable {env : Env} {r r' : Row}

/-- The MAC text only depends on the covered columns. -/
theorem macInput_of_sameCovered (h : r.SameCovered r') (n : Int) :
    r.macInput env n = r'.macInput env n := by
  unfold Row.macInput
  rw [h.id, h.status, h.broadcastMode, h.scheduledTime, h.targetPrice, h.scheduleTrigger,
    h.priceCondition, h.txHex, h.destinationAddress]

/-- A query that reads covered columns and the network selects both rows or neither. -/
theorem selects_congr (h : r.SameRelease r') {q : Query} {network : String}
    (hq : q = .due network ∨ q = .pendingByScheduledTime network ∨
      q = .pendingByBlockHeight network ∨ q = .priceTriggered network) :
    q.selects r = q.selects r' := by
  have hc := h.covered
  rcases hq with rfl | rfl | rfl | rfl
  · simp only [Query.selects, hc.status, h.network]
  · simp only [Query.selects, hc.status, hc.broadcastMode, hc.scheduledTime, h.network]
  · simp only [Query.selects, hc.status, hc.broadcastMode, hc.nlocktime, h.network]
  · simp only [Query.selects, hc.status, hc.scheduleTrigger, hc.targetPrice, h.network]

/-- Two rows that agree on what a release depends on lead to the same decisions. -/
theorem sameDecisions_of_sameRelease (h : r.SameRelease r') {readAt : DateTime}
    {tx tx' : BroadcastTx} (hr : mapBroadcastRow env readAt r = .ok tx)
    (hr' : mapBroadcastRow env readAt r' = .ok tx') : SameDecisions tx tx' := by
  have hc := h.covered
  obtain ⟨n, nl, bh, fee, cnt, tot, ret, hn, hnl, -, -, -, -, -, rfl⟩ :=
    mapBroadcastRow_eq_ok.1 hr
  obtain ⟨n', nl', bh', fee', cnt', tot', ret', hn', hnl', -, -, -, -, -, rfl⟩ :=
    mapBroadcastRow_eq_ok.1 hr'
  have hnn : n = n' := by
    rw [hc.nlocktime, hn'] at hn
    exact (Option.some.inj hn).symm
  have hlock : nl = nl' := by
    rw [hc.nlocktime, hnl'] at hnl
    exact (Option.map_injective (fun _ _ => Int.ofNat.inj) hnl).symm
  subst hnn hlock
  refine ⟨?_, ?_, fun p now => ?_, ?_, fun height => ?_, fun prices => ?_⟩
  · show some (decide (r.rowMac ≠ some (env.mac env.key (r.macInput env n)))) =
      some (decide (r'.rowMac ≠ some (env.mac env.key (r'.macInput env n))))
    rw [hc.rowMac, macInput_of_sameCovered hc]
  · show decOrRaw env r.id r.txHex = decOrRaw env r'.id r'.txHex
    rw [hc.id, hc.txHex]
  · simp only [isTxDueForBroadcast, hc.scheduleTrigger, hc.status, h.deferUntil,
      hc.scheduledTime]
  · simp only [isTickMode, hc.broadcastMode, hc.scheduleTrigger]
  · simp only [isBlockReached, hc.broadcastMode]
  · simp only [priceTriggerMet, hc.targetPrice, h.priceCurrency, hc.priceCondition]

/-- What holds of every selected row of one table holds of every selected row of the other, if
related rows are selected together and agree on it. -/
theorem forall_selected_iff {R : Row → Row → Prop} {rows rows' : List Row} {q : Query}
    {P : Row → Prop} (h : TablesRelated R rows rows')
    (hsel : ∀ r r', R r r' → q.selects r = q.selects r') (hP : ∀ r r', R r r' → (P r ↔ P r')) :
    (∀ r ∈ rows.filter q.selects, P r) ↔ ∀ r ∈ rows'.filter q.selects, P r := by
  constructor
  · intro hall r' hr'
    obtain ⟨hmem, hs⟩ := List.mem_filter.1 hr'
    obtain ⟨r, hr, hrel⟩ := h.2 r' hmem
    exact (hP r r' hrel).1 (hall r (List.mem_filter.2 ⟨hr, (hsel r r' hrel).trans hs⟩))
  · intro hall r hr
    obtain ⟨hmem, hs⟩ := List.mem_filter.1 hr
    obtain ⟨r', hr', hrel⟩ := h.1 r hmem
    exact (hP r r' hrel).2 (hall r' (List.mem_filter.2 ⟨hr', (hsel r r' hrel).symm.trans hs⟩))

/-- The same for some selected row. -/
theorem exists_selected_iff {R : Row → Row → Prop} {rows rows' : List Row} {q : Query}
    {P : Row → Prop} (h : TablesRelated R rows rows')
    (hsel : ∀ r r', R r r' → q.selects r = q.selects r') (hP : ∀ r r', R r r' → (P r ↔ P r')) :
    (∃ r ∈ rows.filter q.selects, P r) ↔ ∃ r ∈ rows'.filter q.selects, P r := by
  have hnot := forall_selected_iff (P := fun r => ¬ P r) h hsel
    fun r r' hrel => not_congr (hP r r' hrel)
  constructor
  · rintro ⟨r, hr, hp⟩
    by_contra hnone
    exact hnot.2 (fun r' hr' hp' => hnone ⟨r', hr', hp'⟩) r hr hp
  · rintro ⟨r', hr', hp'⟩
    by_contra hnone
    exact hnot.1 (fun r hr hp => hnone ⟨r, hr, hp⟩) r' hr' hp'

/-- A query that selects related rows together returns the same ids. -/
theorem chosen_select_congr {w : World} {rows : List Row} {q : Query} (context id : String)
    (h : TablesRelated Row.SameRelease w.pool rows)
    (hfilter : ∀ l, selectRows q l = l.filter q.selects)
    (hsel : ∀ r r', Row.SameRelease r r' → q.selects r = q.selects r') :
    Chosen env w (orFail context (perform (.select q))) id ↔
      Chosen env { w with pool := rows } (orFail context (perform (.select q))) id := by
  rw [chosen_select, chosen_select, hfilter, hfilter,
    forall_selected_iff h hsel fun r r' hrel => hrel.readable,
    exists_selected_iff h hsel fun r r' hrel => by rw [hrel.covered.id]]

/-- The columns of `row_mac_input`, the network, the deferral, the price currency and the
readability together decide every release. -/
theorem coversRelease_sameRelease (env : Env) : CoversRelease env Row.SameRelease := by
  intro w rows h _
  refine ⟨fun network id => ⟨?_, ?_, ?_, ?_⟩, fun r _ r' _ hrel readAt tx tx' hr hr' =>
    sameDecisions_of_sameRelease hrel hr hr'⟩
  · exact chosen_select_congr _ id h (fun _ => rfl)
      fun r r' hrel => selects_congr hrel (Or.inl rfl)
  · have hsel : ∀ r r', Row.SameRelease r r' →
        (Query.pendingByScheduledTime network).selects r =
          (Query.pendingByScheduledTime network).selects r' :=
      fun r r' hrel => selects_congr hrel (Or.inr (Or.inl rfl))
    rw [chosen_pendingByScheduledTime, chosen_pendingByScheduledTime]
    show _ ∧ (∀ r ∈ w.pool.filter _, _) ∧ (∃ r ∈ w.pool.filter _, _) ↔
      _ ∧ (∀ r ∈ rows.filter _, _) ∧ (∃ r ∈ rows.filter _, _)
    rw [forall_selected_iff h hsel fun r r' hrel => hrel.readable,
      exists_selected_iff h hsel fun r r' hrel => by
        unfold Row.TimeReached
        rw [hrel.covered.id, hrel.covered.scheduledTime]]
  · exact chosen_select_congr _ id h (fun _ => rfl)
      fun r r' hrel => selects_congr hrel (Or.inr (Or.inr (Or.inl rfl)))
  · exact chosen_select_congr _ id h (fun _ => rfl)
      fun r r' hrel => selects_congr hrel (Or.inr (Or.inr (Or.inr rfl)))

end

/-! ### The columns that `row_mac` leaves out -/

/-- What a release depends on and `row_mac` does not cover. -/
inductive Uncovered
  | network | deferUntil | priceCurrency | readability
deriving DecidableEq

/-- The rows agree on everything that a release depends on, except possibly for `c`. -/
structure Row.SameBut (c : Uncovered) (r r' : Row) : Prop where
  covered : r.SameCovered r'
  network : c ≠ .network → r.network = r'.network
  deferUntil : c ≠ .deferUntil → r.deferUntil = r'.deferUntil
  priceCurrency : c ≠ .priceCurrency → r.priceCurrency = r'.priceCurrency
  readable : c ≠ .readability → (r.Readable ↔ r'.Readable)

/-- Fewer related tables are easier to treat alike. -/
theorem coversRelease_anti {env : Env} {R R' : Row → Row → Prop} (h : ∀ r r', R r r' → R' r r')
    (hcovers : CoversRelease env R') : CoversRelease env R := by
  intro w rows hrel hmac
  have hrel' : TablesRelated R' w.pool rows := by
    refine ⟨fun r hr => ?_, fun r' hr' => ?_⟩
    · obtain ⟨r', hr', hrr'⟩ := hrel.1 r hr
      exact ⟨r', hr', h r r' hrr'⟩
    · obtain ⟨r, hr, hrr'⟩ := hrel.2 r' hr'
      exact ⟨r, hr, h r r' hrr'⟩
  obtain ⟨hchosen, hdecide⟩ := hcovers w rows hrel' hmac
  exact ⟨hchosen, fun r hr r' hr' hrr' => hdecide r hr r' hr' (h r r' hrr')⟩

/-- A scheduled row with a price trigger. -/
def latePriceRow : Row :=
  resealed sampleEnv { dueRow with scheduleTrigger := some "price", targetPrice := some ⟨5⟩ }

/-- A pair of rows that differ in one uncovered column, and that are treated differently. -/
def Uncovered.pair : Uncovered → Row × Row
  | network => (dueRow, { dueRow with network := "mainnet" })
  | deferUntil => (dueRow, { dueRow with deferUntil := some "9" })
  | priceCurrency => (latePriceRow, { latePriceRow with priceCurrency := some "eur" })
  | readability => (dueRow, { dueRow with utxoCount := none })

theorem pair_sameBut (c : Uncovered) : c.pair.1.SameBut c c.pair.2 := by
  have hcovered : c.pair.1.SameCovered c.pair.2 := by
    cases c <;> exact ⟨rfl, rfl, rfl, rfl, rfl, rfl, rfl, rfl, rfl, rfl, rfl⟩
  refine ⟨hcovered, fun h => ?_, fun h => ?_, fun h => ?_, fun h => ?_⟩
  · cases c <;> first | rfl | exact absurd rfl h
  · cases c <;> first | rfl | exact absurd rfl h
  · cases c <;> first | rfl | exact absurd rfl h
  · cases c
    case readability => exact absurd rfl h
    all_goals exact ⟨fun ⟨a, b, c, d, e, f⟩ => ⟨a, b, c, d, e, f⟩,
      fun ⟨a, b, c, d, e, f⟩ => ⟨a, b, c, d, e, f⟩⟩

/-- The world of a daemon with one row. -/
def oneRowWorld (r : Row) : World := { sampleWorld with pool := [r] }

/-- None of the four uncovered columns can be left out. -/
theorem not_coversRelease_sameBut (c : Uncovered) :
    ¬ CoversRelease sampleEnv (Row.SameBut c) := by
  intro h
  have hrel : TablesRelated (Row.SameBut c) (oneRowWorld c.pair.1).pool [c.pair.2] := by
    refine ⟨fun r hr => ⟨_, List.mem_singleton.2 rfl, ?_⟩,
      fun r hr => ⟨_, List.mem_singleton.2 rfl, ?_⟩⟩
    · rw [List.mem_singleton.1 hr]
      exact pair_sameBut c
    · rw [List.mem_singleton.1 hr]
      exact pair_sameBut c
  have hmac : ∀ r ∈ (oneRowWorld c.pair.1).pool, r.MacMatches sampleEnv := by
    intro r hr
    rw [List.mem_singleton.1 hr]
    cases c <;> exact ⟨0, rfl, rfl⟩
  obtain ⟨hchosen, hdecide⟩ := h _ _ hrel hmac
  have hsame := hdecide c.pair.1 (List.mem_singleton.2 rfl) c.pair.2 (List.mem_singleton.2 rfl)
    (pair_sameBut c) 0
  cases c with
  | network =>
    obtain ⟨txs, hrun, tx, htx, -⟩ :=
      (hchosen "testnet4" "id0").1.1 ⟨_, rfl, _, List.mem_cons_self .., rfl⟩
    cases hrun
    cases htx
  | deferUntil =>
    have hdue := (hsame _ _ rfl rfl).due .daemon 5
    have hrun := congrArg (fun p => (p.run (World.exec sampleEnv) sampleWorld).1) hdue
    revert hrun
    decide
  | priceCurrency =>
    have hprice := (hsame _ _ rfl rfl).price fun currency =>
      if currency = "usd" then some ⟨7⟩ else none
    revert hprice
    decide
  | readability =>
    obtain ⟨txs, hrun, -⟩ :=
      (hchosen "testnet4" "id0").1.1 ⟨_, rfl, _, List.mem_cons_self .., rfl⟩
    cases hrun

/-- The ten columns of `row_mac_input` do not decide every release. -/
theorem not_coversRelease_sameCovered : ¬ CoversRelease sampleEnv Row.SameCovered :=
  fun h => not_coversRelease_sameBut .network (coversRelease_anti (fun _ _ hb => hb.covered) h)

end BroadcastPool
