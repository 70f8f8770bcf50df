import BroadcastPool.Proofs.Provenance
import BroadcastPool.Proofs.TxidColumn

/-!
# `BroadcastPool.Proofs.Confirmed`: which rows are confirmed

The confirmation checker reads the rows that are stored as broadcast, asks Core about the txid of
each, and marks a row in a later step. Other work can change the row in between. `ConfirmedBy` says
what a mark stands for all the same: Core has answered that the transaction with the txid of the
row's own text is in a block, and what is stored is the height of the tip that Core told after that.

The argument goes through the txid column. A txid that is read belongs to the text that is read with
it (`World.OwnTxids`), and the row still holds this text when it is marked (`KnownHold`).
-/

set_option autoImplicit false

namespace BroadcastPool

open Effects

/-- The row was confirmed at the start, with the same height. -/
def WasConfirmed (w : World) (r : Row) : Prop :=
  ∃ r₀ ∈ w.pool, r₀.id = r.id ∧ r₀.status = "confirmed" ∧ r₀.blockHeight = r.blockHeight

/-- The step has confirmed the row: the last that its program has seen is that Core has the row's
own transaction in a block, then the height that is stored, and then the time. -/
def ConfirmedBy (env : Env) (r : Row) (e : Performed Act Act.Res World) : Prop :=
  ∃ (height : Nat) (now txid : String),
    e.act = .update (.confirmed r.id height now) ∧ r.blockHeight = some (height : Int) ∧
      computeTxid env (r.hex env) = .ok txid ∧ MinedThenHeight e.seen txid height

/-- What was read by then, and the steps. -/
structure Confirmations where
  record : Record
  steps : List (Performed Act Act.Res World)

def Confirmations.after (env : Env) (g : Confirmations) (e : Performed Act Act.Res World) :
    Confirmations where
  record := g.record.after env e
  steps := g.steps ++ [e]

/-- An answer is recorded, and shows no txid that is not the one of the text next to it. -/
structure Confirmations.Records (env : Env) (g : Confirmations) (s : Seen Act Act.Res) : Prop where
  reads : ∀ k ∈ readsIn env s, k ∈ g.record.reads
  txids : ∀ q txs, s = ⟨.select q, .ok txs⟩ →
    ∀ tx ∈ txs, ∀ txid ∈ tx.txid, computeTxid env tx.txHex = .ok txid

/-- The steps account for the rows that are confirmed. -/
structure Confirmations.Account (env : Env) (w₀ : World) (g : Confirmations) (w : World) :
    Prop where
  known : KnownOwn env g.record w
  confirmed : ∀ r ∈ w.pool, r.status = "confirmed" →
    WasConfirmed w₀ r ∨ ∃ e ∈ g.steps, ConfirmedBy env r e

section
variable {env : Env}

theorem foldl_after_steps (es : List (Performed Act Act.Res World)) (g : Confirmations) :
    (es.foldl (Confirmations.after env) g).steps = g.steps ++ es := by
  rw [foldl_collect (Confirmations.after env) (·.steps) some (fun _ _ => rfl),
    List.filterMap_some]

theorem Confirmations.Records.mono {g : Confirmations} {s : Seen Act Act.Res}
    (h : g.Records env s) (e : Performed Act Act.Res World) : (g.after env e).Records env s where
  reads k hk := List.mem_append_left _ (h.reads k hk)
  txids := h.txids

/-- The txids that a query shows belong to the texts next to them. -/
theorem select_ownTxids {w : World} (hown : w.OwnTxids env) {a : Act} {q : Query}
    {txs : List BroadcastTx}
    (h : (⟨a, (World.exec env a w).1⟩ : Seen Act Act.Res) = ⟨.select q, .ok txs⟩) :
    ∀ tx ∈ txs, ∀ txid ∈ tx.txid, computeTxid env tx.txHex = .ok txid := by
  intro tx htx txid htxid
  obtain ⟨rfl, hanswer⟩ := Sigma.mk.inj h
  have hok : (World.exec env (.select q) w).1 = .ok txs := eq_of_heq hanswer
  rcases exec_select env w q with ⟨e, hexec⟩ | ⟨txs', hmap, hexec⟩
  · rw [hexec] at hok
    cases hok
  · rw [hexec] at hok
    cases hok
    obtain ⟨r, hr, hreads⟩ := mem_of_mapM_eq_ok hmap tx htx
    have hspec := mapBroadcastRow_spec hreads
    rw [hspec.txHex]
    rw [hspec.txid] at htxid
    exact hown r (mem_selectRows hr).1 txid htxid

/-! ### One step -/

theorem Update.set_confirmed {u : Update} {r : Row} (h : (u.set env r).status = "confirmed")
    (hfailed : ∀ id status error now, u = .txStatus id status error now → status = .failed) :
    (r.status = "confirmed" ∧ r.blockHeight = (u.set env r).blockHeight) ∨
      ∃ id height now, u = .confirmed id height now ∧
        (u.set env r).blockHeight = some height := by
  cases u
  case confirmed id height now => exact Or.inr ⟨id, height, now, rfl, rfl⟩
  case txStatus id status error now =>
    obtain rfl := hfailed id status error now rfl
    simp [set, TxStatus.asStr] at h
  case broadcastMiss | rebroadcastAt | encryptFields => exact Or.inl ⟨h, rfl⟩
  all_goals simp [set] at h

/-- A row that is confirmed after a step was so before, with the same height, or the step has marked
it. -/
theorem exec_confirmed {R : List (Seen Act Act.Res) → BroadcastTx → Prop} {w : World}
    {seen : List (Seen Act Act.Res)} {a : Act} (hearned : Earned R seen a)
    (hpending : ∀ row, a = .insert row → row.status = "pending") {r' : Row}
    (hr' : r' ∈ (World.exec env a w).2.pool) (hconfirmed : r'.status = "confirmed") :
    ∃ r ∈ w.pool, r.id = r'.id ∧
      (r.status = "confirmed" ∧ r.blockHeight = r'.blockHeight ∨
        ∃ height now, a = .update (.confirmed r'.id height now) ∧
          r'.blockHeight = some height) := by
  -- An `INSERT` brings a pending row, an `UPDATE` may confirm one, and the rest leaves status and
  -- height.
  by_cases hinsert : ∃ row, a = .insert row
  · obtain ⟨row, rfl⟩ := hinsert
    rcases exec_insert env w row with ⟨e, hexec⟩ | ⟨pool, hins, hexec⟩
    · rw [hexec] at hr'
      exact ⟨r', hr', rfl, Or.inl ⟨hconfirmed, rfl⟩⟩
    · rw [hexec] at hr'
      unfold insertRow at hins
      split at hins
      · cases hins
      · cases hins
        rcases List.mem_append.1 hr' with hr' | hr'
        · exact ⟨r', hr', rfl, Or.inl ⟨hconfirmed, rfl⟩⟩
        · cases List.mem_singleton.1 hr'
          have hstatus := (hpending r' rfl).symm.trans hconfirmed
          exact absurd hstatus (by decide)
  · by_cases hupdate : ∃ u, a = .update u
    · obtain ⟨u, rfl⟩ := hupdate
      rcases exec_update env w u with ⟨e, hexec⟩ | hexec
      · rw [hexec] at hr'
        exact ⟨r', hr', rfl, Or.inl ⟨hconfirmed, rfl⟩⟩
      · rw [hexec] at hr'
        obtain ⟨r, hr, rfl⟩ := List.mem_map.1 hr'
        refine ⟨r, hr, (Update.onRow_id u r).symm, ?_⟩
        rw [Update.onRow_id]
        unfold Update.onRow at hconfirmed ⊢
        split at hconfirmed
        · rename_i hmatch
          rw [if_pos hmatch]
          rcases Update.set_confirmed hconfirmed (fun id status error now h =>
            hearned.failed id status error now (congrArg Act.update h)) with
            h | ⟨id, height, now, rfl, hheight⟩
          · exact Or.inl h
          · obtain rfl : r.id = id := hmatch.1
            exact Or.inr ⟨height, now, rfl, hheight⟩
        · rename_i hmatch
          rw [if_neg hmatch]
          exact Or.inl ⟨hconfirmed, rfl⟩
    · obtain ⟨r, hr, hserviced⟩ := exec_serviced env (fun row ha => hinsert ⟨row, ha⟩)
        (fun u ha => hupdate ⟨u, ha⟩) w r' hr'
      rw [hserviced.eq] at hconfirmed ⊢
      exact ⟨r, hr, rfl, Or.inl ⟨hconfirmed, rfl⟩⟩

/-- One step keeps the account, and its answer is recorded. -/
theorem confirmations_step {R : List (Seen Act Act.Res) → BroadcastTx → Prop} {w₀ : World}
    {g : Confirmations} {e : Performed Act Act.Res World} (h : g.Account env w₀ e.state)
    (hgrounded : Grounded env e.seen e.act) (hearned : Earned R e.seen e.act)
    (hmarks : Marks env e.seen e.act) (hrecords : ∀ s ∈ e.seen, g.Records env s)
    (hfresh : ∀ id ∈ insertedId e, id ∉ g.record.ids) :
    (g.after env e).Account env w₀ (World.exec env e.act e.state).2 ∧
      (g.after env e).Records env ⟨e.act, (World.exec env e.act e.state).1⟩ := by
  have hreads : ∀ k ∈ readsOf env e.seen, k ∈ g.record.reads := by
    intro k hk
    obtain ⟨s, hs, hk⟩ := List.mem_flatMap.1 hk
    exact (hrecords s hs).reads k hk
  refine ⟨⟨⟨knownHold_step h.known.known hgrounded hreads hfresh,
    exec_ownTxids h.known hgrounded hmarks hreads⟩, fun r' hr' hconfirmed => ?_⟩,
    ⟨fun k hk => List.mem_append_right _ hk, fun q txs hs => select_ownTxids h.known.own hs⟩⟩
  obtain ⟨r, hr, hid, hbefore⟩ := exec_confirmed hearned hgrounded.insert hr' hconfirmed
  have hhex : r'.hex env = r.hex env := by
    rcases exec_key h.known.known hgrounded hreads hr' with ⟨r₀, hr₀, hsame⟩ | hnew
    · have hids : r.id = r₀.id := hid.trans (congrArg Prod.fst hsame).symm
      exact (congrArg Prod.snd hsame).symm.trans (h.known.known.same r₀ hr₀ r hr hids.symm)
    · have hknown : r'.id ∈ g.record.ids := hid ▸ h.known.known.ids r hr
      exact absurd hknown (hfresh _ (insertedId_of_insertedKey hnew))
  -- Confirmed before: the same row of the start, or the same marking step. Its text has not
  -- changed.
  rcases hbefore with ⟨hwas, hheight⟩ | ⟨height, now, ha, hheight⟩
  · rcases h.confirmed r hr hwas with ⟨r₀, hr₀, hid₀, hstatus₀, hheight₀⟩ | ⟨e₀, he₀, hby⟩
    · exact Or.inl ⟨r₀, hr₀, hid₀.trans hid, hstatus₀, hheight₀.trans hheight⟩
    · refine Or.inr ⟨e₀, List.mem_append_left _ he₀, ?_⟩
      unfold ConfirmedBy at hby ⊢
      rw [← hid, ← hheight, hhex]
      exact hby
  · -- The text next to the txid that Core was asked about is still the text of the row.
    obtain ⟨tx, htx, ⟨network, limit, hshown⟩, ⟨txid, htxid, n, rfl, hmined⟩⟩ :=
      hearned.confirm _ _ _ ha
    obtain ⟨txs, hmem, htxs⟩ := hshown
    have hown := (hrecords _ hmem).txids _ _ rfl tx htxs txid htxid
    have hread : (tx.id, tx.txHex) ∈ readsOf env e.seen := Shown.read ⟨txs, hmem, htxs⟩
    have hhold := h.known.known.hold _ (hreads _ hread) r hr (hid.trans htx.symm)
    refine Or.inr ⟨e, List.mem_append_right _ (List.mem_singleton_self _), n, now, txid, ha,
      hheight, ?_,
      hmined⟩
    rw [hhex, hhold]
    exact hown

end

/-! ### A run -/

/-- In every interleaving of single statements, with any crash or error of the database, a row that
ends as confirmed was so at the start, with the same height, or a step has marked it after Core had
answered that the transaction with the txid of this very row is in a block. The height that is
stored is the one of the tip that Core told right after that. -/
theorem confirmed_in_block (env : Env) (hseal : env.SealOpens) (hanswers : env.AnswersTxids)
    (w : World) (chs : List (Choice Act Act.Res Failure)) (hschedule : IsWorkSchedule env chs)
    (hids : DistinctIds w (Config.performed (World.exec env) ⟨w, []⟩ chs))
    (hown : w.OwnTxids env) :
    ∀ r ∈ (Config.exec (World.exec env) ⟨w, []⟩ chs).state.pool, r.status = "confirmed" →
      WasConfirmed w r ∨
        ∃ e ∈ Config.performed (World.exec env) ⟨w, []⟩ chs, ConfirmedBy env r e := by
  have hearned := earned_of_schedule (w := w) hschedule
  have hgrounded := grounded_of_schedule hseal (w := w) hschedule
  have hmarks : ∀ e ∈ Config.performed (World.exec env) ⟨w, []⟩ chs, Marks env e.seen e.act := by
    refine Config.performed_of_paths (answersOwn_exec hanswers) _ _ (fun t ht => by cases ht)
      fun p hp => ?_
    obtain ⟨a, rfl⟩ := hschedule p hp
    exact marks_activity a
  have hstart : Confirmations.Account env w ⟨⟨w.pool.map (·.id), []⟩, []⟩ w :=
    ⟨⟨knownHold_start (List.nodup_append.1 hids).1, hown⟩,
      fun r hr hconfirmed => Or.inl ⟨r, hr, rfl, hconfirmed, rfl⟩⟩
  have hfresh := (along_of_nodup insertedId hids).comap
    (g := (⟨⟨w.pool.map (·.id), []⟩, []⟩ : Confirmations)) (fun g => g.record.ids)
    (Confirmations.after env) fun _ _ => rfl
  have hend := Config.exec_recorded (Confirmations.after env)
    (I := Confirmations.Account env w) (J := Confirmations.Records env)
    (fun g e s hs => hs.mono e) chs ⟨w, []⟩ _ ⟨hstart, fun t ht => by cases ht⟩ hfresh
    fun e he g hg hrecords hnew => confirmations_step hg (hgrounded e he) (hearned e he)
      (hmarks e he) hrecords hnew
  intro r hr hconfirmed
  have hby := hend.state.confirmed r hr hconfirmed
  rw [foldl_after_steps, List.nil_append] at hby
  exact hby

/-- The indexer takes nothing, and Core has every transaction in a block. -/
def minedEnv : Env :=
  { sampleEnv with
    indexerBroadcast := fun _ _ => .error "unreachable"
    rpcTest := fun _ => true
    rpcTransaction := fun _ _ => .ok (some "block") }

/-- The sample row, handed over. -/
def sentRow : Row :=
  resealed sampleEnv { sampleRow with status := "broadcast", txid := some "7" }

/-- A daemon that has Core too. -/
def minedWorld : World :=
  { servedWorld sentRow with daemon := { (servedWorld sentRow).daemon with rpc := true } }

/-- One pass of the confirmation checker. -/
def confirmSchedule : List (Choice Act Act.Res Failure) :=
  .start (Activity.confirmationChecker.prog minedEnv) :: List.replicate 20 (.step 0)

theorem isWorkSchedule_confirmSchedule : IsWorkSchedule minedEnv confirmSchedule := by
  intro p hp
  rcases List.mem_cons.1 hp with hp | hp
  · cases hp
    exact ⟨.confirmationChecker, rfl⟩
  · cases List.eq_of_mem_replicate hp

theorem ownTxids_minedWorld : minedWorld.OwnTxids minedEnv := by
  intro r hr txid htxid
  cases List.mem_singleton.1 hr
  cases htxid
  rfl

theorem confirmed_in_block_confirmSchedule :
    ((Config.exec (World.exec minedEnv) ⟨minedWorld, []⟩ confirmSchedule).state.pool.map
      fun r => (r.status, r.blockHeight)) = [("confirmed", some 100)] ∧
    ∀ r ∈ (Config.exec (World.exec minedEnv) ⟨minedWorld, []⟩ confirmSchedule).state.pool,
      r.status = "confirmed" → WasConfirmed minedWorld r ∨
        ∃ e ∈ Config.performed (World.exec minedEnv) ⟨minedWorld, []⟩ confirmSchedule,
          ConfirmedBy minedEnv r e :=
  ⟨by decide, confirmed_in_block minedEnv (fun _ _ _ => rfl) (fun _ _ _ h => by
      rcases h with h | h <;> cases h) minedWorld confirmSchedule isWorkSchedule_confirmSchedule
    (by decide) ownTxids_minedWorld⟩

end BroadcastPool
