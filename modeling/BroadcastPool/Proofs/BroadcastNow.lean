import BroadcastPool.Proofs.LockColumn
import BroadcastPool.Proofs.Locktime
import BroadcastPool.Sample

/-!
# `BroadcastPool.Proofs.BroadcastNow`: the lock of `broadcast_now` is the column

`broadcast_now` checks the `nlocktime` column. `handsOverNow_iff` says that the request hands the
row over exactly when the gate is open for the column. It rests on `BackendUp`: a chain clock that
works leaves a backend to hand over to.

Which column a row has is the result of `BroadcastPool.Proofs.LockColumn`. A transaction that is
captured from Sparrow, or from Liana without a virtual block, has its signed lock there. An import
leaves the column at zero, and an armed virtual block writes its own target into it. So
`broadcast_now_final_iff` says for each reached row, by the work that has inserted it, whether the
request looks at the signed lock.
-/

set_option autoImplicit false

namespace BroadcastPool

open Effects

section Backends
variable {env : Env} {p : Proc} {w : World} {height mtp : Nat}

/-- A backend is there for `broadcast_transaction`. -/
def BackendUp (p : Proc) (w : World) : Prop :=
  ((w.pm p).chainHealth.shouldTryIndexer = true ∧ (w.pm p).indexer = true) ∨
    (w.pm p).rpc = true

variable (env p w) in
/-- The indexer's height comes from an indexer that is still up afterwards. Without one, Core is
where it was. -/
theorem run_indexerBlockHeight_cases :
    (∃ height w', (indexerBlockHeight p).run (World.exec env) w = (.ok (some height), w') ∧
        BackendUp p w ∧ BackendUp p w') ∨
      ∃ w', (indexerBlockHeight p).run (World.exec env) w = (.ok none, w') ∧
        (w'.pm p).rpc = (w.pm p).rpc := by
  cases htry : (w.pm p).chainHealth.shouldTryIndexer with
  | false =>
    right
    simp [indexerBlockHeight, perform, Prog.run_bind, World.exec, World.effect, htry]
  | true =>
    cases hindexer : (w.pm p).indexer with
    | false =>
      right
      simp [indexerBlockHeight, perform, Prog.run_bind, World.exec, World.effect, htry, hindexer]
    | true =>
      cases hheight : env.indexerHeight (w.tick + 2) with
      | error e =>
        right
        simp [indexerBlockHeight, perform, Prog.run_bind, World.exec, World.effect,
          World.tick_ticked,
          htry, hindexer, hheight]
      | ok height =>
        left
        have hsuccess : ((HealthWrite.indexerSuccess height).apply
            (w.pm p).chainHealth).shouldTryIndexer = true := rfl
        simp [indexerBlockHeight, perform, Prog.run_bind, World.exec, World.effect,
          World.tick_ticked,
          htry, hindexer, hheight, hsuccess, BackendUp]

/-- A height comes from a backend that is up, and still is afterwards. -/
theorem backendUp_of_seesHeight (h : SeesHeight env p w height) :
    BackendUp p w ∧ BackendUp p ((checkBlockHeight p).run (World.exec env) w).2 := by
  unfold SeesHeight checkBlockHeight at *
  rw [Prog.bind_eq, Prog.run_bind] at *
  rcases run_indexerBlockHeight_cases env p w with
    ⟨n, w', hrun, hup, hup'⟩ | ⟨w', hrun, hrpc⟩
  · rw [hrun]
    exact ⟨hup, hup'⟩
  · rw [hrun] at h ⊢
    cases hasRpc : (w.pm p).rpc with
    | false => simp [perform, Prog.run_bind, World.exec, World.effect, hrpc, hasRpc] at h
    | true =>
      refine ⟨Or.inr hasRpc, Or.inr ?_⟩
      rw [hasRpc] at hrpc
      cases hheight : env.rpcHeight (w'.tick + 1) with
      | error e =>
        simp [perform, Prog.run_bind, World.exec, World.effect, World.tick_ticked, hrpc, hheight]
      | ok n =>
        simp [perform, Prog.run_bind, World.exec, World.effect, World.tick_ticked, hrpc, hheight]

variable (env p w) in
/-- The question for Core's median time changes nothing but the tick. -/
theorem run_rpcMedianTime_pm :
    ∃ o w', (rpcMedianTime p).run (World.exec env) w = (.ok o, w') ∧ w'.pm p = w.pm p := by
  cases hasRpc : (w.pm p).rpc with
  | false => simp [rpcMedianTime, perform, Prog.run_bind, World.exec, World.effect, hasRpc]
  | true =>
    cases hmtp : env.rpcMtp (w.tick + 1) with
    | error e =>
      simp [rpcMedianTime, perform, Prog.run_bind, World.exec, World.effect, World.tick_ticked,
        hasRpc, hmtp]
    | ok n =>
      simp [rpcMedianTime, perform, Prog.run_bind, World.exec, World.effect, World.tick_ticked,
        hasRpc, hmtp]

/-- A median time that is read leaves the backends as they are. -/
theorem run_getMedianTimePast_pm (h : ((getMedianTimePast p).run (World.exec env) w).1 = .ok mtp) :
    ((getMedianTimePast p).run (World.exec env) w).2.pm p = w.pm p := by
  unfold getMedianTimePast at *
  rw [Prog.bind_eq, Prog.run_bind] at *
  obtain ⟨o, w', hrun, hpm⟩ := run_rpcMedianTime_pm env p w
  rw [hrun] at h ⊢
  cases o with
  | some n => exact hpm
  | none =>
    cases htry : (w'.pm p).chainHealth.shouldTryIndexer with
    | false => simp [perform, Prog.run_bind, World.exec, World.effect, htry, bail] at h
    | true =>
      cases hindexer : (w'.pm p).indexer with
      | false =>
        simp [perform, Prog.run_bind, World.exec, World.effect, htry, hindexer, bail] at h
      | true =>
        cases hmtp : env.indexerMtp (w'.tick + 2) with
        | error e =>
          simp [perform, Prog.run_bind, World.exec, World.effect, World.tick_ticked, htry,
            hindexer, hmtp, bail] at h
        | ok n =>
          simpa [perform, Prog.run_bind, World.exec, World.effect, World.tick_ticked, htry,
            hindexer, hmtp] using hpm

theorem backendUp_refreshMtpCache
    (h : ((refreshMtpCache p).run (World.exec env) w).1 = .ok mtp) (hup : BackendUp p w) :
    BackendUp p ((refreshMtpCache p).run (World.exec env) w).2 := by
  unfold refreshMtpCache at *
  rw [Prog.bind_eq, Prog.run_bind] at *
  rcases hrun : (getMedianTimePast p).run (World.exec env) w with ⟨o, w'⟩
  rw [hrun] at h
  cases o with
  | error e => cases h
  | ok n =>
    have hsame : w'.pm p = w.pm p := by
      have hpm := run_getMedianTimePast_pm (congrArg Prod.fst hrun)
      rwa [hrun] at hpm
    simpa [perform, Prog.run_bind, World.exec, World.effect, BackendUp, hsame] using hup

/-- A median time, cached or read, leaves a backend up. -/
theorem backendUp_of_seesMedian (h : SeesMedian env p w mtp) (hup : BackendUp p w) :
    BackendUp p ((getMedianTimePastCached p).run (World.exec env) w).2 := by
  unfold SeesMedian getMedianTimePastCached at *
  rw [Prog.bind_eq, Prog.run_bind] at *
  have hticked : BackendUp p w.ticked := by simpa [BackendUp] using hup
  cases hcache : (w.pm p).mtpCache with
  | none =>
    simp only [perform, Prog.run_perform, World.exec, World.effect, hcache] at h ⊢
    exact backendUp_refreshMtpCache h hticked
  | some cached =>
    obtain ⟨fetchedAt, n⟩ := cached
    simp only [perform, Prog.bind_eq, Prog.run_bind, Prog.run_perform, World.exec, World.effect,
      hcache] at h ⊢
    split at h
    · rename_i hfresh
      rw [if_pos hfresh]
      simpa [BackendUp] using hup
    · rename_i hold
      rw [if_neg hold]
      exact backendUp_refreshMtpCache h (by simpa [BackendUp] using hup)

/-- The gate leaves a backend up, if there are a height and a median time to read. -/
theorem backendUp_isLocktimeSatisfied (hheight : SeesHeight env p w height)
    (hmtp : SeesMedian env p w mtp) (nlocktime : Option Nat) :
    BackendUp p ((isLocktimeSatisfied p nlocktime).run (World.exec env) w).2 := by
  obtain ⟨hup, hafter⟩ := backendUp_of_seesHeight hheight
  by_cases hzero : nlocktime.getD 0 = 0
  · cases nlocktime with
    | none => exact hup
    | some n =>
      cases hzero
      exact hup
  · obtain ⟨n, rfl⟩ : ∃ n, nlocktime = some n := by
      cases nlocktime with
      | none => exact absurd rfl hzero
      | some n => exact ⟨n, rfl⟩
    by_cases htime : 500000000 < n
    · rw [isLocktimeSatisfied_time htime, Prog.run_bind]
      have hmedian := backendUp_of_seesMedian hmtp hup
      unfold SeesMedian at hmtp
      rcases hrun : (getMedianTimePastCached p).run (World.exec env) w with ⟨o, w'⟩
      rw [hrun] at hmtp hmedian
      cases hmtp
      exact hmedian
    · rw [isLocktimeSatisfied_height htime hzero, Prog.run_bind]
      unfold SeesHeight at hheight
      rcases hrun : (checkBlockHeight p).run (World.exec env) w with ⟨o, w'⟩
      rw [hrun] at hheight hafter
      cases hheight
      exact hafter

/-- With a backend up, `broadcast_transaction` hands the transaction to one. -/
theorem broadcastTransaction_handsOver (hup : BackendUp p w) (tx : BroadcastTx) :
    ∃ e ∈ (broadcastTransaction p tx).trace (World.exec env) w, e.2.handsOver = some tx := by
  unfold broadcastTransaction
  rw [Prog.bind_eq, Prog.trace_bind]
  by_cases hindexer : (w.pm p).chainHealth.shouldTryIndexer = true ∧ (w.pm p).indexer = true
  · obtain ⟨htry, hindexer⟩ := hindexer
    refine ⟨(w.ticked.ticked, .indexerBroadcast tx), List.mem_append_left _ ?_, rfl⟩
    simp [indexerVerdict, perform, Prog.perform, Prog.bind, Prog.trace, World.exec, World.effect,
      htry, hindexer]
  · have hrpc : (w.pm p).rpc = true := hup.resolve_left hindexer
    obtain ⟨w', hrun, hcore⟩ : ∃ w', (indexerVerdict p tx).run (World.exec env) w =
        (.ok none, w') ∧ (w'.pm p).rpc = true := by
      cases htry : (w.pm p).chainHealth.shouldTryIndexer with
      | false =>
        simp [indexerVerdict, perform, Prog.run_bind, World.exec, World.effect, htry, hrpc]
      | true =>
        have hnone : (w.pm p).indexer = false := by
          cases hhas : (w.pm p).indexer with
          | false => rfl
          | true => exact absurd ⟨htry, hhas⟩ hindexer
        simp [indexerVerdict, perform, Prog.run_bind, World.exec, World.effect, htry, hnone, hrpc]
    refine ⟨(w'.ticked, .rpcBroadcast tx), List.mem_append_right _ ?_, rfl⟩
    rw [hrun]
    simp [perform, Prog.perform, Prog.bind, Prog.trace, World.exec, World.effect, hcore,
      orRaise]

end Backends

section Now
variable {env : Env} {p : Proc} {w : World} {id : String} {tx : BroadcastTx}
  {height mtp : Nat}

/-- `broadcast_now` hands the row over to a backend. -/
def HandsOverNow (env : Env) (p : Proc) (w : World) (id : String) (tx : BroadcastTx) : Prop :=
  ∃ e ∈ (broadcastNow env p id).trace (World.exec env) w, e.2.handsOver = some tx

/-- What `broadcast_now` does before it looks at the row: it reads the flag and the row. -/
def readForNow (p : Proc) (id : String) : M BroadcastTx := do
  let _ ← perform (.isSafeMode p)
  getBroadcastTxById id

/-- A request for a row that `broadcast_now` can send, up to its lock, on a chain with a height
and a median time. -/
structure Sendable (env : Env) (p : Proc) (w : World) (id : String) (tx : BroadcastTx)
    (height mtp : Nat) : Prop where
  running : (w.pm p).safeMode = false
  reads : ((readForNow p id).run (World.exec env) w).1 = .ok tx
  verifies : tx.tampered = some false
  notBroadcast : tx.status ≠ .broadcast
  notConfirmed : tx.status ≠ .confirmed
  height : SeesHeight env p ((readForNow p id).run (World.exec env) w).2 height
  median : SeesMedian env p ((readForNow p id).run (World.exec env) w).2 mtp

/-- The hand-over, after the row has been read. -/
def nowAfterRead (env : Env) (p : Proc) (tx : BroadcastTx) : M String := do
  let locktimeOk ← locktimeOrRefuse p tx.nlocktime
  if locktimeOk then
    let txid ← broadcastTransaction p tx
    markBroadcast env p tx.id txid (tx.targetFeeRate.getD F64.zero)
    return txid
  else refuseNonFinal p tx.nlocktime

theorem refuseEmitted_eq (hbroadcast : tx.status ≠ .broadcast)
    (hconfirmed : tx.status ≠ .confirmed) : refuseEmitted tx.status = .ret () := by
  unfold refuseEmitted
  cases hstatus : tx.status with
  | broadcast => exact absurd hstatus hbroadcast
  | confirmed => exact absurd hstatus hconfirmed
  | _ => rfl

/-- A request for a sendable row reads the row, and then goes on with the lock. -/
theorem trace_broadcastNow (h : Sendable env p w id tx height mtp) :
    (broadcastNow env p id).trace (World.exec env) w =
      (readForNow p id).trace (World.exec env) w ++
        (nowAfterRead env p tx).trace (World.exec env)
          ((readForNow p id).run (World.exec env) w).2 := by
  have hreads := h.reads
  have hflag : (World.exec env (.isSafeMode p) w).1 = false := h.running
  have hprog : broadcastNow env p id = (perform (.isSafeMode p)).bind fun halted =>
      (ensure (halted = false) _).bind fun _ => (getBroadcastTxById id).bind fun tx =>
        if tx.tampered = some true then _ else _ := rfl
  unfold readForNow at hreads ⊢
  rw [hprog]
  simp only [Prog.bind_eq, Prog.trace_bind, Prog.run_bind, perform, Prog.run_perform] at hreads ⊢
  rcases hrun : (getBroadcastTxById id).run (World.exec env)
    (World.exec env (.isSafeMode p) w).2 with ⟨o, w'⟩
  rw [hrun] at hreads
  cases hreads
  have hrest : (if tx.tampered = some true then
        (Prog.perform (Act.enterSafeMode p tx.id)).bind fun _ =>
          bail "This row failed its integrity check — broadcasting halted."
      else (refuseEmitted tx.status).bind fun _ => nowAfterRead env p tx) =
        nowAfterRead env p tx := by
    rw [if_neg (by rw [h.verifies]; decide), refuseEmitted_eq h.notBroadcast h.notConfirmed]
    rfl
  rw [hflag]
  simp only [ensure, Prog.ensure, if_true, Prog.trace, Prog.run_ret, List.nil_append, hrun,
    List.append_assoc]
  exact congrArg _ (congrArg _ (congrArg (fun rest => rest.trace (World.exec env) w') hrest))

/-- The check of the lock goes on with the answer of the gate. -/
theorem run_locktimeOrRefuse {nlocktime : Option Nat} {b : Bool}
    (hgate : GateReturns env p w nlocktime b) :
    (locktimeOrRefuse p nlocktime).run (World.exec env) w =
      (.ok b, ((isLocktimeSatisfied p nlocktime).run (World.exec env) w).2) := by
  unfold GateReturns at hgate
  unfold locktimeOrRefuse
  rw [Prog.bind_eq, Prog.run_bind, run_catchErr]
  generalize (isLocktimeSatisfied p nlocktime).run (World.exec env) w = run at hgate
  obtain ⟨o, w'⟩ := run
  cases hgate
  rfl

variable (env tx) in
/-- A quiet part of a request hands nothing over. -/
theorem not_handsOver_of_isQuiet {α : Type} {prog : M α} (h : IsQuiet prog) (w : World) :
    ∀ e ∈ prog.trace (World.exec env) w, e.2.handsOver ≠ some tx := by
  intro e he
  have hquiet := Prog.trace_of_uses _ h w e he
  rw [(no_write_of_isQuiet hquiet).2.2.2]
  simp

/-- After the row has been read, it is handed over exactly if the gate is open for the column. -/
theorem nowAfterRead_handsOver_iff (hheight : SeesHeight env p w height)
    (hmtp : SeesMedian env p w mtp) :
    (∃ e ∈ (nowAfterRead env p tx).trace (World.exec env) w, e.2.handsOver = some tx) ↔
      gateOpen (tx.nlocktime.getD 0) height mtp = true := by
  have hgate := gate_returns_column hheight hmtp tx.nlocktime
  unfold nowAfterRead
  rw [Prog.bind_eq, Prog.trace_bind, run_locktimeOrRefuse hgate]
  have hcheck := not_handsOver_of_isQuiet env tx
    (clock_locktimeOrRefuse p tx.nlocktime).quiet w
  cases hopen : gateOpen (tx.nlocktime.getD 0) height mtp with
  | true =>
    refine iff_of_true ?_ rfl
    obtain ⟨e, he, hover⟩ := broadcastTransaction_handsOver
      (backendUp_isLocktimeSatisfied hheight hmtp tx.nlocktime) tx
    refine ⟨e, List.mem_append_right _ ?_, hover⟩
    simp only [if_true, Prog.bind_eq, Prog.trace_bind]
    exact List.mem_append_left _ he
  | false =>
    refine iff_of_false ?_ (by simp)
    rintro ⟨e, he, hover⟩
    rcases List.mem_append.1 he with he | he
    · exact hcheck e he hover
    · exact not_handsOver_of_isQuiet env tx (clock_refuseNonFinal p tx.nlocktime).quiet _ e he hover

/-- `broadcast_now` hands a sendable row over if and only if the gate is open for its column. -/
theorem handsOverNow_iff (h : Sendable env p w id tx height mtp) :
    HandsOverNow env p w id tx ↔ gateOpen (tx.nlocktime.getD 0) height mtp = true := by
  rw [← nowAfterRead_handsOver_iff h.height h.median]
  unfold HandsOverNow
  rw [trace_broadcastNow h]
  have hread : ∀ e ∈ (readForNow p id).trace (World.exec env) w, e.2.handsOver ≠ some tx := by
    intro e he
    unfold readForNow at he
    rw [Prog.bind_eq, Prog.trace_bind] at he
    rcases List.mem_append.1 he with he | he
    · rw [List.mem_singleton.1 he]
      simp [Act.handsOver]
    · exact not_handsOver_of_isQuiet env tx (quiet_getBroadcastTxById id) _ e he
  constructor
  · rintro ⟨e, he, hover⟩
    rcases List.mem_append.1 he with he | he
    · exact absurd hover (hread e he)
    · exact ⟨e, he, hover⟩
  · rintro ⟨e, he, hover⟩
    exact ⟨e, List.mem_append_right _ he, hover⟩

/-! ### The signed lock -/

/-- The lock that is signed into the transaction of a row is reached. -/
def SignedFinal (env : Env) (tx : BroadcastTx) (height mtp : Nat) : Prop :=
  ∃ t, decodeTx env tx.txHex = .ok t ∧ IsFinal t.lockTime height mtp

theorem signedFinal_iff {t : Transaction} (hdecode : decodeTx env tx.txHex = .ok t) :
    SignedFinal env tx height mtp ↔ IsFinal t.lockTime height mtp := by
  constructor
  · rintro ⟨t', hdecode', hfinal⟩
    rw [hdecode] at hdecode'
    cases hdecode'
    exact hfinal
  · intro hfinal
    exact ⟨t, hdecode, hfinal⟩

/-- The gate gives the answer of consensus about the signed lock, although it looks at the column:
an import has to be final, a capture must not be locked until the median time itself nor until
500000000, and a virtual block has to be reached exactly if the signed lock is final. (A capture
at 500000000 is told correctly if height and median time are on the same side of it.) -/
def LockSource.Tells (env : Env) (tx : BroadcastTx) (height mtp : Nat) : LockSource → Prop
  | .imported => SignedFinal env tx height mtp
  | .signed => ∀ t, decodeTx env tx.txHex = .ok t →
      (t.lockTime = 500000000 → (t.lockTime ≤ height ↔ t.lockTime < mtp)) ∧
        (500000000 < t.lockTime → t.lockTime ≠ mtp)
  | .virtualBlock target => gateOpen target height mtp = true ↔ SignedFinal env tx height mtp

/-- The gate for the column of a row agrees with consensus about its signed lock exactly where the
source of the column tells it. -/
theorem LockSource.tells_iff {source : LockSource} {r : Row} {now : DateTime}
    (hfits : source.Fits env r) (hreads : ReadsAs env now r tx) :
    (gateOpen (tx.nlocktime.getD 0) height mtp = true ↔ SignedFinal env tx height mtp) ↔
      source.Tells env tx height mtp := by
  -- The column of the row as it is read.
  have hcolumn : ∀ n : Nat, r.nlocktime = some (n : Int) → tx.nlocktime.getD 0 = n := by
    intro n hn
    have hmap := hreads.nlocktime.1
    rw [hn] at hmap
    cases hlock : tx.nlocktime with
    | none =>
      rw [hlock] at hmap
      cases hmap
    | some m =>
      rw [hlock] at hmap
      exact (Int.ofNat.inj (Option.some.inj hmap)).symm
  cases source with
  | imported =>
    rw [hcolumn 0 hfits]
    show (true = true ↔ SignedFinal env tx height mtp) ↔ SignedFinal env tx height mtp
    simp
  | signed =>
    obtain ⟨t, hdecode, hlock⟩ := hfits
    have hdecode' : decodeTx env tx.txHex = .ok t := by
      rw [hreads.txHex]
      exact hdecode
    rw [hcolumn _ hlock, signedFinal_iff hdecode', gateOpen_iff_final]
    constructor
    · intro h t' ht'
      rw [hdecode'] at ht'
      cases ht'
      exact h
    · exact fun h => h t hdecode'
  | virtualBlock target =>
    rw [hcolumn target hfits]
    exact Iff.rfl

/-- The row that `broadcast_now` reads is one of the table. -/
theorem mem_of_readForNow (h : ((readForNow p id).run (World.exec env) w).1 = .ok tx) :
    ∃ r ∈ w.pool, ∃ now, ReadsAs env now r tx := by
  have hgives : Prog.Gives ((World.exec env).contract (fun _ _ => True) fun _ _ => True)
      (fun w' => w'.pool = w.pool) (fun tx => ∃ r ∈ w.pool, ∃ now, ReadsAs env now r tx)
      (readForNow p id) := by
    refine Prog.gives_bind (P := fun _ => True) ?_ fun _ _ => ?_
    · refine (Prog.keeps_of_uses (fun a ha w' hw' _ => ⟨trivial, fun r w'' hstep => ?_⟩)
        (uses_act (P := fun a => a = .isSafeMode p) rfl)).gives
      subst ha
      cases hstep
      exact hw'
    · refine gives_getBroadcastTxById (fun w' hw' => ⟨trivial, hw'⟩) ?_
      exact fun w' hw' tx now r hr _ hreads => ⟨r, hw' ▸ hr, now, hreads⟩
  have hrun := (Prog.run_trace_of_wp (World.exec env) _ w (hgives w rfl) fun _ _ => trivial).1
  rw [h] at hrun
  exact hrun.2 tx rfl

end Now

/-- Take any interleaving of the program's work from an empty table, where imports bring no
locktime, and a row that `broadcast_now` can send then. `broadcast_now` hands it over exactly if
the lock of its signed transaction is reached, if and only if the source of its column tells that
lock. The source is the one of the work that has inserted the row. -/
theorem broadcast_now_final_iff (env : Env) (hseal : env.SealOpens) (w : World)
    (hempty : w.pool = []) (os : List (Order Activity))
    (himports : ∀ a, Order.start a ∈ os → a.ImportsUnlocked)
    (hids : DistinctIds w ((workDeeds env w os).map Deed.toPerformed)) {p : Proc} {id : String}
    {tx : BroadcastTx} {height mtp : Nat}
    (h : Sendable env p (Config.exec (World.exec env) ⟨w, []⟩ (workSchedule env os)).state id tx
      height mtp) :
    ∃ source ∈ lockSourceOf (workDeeds env w os) tx.id,
      ((HandsOverNow env p
          (Config.exec (World.exec env) ⟨w, []⟩ (workSchedule env os)).state id tx ↔
        SignedFinal env tx height mtp) ↔ source.Tells env tx height mtp) := by
  obtain ⟨r, hr, now, hreads⟩ := mem_of_readForNow h.reads
  obtain ⟨source, hsource, hfits⟩ := fits_of_reached hseal hempty himports hids r hr
  refine ⟨source, hreads.id ▸ hsource, ?_⟩
  rw [handsOverNow_iff h]
  exact LockSource.tells_iff hfits hreads

/-- A daemon with a virtual block at 110 and an empty table. -/
def emptyWorld : World := armedWorld 110 100

/-- An import, and a broadcast from Liana at the same time. -/
def importAndCapture : List (Order Activity) :=
  [.start (.importTx sampleImport), .start (.ingest "07" "liana")] ++
    (List.replicate 14 [.step 0, .step 1]).flatten

/-- The world that they leave. -/
def capturedWorld : World :=
  (Config.exec (World.exec sampleEnv) ⟨emptyWorld, []⟩
    (workSchedule sampleEnv importAndCapture)).state

/-- The imported row as `broadcast_now` reads it. -/
def importedTx : BroadcastTx :=
  ((readForNow .daemon "id0").run (World.exec sampleEnv) capturedWorld).1.toOption.get
    (by decide +kernel)

/-- The row from Liana. -/
def capturedTx : BroadcastTx :=
  ((readForNow .daemon "id10").run (World.exec sampleEnv) capturedWorld).1.toOption.get
    (by decide +kernel)

theorem importedTx_sendable :
    Sendable sampleEnv .daemon capturedWorld "id0" importedTx 100 1700000000 where
  running := by decide +kernel
  reads := by decide +kernel
  verifies := by decide +kernel
  notBroadcast := by decide +kernel
  notConfirmed := by decide +kernel
  height := by unfold SeesHeight; decide +kernel
  median := by unfold SeesMedian; decide +kernel

theorem capturedTx_sendable :
    Sendable sampleEnv .daemon capturedWorld "id10" capturedTx 100 1700000000 where
  running := by decide +kernel
  reads := by decide +kernel
  verifies := by decide +kernel
  notBroadcast := by decide +kernel
  notConfirmed := by decide +kernel
  height := by unfold SeesHeight; decide +kernel
  median := by unfold SeesMedian; decide +kernel

/-- Neither transaction has a lock. The imported one is handed over, and the target of the
virtual block stops the other. -/
theorem broadcast_now_final_importAndCapture :
    (HandsOverNow sampleEnv .daemon capturedWorld "id0" importedTx ↔
      SignedFinal sampleEnv importedTx 100 1700000000) ∧
    ¬ (HandsOverNow sampleEnv .daemon capturedWorld "id10" capturedTx ↔
      SignedFinal sampleEnv capturedTx 100 1700000000) := by
  have himports : ∀ a, Order.start a ∈ importAndCapture → a.ImportsUnlocked := by
    intro a ha
    rcases List.mem_append.1 ha with ha | ha
    · simp only [List.mem_cons, Order.start.injEq, List.not_mem_nil, or_false] at ha
      rcases ha with rfl | rfl
      · exact rfl
      · trivial
    · simp at ha
  have hids : DistinctIds emptyWorld
      ((workDeeds sampleEnv emptyWorld importAndCapture).map Deed.toPerformed) := by
    decide +kernel
  obtain ⟨source, hsource, himported⟩ := broadcast_now_final_iff sampleEnv (fun _ _ _ => rfl)
    emptyWorld rfl importAndCapture himports hids importedTx_sendable
  obtain ⟨source', hsource', hcaptured⟩ := broadcast_now_final_iff sampleEnv (fun _ _ _ => rfl)
    emptyWorld rfl importAndCapture himports hids capturedTx_sendable
  have hfinal : SignedFinal sampleEnv importedTx 100 1700000000 :=
    ⟨⟨7, 0, [], []⟩, by decide +kernel, by decide⟩
  have hfinal' : SignedFinal sampleEnv capturedTx 100 1700000000 :=
    ⟨⟨7, 0, [], []⟩, by decide +kernel, by decide⟩
  have heq : source = .imported := Option.some.inj (hsource.symm.trans (by decide +kernel))
  have heq' : source' = .virtualBlock 110 :=
    Option.some.inj (hsource'.symm.trans (by decide +kernel))
  subst heq heq'
  refine ⟨himported.2 hfinal, fun hagree => ?_⟩
  have hopen : gateOpen 110 100 1700000000 = true := (hcaptured.1 hagree).2 hfinal'
  exact absurd hopen (by decide)

/-- The transaction from Liana has no lock, and the target of the virtual block stops it. -/
theorem broadcast_now_stopped_by_virtual_block :
    Sendable sampleEnv .daemon capturedWorld "id10" capturedTx 100 1700000000 ∧
      decodeTx sampleEnv capturedTx.txHex =
        .ok { version := 7, lockTime := 0, input := [], output := [] } ∧
      ¬ (HandsOverNow sampleEnv .daemon capturedWorld "id10" capturedTx ↔
        SignedFinal sampleEnv capturedTx 100 1700000000) := by
  refine ⟨capturedTx_sendable, by decide +kernel, fun hagree => ?_⟩
  have hover := hagree.2 ⟨⟨7, 0, [], []⟩, by decide +kernel, by decide⟩
  rw [handsOverNow_iff capturedTx_sendable] at hover
  revert hover
  decide +kernel

end BroadcastPool
