import BroadcastPool.Proofs.Locktime

/-!
# `BroadcastPool.Proofs.Serving`: the due check while the chain stands still

`Env.StandsStill` is the outside world of one call: the backends that the daemon asks give the
same height and the same median time every time. A daemon in it (`Steady`) gets an answer to
every question about the chain, if it has a backend that it asks. So the gate returns what it
returns for that height and that median time (`returns_isLocktimeSatisfied`), a scheduled
transaction is due if its release time has come and the gate is open
(`returns_isTxDueForBroadcast`), and a transaction is handed over (`wp_broadcastTransaction`).

`Env.serving now height` is the world in which nothing fails either, the clock is `now`, and every
backend has reached `height` (`Serving.steady`).
-/

set_option autoImplicit false

namespace BroadcastPool

open Effects

/-- The daemon asks the indexer. -/
def PoolManager.asksIndexer (m : PoolManager) : Bool :=
  m.indexer && m.chainHealth.shouldTryIndexer

/-- The backends that are asked give one height and one median time. -/
structure Env.StandsStill (env : Env) (rpc asked : Bool) (height mtp : Nat) : Prop where
  indexerHeight : asked = true → ∀ t, env.indexerHeight t = .ok height
  rpcHeight : asked = false → rpc = true → ∀ t, env.rpcHeight t = .ok height
  rpcMtp : rpc = true → ∀ t, env.rpcMtp t = .ok mtp
  indexerMtp : rpc = false → asked = true → ∀ t, env.indexerMtp t = .ok mtp

/-- A cached median time is this one, or has expired. -/
def CacheHolds (env : Env) (mtp : Nat) (cache : Option (Nat × Nat)) : Prop :=
  ∀ fetchedAt cached, cache = some (fetchedAt, cached) →
    ∀ t, env.instant t - fetchedAt < 30000000000 → cached = mtp

/-- A contract without requirements. -/
abbrev servedContract (env : Env) (assumed : World → Act → Prop) :
    Contract Act Act.Res World :=
  (World.exec env).contract assumed fun _ _ => True

/-- The table and the network of the daemon. -/
def Tabled (pool : List Row) (network : String) (w : World) : Prop :=
  w.pool = pool ∧ w.daemon.config.network = network

/-- A daemon out of safe mode over the table `pool`, with its backends and what it has cached. -/
structure Steady (env : Env) (pool : List Row) (network : String) (rpc indexer asked : Bool)
    (mtp : Nat) (w : World) : Prop where
  tabled : Tabled pool network w
  safeMode : w.daemon.safeMode = false
  hasRpc : w.daemon.rpc = rpc
  hasIndexer : w.daemon.indexer = indexer
  asks : w.daemon.asksIndexer = asked
  cache : CacheHolds env mtp w.daemon.mtpCache

/-- The release time of a transaction has come. -/
def ReleaseReached (tx : BroadcastTx) (now : DateTime) : Prop :=
  match tx.deferUntil with
  | some deferUntil => deferUntil ≤ now
  | none => ∃ t, tx.scheduledTime = some t ∧ t ≤ now

/-- A scheduled transaction is due at this time, on a chain of this height and median time. -/
def BroadcastTx.DueAt (tx : BroadcastTx) (now : DateTime) (height mtp : Nat) : Prop :=
  ReleaseReached tx now ∧ gateOpen (tx.nlocktime.getD 0) height mtp = true

instance (tx : BroadcastTx) (now : DateTime) : Decidable (ReleaseReached tx now) :=
  match h : tx.deferUntil, h' : tx.scheduledTime with
  | some deferUntil, _ => decidable_of_iff (deferUntil ≤ now) (by simp [ReleaseReached, h])
  | none, some t => decidable_of_iff (t ≤ now) (by simp [ReleaseReached, h, h'])
  | none, none => isFalse (by simp [ReleaseReached, h, h'])

instance (tx : BroadcastTx) (now : DateTime) (height mtp : Nat) :
    Decidable (tx.DueAt now height mtp) :=
  inferInstanceAs (Decidable (_ ∧ _))

section
variable {env : Env} {pool : List Row} {network : String} {rpc indexer asked : Bool}
  {height mtp : Nat} {now : DateTime} {assumed : World → Act → Prop}

theorem Steady.ticked {w : World} (h : Steady env pool network rpc indexer asked mtp w) :
    Steady env pool network rpc indexer asked mtp w.ticked :=
  ⟨h.tabled, h.safeMode, h.hasRpc, h.hasIndexer, h.asks, h.cache⟩

/-- An action that changes nothing. -/
theorem returns_read {a : Act} {P : a.Res → Prop}
    (hread : ∀ w, (World.exec env a w).2 = w.ticked)
    (hP : ∀ w, Steady env pool network rpc indexer asked mtp w → P (World.exec env a w).1) :
    Prog.Returns (servedContract env assumed)
      (Steady env pool network rpc indexer asked mtp) P (perform a : M a.Res) := by
  refine Prog.returns_perform_handler _ fun w hw => ⟨trivial, ?_, hP w hw⟩
  rw [hread w]
  exact hw.ticked

theorem returns_hasRpc :
    Prog.Returns (servedContract env assumed)
      (Steady env pool network rpc indexer asked mtp) (fun up : Bool => up = rpc)
      (perform (.hasRpc .daemon) : M Bool) :=
  returns_read (fun _ => rfl) fun _ hw => hw.hasRpc

theorem returns_hasIndexer :
    Prog.Returns (servedContract env assumed)
      (Steady env pool network rpc indexer asked mtp) (fun up : Bool => up = indexer)
      (perform (.hasIndexer .daemon) : M Bool) :=
  returns_read (fun _ => rfl) fun _ hw => hw.hasIndexer

/-- The chain health says whether the indexer is asked. -/
theorem returns_chainHealth :
    Prog.Returns (servedContract env assumed)
      (Steady env pool network rpc indexer asked mtp)
      (fun h : ChainHealth => (indexer && h.shouldTryIndexer) = asked)
      (perform (.chainHealth .daemon) : M ChainHealth) := by
  refine returns_read (fun _ => rfl) fun w hw => ?_
  have hasks : (w.daemon.indexer && w.daemon.chainHealth.shouldTryIndexer) = asked := hw.asks
  rw [hw.hasIndexer] at hasks
  exact hasks

section Chain
variable (hstill : env.StandsStill rpc asked height mtp)

include hstill

theorem returns_indexerBlockHeight :
    Prog.Returns (servedContract env assumed)
      (Steady env pool network rpc indexer asked mtp)
      (fun o => o = if asked then some height else none) (indexerBlockHeight .daemon) := by
  refine Prog.returns_bind returns_chainHealth fun health hasked => ?_
  by_cases htry : health.shouldTryIndexer = true
  · rw [if_pos htry]
    have hasked : (indexer && health.shouldTryIndexer) = asked := hasked
    rw [htry, Bool.and_true] at hasked
    refine Prog.returns_bind returns_hasIndexer fun up hup => ?_
    show Prog.Returns _ _ _ (if _ then _ else _)
    by_cases hasks : asked = true
    · rw [if_pos ((hup.trans hasked).trans hasks), if_pos hasks]
      have hanswer : Prog.Returns (servedContract env assumed)
          (Steady env pool network rpc indexer asked mtp)
          (fun o : Except String Nat => o = .ok height)
          (perform .indexerHeight : M (Except String Nat)) :=
        returns_read (fun _ => rfl) fun w _ => hstill.indexerHeight hasks w.tick
      refine Prog.returns_bind hanswer fun o ho => ?_
      rw [ho]
      refine Prog.returns_bind (P := fun _ => True) ?_ fun _ _ => Prog.returns_ret rfl
      refine Prog.returns_perform_handler _ fun w hw => ⟨trivial, ?_, trivial⟩
      have hsuccess : (w.daemon.indexer && ChainHealth.shouldTryIndexer
          (ChainHealth.noteIndexerSuccess height w.daemon.chainHealth)) = asked := by
        rw [hw.hasIndexer, hasked]
        exact Bool.and_true asked
      exact ⟨hw.tabled, hw.safeMode, hw.hasRpc, hw.hasIndexer, hsuccess, hw.cache⟩
    · rw [if_neg fun h => hasks ((hup.trans hasked).symm.trans h), if_neg hasks]
      exact Prog.returns_ret rfl
  · rw [if_neg htry]
    have hasked : (indexer && health.shouldTryIndexer) = asked := hasked
    rw [Bool.eq_false_iff.2 htry, Bool.and_false] at hasked
    rw [← hasked]
    exact Prog.returns_ret rfl

theorem returns_rpcMedianTime :
    Prog.Returns (servedContract env assumed)
      (Steady env pool network rpc indexer asked mtp)
      (fun o => o = if rpc then some mtp else none) (rpcMedianTime .daemon) := by
  refine Prog.returns_bind returns_hasRpc fun up hup => ?_
  rw [hup]
  by_cases hrpc : rpc = true
  · rw [if_pos hrpc, if_pos hrpc]
    have hanswer : Prog.Returns (servedContract env assumed)
        (Steady env pool network rpc indexer asked mtp)
        (fun o : Except String Nat => o = .ok mtp)
        (perform .rpcMtp : M (Except String Nat)) :=
      returns_read (fun _ => rfl) fun w _ => hstill.rpcMtp hrpc w.tick
    refine Prog.returns_bind hanswer fun o ho => ?_
    rw [ho]
    exact Prog.returns_ret rfl
  · rw [if_neg hrpc, if_neg hrpc]
    exact Prog.returns_ret rfl

variable (hup : rpc = true ∨ asked = true)

include hup

/-- The chain height is known. -/
theorem returns_checkBlockHeight :
    Prog.Returns (servedContract env assumed)
      (Steady env pool network rpc indexer asked mtp) (fun o => o = some height)
      (checkBlockHeight .daemon) := by
  refine Prog.returns_bind (returns_indexerBlockHeight hstill) fun o ho => ?_
  rw [ho]
  by_cases hasks : asked = true
  · rw [if_pos hasks]
    exact Prog.returns_ret rfl
  · rw [if_neg hasks]
    have hrpc : rpc = true := hup.resolve_right hasks
    refine Prog.returns_bind returns_hasRpc fun up hup => ?_
    show Prog.Returns _ _ _ (if _ then _ else _)
    rw [if_pos (hup.trans hrpc)]
    have hanswer : Prog.Returns (servedContract env assumed)
        (Steady env pool network rpc indexer asked mtp)
        (fun o : Except String Nat => o = .ok height)
        (perform .rpcHeight : M (Except String Nat)) :=
      returns_read (fun _ => rfl) fun w _ =>
        hstill.rpcHeight (Bool.eq_false_iff.2 hasks) hrpc w.tick
    refine Prog.returns_bind hanswer fun o ho => ?_
    rw [ho]
    exact Prog.returns_ret rfl

/-- So is the median time. -/
theorem returns_getMedianTimePast :
    Prog.Returns (servedContract env assumed)
      (Steady env pool network rpc indexer asked mtp) (fun m => m = mtp)
      (getMedianTimePast .daemon) := by
  refine Prog.returns_bind (returns_rpcMedianTime hstill) fun o ho => ?_
  rw [ho]
  by_cases hrpc : rpc = true
  · rw [if_pos hrpc]
    exact Prog.returns_ret rfl
  · rw [if_neg hrpc]
    have hasks : asked = true := hup.resolve_left hrpc
    refine Prog.returns_bind returns_chainHealth fun health hasked => ?_
    rw [hasks, Bool.and_eq_true] at hasked
    show Prog.Returns _ _ _ (if _ then _ else _)
    rw [if_pos hasked.2]
    refine Prog.returns_bind returns_hasIndexer fun up hindexer => ?_
    show Prog.Returns _ _ _ (if _ then _ else _)
    rw [if_pos (hindexer.trans hasked.1)]
    have hanswer : Prog.Returns (servedContract env assumed)
        (Steady env pool network rpc indexer asked mtp)
        (fun o : Except String Nat => o = .ok mtp)
        (perform .indexerMtp : M (Except String Nat)) :=
      returns_read (fun _ => rfl) fun w _ =>
        hstill.indexerMtp (Bool.eq_false_iff.2 hrpc) hasks w.tick
    refine Prog.returns_bind hanswer fun o ho => ?_
    rw [ho]
    exact Prog.returns_ret rfl

theorem returns_refreshMtpCache :
    Prog.Returns (servedContract env assumed)
      (Steady env pool network rpc indexer asked mtp) (fun m => m = mtp)
      (refreshMtpCache .daemon) := by
  have hinstant : Prog.Returns (servedContract env assumed)
      (Steady env pool network rpc indexer asked mtp) (fun _ : Nat => True)
      (perform .instant : M Nat) :=
    returns_read (fun _ => rfl) fun _ _ => trivial
  refine Prog.returns_bind (returns_getMedianTimePast hstill hup) fun m hm => ?_
  refine Prog.returns_bind hinstant fun fetchedAt _ => ?_
  refine Prog.returns_bind (P := fun _ => True) ?_ fun _ _ => Prog.returns_ret hm
  refine Prog.returns_perform_handler _ fun w hw => ⟨trivial, ?_, trivial⟩
  refine ⟨hw.tabled, hw.safeMode, hw.hasRpc, hw.hasIndexer, hw.asks, fun f c h t _ => ?_⟩
  cases h
  exact hm

theorem returns_getMedianTimePastCached :
    Prog.Returns (servedContract env assumed)
      (Steady env pool network rpc indexer asked mtp) (fun m => m = mtp)
      (getMedianTimePastCached .daemon) := by
  have hcache : Prog.Returns (servedContract env assumed)
      (Steady env pool network rpc indexer asked mtp) (CacheHolds env mtp)
      (perform (.readMtpCache .daemon) : M (Option (Nat × Nat))) :=
    returns_read (fun _ => rfl) fun w hw => hw.cache
  refine Prog.returns_bind hcache fun c hc => ?_
  cases c with
  | none => exact returns_refreshMtpCache hstill hup
  | some entry =>
    obtain ⟨fetchedAt, cached⟩ := entry
    have hinstant : Prog.Returns (servedContract env assumed)
        (Steady env pool network rpc indexer asked mtp)
        (fun t : Nat => t - fetchedAt < 30000000000 → cached = mtp)
        (perform .instant : M Nat) :=
      returns_read (fun _ => rfl) fun w _ => hc fetchedAt cached rfl w.tick
    refine Prog.returns_bind hinstant fun t ht => ?_
    show Prog.Returns _ _ _ (if _ then _ else _)
    split
    · rename_i hfresh
      exact Prog.returns_ret (ht hfresh)
    · exact returns_refreshMtpCache hstill hup

/-- The gate returns what it returns for this height and this median time. -/
theorem returns_isLocktimeSatisfied (nlocktime : Option Nat) :
    Prog.Returns (servedContract env assumed)
      (Steady env pool network rpc indexer asked mtp)
      (fun ok => ok = gateOpen (nlocktime.getD 0) height mtp)
      (isLocktimeSatisfied .daemon nlocktime) := by
  cases nlocktime with
  | none => exact Prog.returns_ret rfl
  | some n =>
    show Prog.Returns _ _ (fun ok => ok = gateOpen n height mtp) _
    unfold gateOpen
    by_cases hzero : n = 0
    · rw [hzero]
      exact Prog.returns_ret rfl
    · rw [if_neg hzero]
      by_cases htime : 500000000 < n
      · rw [isLocktimeSatisfied_time htime, if_pos htime]
        refine Prog.returns_bind (returns_getMedianTimePastCached hstill hup) fun m hm => ?_
        rw [hm]
        exact Prog.returns_ret rfl
      · rw [isLocktimeSatisfied_height htime hzero, if_neg htime]
        refine Prog.returns_bind (returns_checkBlockHeight hstill hup) fun o ho => ?_
        rw [ho]
        exact Prog.returns_ret rfl

/-- A scheduled transaction is due once its release time has come and the gate is open. -/
theorem returns_isTxDueForBroadcast (tx : BroadcastTx) :
    Prog.Returns (servedContract env assumed)
      (Steady env pool network rpc indexer asked mtp)
      (fun due => tx.status = .scheduled → (due = true ↔ tx.DueAt now height mtp))
      (isTxDueForBroadcast .daemon tx now) := by
  unfold isTxDueForBroadcast
  split
  · rename_i h
    refine Prog.returns_ret fun hstatus => ?_
    rw [h.2] at hstatus
    cases hstatus
  · refine Prog.returns_bind (returns_isLocktimeSatisfied hstill hup tx.nlocktime) fun ok hok => ?_
    unfold BroadcastTx.DueAt ReleaseReached
    rw [← hok]
    cases tx.deferUntil with
    | some deferUntil =>
      by_cases hearly : now < deferUntil
      · show Prog.Returns _ _ _ (if _ then _ else _)
        rw [if_pos hearly]
        refine Prog.returns_ret ?_
        intro _
        exact ⟨fun h => (by cases h), fun h => absurd hearly (not_lt.2 h.1)⟩
      · show Prog.Returns _ _ _ (if _ then _ else _)
        rw [if_neg hearly]
        refine Prog.returns_ret ?_
        intro _
        exact ⟨fun h => ⟨not_lt.1 hearly, h⟩, fun h => h.2⟩
    | none =>
      by_cases hreached : tx.scheduledTime.any (· ≤ now) = true
      · show Prog.Returns _ _ _ (if _ then _ else _)
        rw [if_pos hreached]
        refine Prog.returns_ret ?_
        intro _
        obtain ⟨hsome, hle⟩ := (Option.any_eq_true_iff_get _ _).1 hreached
        exact ⟨fun h => ⟨⟨_, (Option.some_get hsome).symm, of_decide_eq_true hle⟩, h⟩,
          fun h => h.2⟩
      · show Prog.Returns _ _ _ (if _ then _ else _)
        rw [if_neg hreached]
        refine Prog.returns_ret ?_
        intro _
        refine ⟨fun h => (by cases h), ?_⟩
        rintro ⟨⟨t, ht, hle⟩, -⟩
        refine absurd ?_ hreached
        rw [ht]
        exact decide_eq_true hle

end Chain

/-- A transaction cannot be taken through `broadcast_transaction` without a hand-over. -/
theorem wp_broadcastTransaction (hup : rpc = true ∨ asked = true) (tx : BroadcastTx)
    {Q : Except Failure String → World → Prop} {w : World}
    (hw : Steady env pool network rpc indexer asked mtp w) :
    (broadcastTransaction .daemon tx).wp
      (servedContract env fun _ a => a.handsOver = none) Q w := by
  have hrest : rpc = true → ∀ (refuse : M String) w,
      Steady env pool network rpc indexer asked mtp w →
      (do
        if ← perform (.hasRpc .daemon) then orRaise (perform (.rpcBroadcast tx))
        else refuse : M String).wp (servedContract env fun _ a => a.handsOver = none) Q w := by
    intro hrpc refuse w hw
    refine returns_hasRpc.wp_bind (fun up hup w hw => ?_) hw
    show Prog.wp _ (if _ then _ else _) _ _
    rw [if_pos (hup.trans hrpc)]
    exact (wp_orRaise _ _ _).2 (Prog.wp_perform_excluded fun h => by cases h)
  refine (Prog.wp_bind _ _ _ _).2 ?_
  refine returns_chainHealth.wp_bind (fun health hasked w hw => ?_) hw
  show Prog.wp _ (if _ then _ else _) _ _
  split
  · rename_i htry
    refine returns_hasIndexer.wp_bind (fun up hindexer w hw => ?_) hw
    show Prog.wp _ (if _ then _ else _) _ _
    split
    · refine (Prog.wp_bind _ _ _ _).2 ?_
      exact Prog.wp_perform_excluded fun h => by cases h
    · rename_i hdown
      rw [Prog.pure_eq_ret, Prog.wp_ret]
      refine hrest (hup.resolve_right fun hasks => ?_) _ w hw
      rw [hasks, Bool.and_eq_true] at hasked
      exact hdown (hindexer.trans hasked.1)
  · rename_i hskip
    rw [Prog.pure_eq_ret, Prog.wp_ret]
    refine hrest (hup.resolve_right fun hasks => ?_) _ w hw
    rw [hasks, Bool.and_eq_true] at hasked
    exact hskip hasked.2

end

/-! ### A chain where nothing fails -/

/-- The outside world in which the clock is `now`, every backend has reached `height`, and
nothing fails. -/
def Env.serving (env : Env) (now : DateTime) (height : Nat) : Env :=
  { env with
    clock := fun _ => now
    instant := fun _ => 0
    dbFault := fun _ => none
    configPoisoned := fun _ => false
    indexerHeight := fun _ => .ok height
    indexerMtp := fun _ => .ok height
    rpcHeight := fun _ => .ok height
    rpcMtp := fun _ => .ok height }

/-- A daemon out of safe mode with a backend that it asks, over the table `pool`. -/
structure Serving (pool : List Row) (network : String) (rpc indexer : Bool) (height : Nat)
    (w : World) : Prop where
  tabled : Tabled pool network w
  safeMode : w.daemon.safeMode = false
  hasRpc : w.daemon.rpc = rpc
  hasIndexer : w.daemon.indexer = indexer
  asks : rpc = true ∨ indexer = true ∧ w.daemon.chainHealth.shouldTryIndexer = true
  cache : ∀ fetchedAt mtp, w.daemon.mtpCache = some (fetchedAt, mtp) → mtp = height

theorem standsStill_serving (env : Env) (now : DateTime) (height : Nat) (rpc asked : Bool) :
    (env.serving now height).StandsStill rpc asked height height :=
  ⟨fun _ _ => rfl, fun _ _ _ => rfl, fun _ _ => rfl, fun _ _ _ => rfl⟩

theorem Serving.steady {pool : List Row} {network : String} {rpc indexer : Bool} {height : Nat}
    {w : World} (h : Serving pool network rpc indexer height w) (env : Env) (now : DateTime) :
    Steady (env.serving now height) pool network rpc indexer w.daemon.asksIndexer height w ∧
      (rpc = true ∨ w.daemon.asksIndexer = true) := by
  refine ⟨⟨h.tabled, h.safeMode, h.hasRpc, h.hasIndexer, rfl,
    fun f c hcache _ _ => h.cache f c hcache⟩, h.asks.imp_right fun hasks => ?_⟩
  unfold PoolManager.asksIndexer
  rw [h.hasIndexer, hasks.1, hasks.2]
  rfl

end BroadcastPool
