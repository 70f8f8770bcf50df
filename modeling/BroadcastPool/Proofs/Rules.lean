import BroadcastPool.Activity

/-!
# `BroadcastPool.Proofs.Rules`: reasoning about the functions of the source

Three groups of facts that every later module uses.

* The rules of `orFail`, `orRaise` and `catchErr` for `wp`, `Keeps`, `Uses` and `Path`.
* The frame of each action: which action can write the pool table (`Act.writesPool`), the
  virtual mempool (`Act.writesPending`) or the safe-mode flag (`Act.writesSafeMode`), and that
  no other action changes them.
* The clock functions, the quiet functions and the memory functions. A clock function only
  consults clocks, the configuration, the backends and their caches; the locktime gate is one
  (`clock_isLocktimeSatisfied`). A quiet function can also read the pool table, and a memory
  function can also work on the virtual mempool.
-/

set_option autoImplicit false

namespace BroadcastPool

open Effects

/-- Every answer is possible. -/
abbrev anyAnswer (a : Act) (_ : a.Res) : Prop := a = a

theorem anyAnswer_exec (env : Env) (a : Act) (w : World) : anyAnswer a (World.exec env a w).1 :=
  rfl

/-- The contract of the handler, with nothing to assume and nothing to show. -/
abbrev plainContract (env : Env) : Contract Act Act.Res World :=
  (World.exec env).contract (fun _ _ => True) fun _ _ => True

/-! ### Rules for errors -/

section Rules
variable {S α : Type} {c : Contract Act Act.Res S} {I : S → Prop} {P : Act → Prop}

/-- The run of a query with a context. -/
theorem run_orFail (h : Handler Act Act.Res S) (context : String) (p : M (Except String α))
    (s : S) :
    (orFail context p).run h s =
      match p.run h s with
      | (.ok (.ok a), s') => (.ok a, s')
      | (.ok (.error _), s') => (.error (.error context), s')
      | (.error e, s') => (.error e, s') := by
  unfold orFail
  rw [Prog.run_bind]
  rcases p.run h s with ⟨(e | (e | a)), s'⟩ <;> rfl

theorem run_orFail_state (h : Handler Act Act.Res S) (context : String)
    (p : M (Except String α)) (s : S) : ((orFail context p).run h s).2 = (p.run h s).2 := by
  rw [run_orFail]
  rcases p.run h s with ⟨(e | (e | a)), s'⟩ <;> rfl

theorem run_orFail_ok {h : Handler Act Act.Res S} {context : String} {p : M (Except String α)}
    {s : S} {a : α} (hrun : ((orFail context p).run h s).1 = .ok a) :
    (p.run h s).1 = .ok (.ok a) := by
  rw [run_orFail] at hrun
  rcases hp : p.run h s with ⟨(e | (e | b)), s'⟩
  · rw [hp] at hrun
    cases hrun
  · rw [hp] at hrun
    cases hrun
  · rw [hp] at hrun
    rw [Except.ok.inj hrun]

theorem run_orRaise (h : Handler Act Act.Res S) (p : M (Except String α)) (s : S) :
    (orRaise p).run h s =
      match p.run h s with
      | (.ok (.ok a), s') => (.ok a, s')
      | (.ok (.error e), s') => (.error (.error e), s')
      | (.error e, s') => (.error e, s') := by
  unfold orRaise
  rw [Prog.run_bind]
  rcases p.run h s with ⟨(e | (e | a)), s'⟩ <;> rfl

theorem run_catchErr (h : Handler Act Act.Res S) (p : M α) (s : S) :
    (catchErr p).run h s =
      match p.run h s with
      | (.ok a, s') => (.ok (.ok a), s')
      | (.error (.error e), s') => (.ok (.error e), s')
      | (.error (.panic e), s') => (.error (.panic e), s') := by
  unfold catchErr
  rw [Prog.run_bind, Prog.run_attempt]
  rcases p.run h s with ⟨((e | e) | a), s'⟩ <;> rfl

section Path
variable {answers : (a : Act) → a.Res → Prop} {l : List (Seen Act Act.Res)} {a : α}

theorem path_orRaise_ok {p : M (Except String α)}
    (h : (orRaise p).Path answers l (.ok a)) : p.Path answers l (.ok (.ok a)) := by
  obtain ⟨x, l₁, l₂, hp, hf, rfl⟩ := Prog.path_bind_ok h
  cases x with
  | ok b =>
    obtain ⟨rfl, hb⟩ := Prog.path_ret_iff.1 hf
    cases hb
    simpa using hp
  | error e =>
    obtain ⟨-, hb⟩ := Prog.path_fail_iff.1 hf
    cases hb

/-- After `ensure g`, the path goes on if `g` holds, and has ended otherwise. -/
theorem path_ensure_bind {β : Type} {g : Prop} [Decidable g] {text : String} {f : Unit → M β}
    {o : Except Failure β} (h : ((ensure g text).bind f).Path answers l o) :
    g ∧ (f ()).Path answers l o ∨ ¬ g ∧ l = [] ∧ ∃ e, o = .error e := by
  by_cases hg : g
  · rw [ensure, Prog.ensure, if_pos hg] at h
    exact Or.inl ⟨hg, h⟩
  · rw [ensure, Prog.ensure, if_neg hg] at h
    obtain ⟨rfl, rfl⟩ := Prog.path_fail_iff.1 h
    exact Or.inr ⟨hg, rfl, _, rfl⟩

end Path

theorem wp_orFail (context : String) (p : M (Except String α))
    (Q : Except Failure α → S → Prop) (s : S) :
    (orFail context p).wp c Q s ↔
      p.wp c (fun o s' => match o with
        | .ok (.ok a) => Q (.ok a) s'
        | .ok (.error _) => Q (.error (.error context)) s'
        | .error e => Q (.error e) s') s := by
  unfold orFail
  rw [Prog.wp_bind]
  constructor
  all_goals
    refine Prog.wp_mono (fun o s' h => ?_) p s
    rcases o with e | (e | a) <;> simpa using h

theorem wp_orRaise (p : M (Except String α)) (Q : Except Failure α → S → Prop) (s : S) :
    (orRaise p).wp c Q s ↔
      p.wp c (fun o s' => match o with
        | .ok (.ok a) => Q (.ok a) s'
        | .ok (.error e) => Q (.error (.error e)) s'
        | .error e => Q (.error e) s') s := by
  unfold orRaise
  rw [Prog.wp_bind]
  constructor
  all_goals
    refine Prog.wp_mono (fun o s' h => ?_) p s
    rcases o with e | (e | a) <;> simpa using h

theorem keeps_orFail (context : String) {p : M (Except String α)} (hp : Prog.Keeps c I p) :
    Prog.Keeps c I (orFail context p) :=
  Prog.keeps_bind hp fun o => by
    cases o with
    | ok a => exact Prog.keeps_ret a
    | error e => exact Prog.keeps_fail _

theorem keeps_orRaise {p : M (Except String α)} (hp : Prog.Keeps c I p) :
    Prog.Keeps c I (orRaise p) :=
  Prog.keeps_bind hp fun o => by
    cases o with
    | ok a => exact Prog.keeps_ret a
    | error e => exact Prog.keeps_fail _

theorem keeps_catchErr {p : M α} (hp : Prog.Keeps c I p) : Prog.Keeps c I (catchErr p) :=
  Prog.keeps_bind (Prog.keeps_attempt hp) fun o => by
    rcases o with (e | e) | a
    · exact Prog.keeps_ret _
    · exact Prog.keeps_fail _
    · exact Prog.keeps_ret _

theorem returns_orRaise {P : α → Prop} {p : M (Except String α)}
    (hp : Prog.Returns c I (fun o => ∃ a, o = .ok a ∧ P a) p) :
    Prog.Returns c I P (orRaise p) :=
  Prog.returns_bind hp fun o ho => by
    obtain ⟨a, rfl, ha⟩ := ho
    exact Prog.returns_ret ha

theorem returns_catchErr {P : α → Prop} {p : M α} (hp : Prog.Returns c I P p) :
    Prog.Returns c I (fun o => ∃ a, o = .ok a ∧ P a) (catchErr p) :=
  Prog.returns_bind hp.attempt fun o ho => by
    obtain ⟨a, rfl, ha⟩ := ho
    exact Prog.returns_ret ⟨a, rfl, ha⟩

/-- What holds of a value holds of it when an error is caught. -/
theorem gives_catchErr {P : α → Prop} {prog : M α} (h : Prog.Gives c I P prog) :
    Prog.Gives c I (fun o => ∀ a, o = .ok a → P a) (catchErr prog) := by
  intro w hw
  refine (Prog.wp_bind _ _ _ w).2 ((Prog.wp_attempt _ _ w).2 (Prog.wp_mono ?_ prog w (h w hw)))
  rintro o w' ⟨hI, hP⟩
  rcases o with (e | e) | a
  · show (Prog.ret (.error e) : M (Except String α)).wp c _ w'
    rw [Prog.wp_ret]
    refine ⟨hI, fun o ho a ha => ?_⟩
    cases ho
    cases ha
  · show (Prog.fail (.panic e) : M (Except String α)).wp c _ w'
    rw [Prog.wp_fail]
    exact ⟨hI, fun _ ho => by cases ho⟩
  · show (Prog.ret (.ok a) : M (Except String α)).wp c _ w'
    rw [Prog.wp_ret]
    refine ⟨hI, fun o ho a' ha => ?_⟩
    cases ho
    cases ha
    exact hP a rfl

section Learns
variable {answers : (a : Act) → a.Res → Prop} {required : List (Seen Act Act.Res) → Act → Prop}
  {l₀ : List (Seen Act Act.Res)}

/-- What a program has learnt with a value it keeps when an error is caught. -/
theorem learns_catchErr {Q : α → List (Seen Act Act.Res) → Prop} {p : M α}
    (hp : p.Learns answers required l₀ Q) :
    (catchErr p).Learns answers required l₀ fun o l => ∀ a, o = .ok a → Q a l := by
  intro l hl
  refine (Prog.wp_bind _ _ _ l).2 ((Prog.wp_attempt _ _ l).2 (Prog.wp_mono ?_ p l (hp l hl)))
  rintro o l' ⟨hsub, hQ⟩
  rcases o with (e | e) | a
  · show (Prog.ret (.error e) : M (Except String α)).wp _ _ l'
    rw [Prog.wp_ret]
    refine ⟨hsub, fun o ho a ha => ?_⟩
    cases ho
    cases ha
  · show (Prog.fail (.panic e) : M (Except String α)).wp _ _ l'
    rw [Prog.wp_fail]
    exact ⟨hsub, fun _ ho => by cases ho⟩
  · show (Prog.ret (.ok a) : M (Except String α)).wp _ _ l'
    rw [Prog.wp_ret]
    refine ⟨hsub, fun o ho a' ha => ?_⟩
    cases ho
    cases ha
    exact hQ a rfl

theorem learns_orRaise {Q : α → List (Seen Act Act.Res) → Prop} {p : M (Except String α)}
    (hp : p.Learns answers required l₀ fun o l => ∀ a, o = .ok a → Q a l) :
    (orRaise p).Learns answers required l₀ Q := by
  refine fun l hl => (wp_orRaise _ _ l).2 (Prog.wp_mono ?_ p l (hp l hl))
  rintro (e | (e | a)) l' ⟨hsub, hQ⟩
  · exact ⟨hsub, fun _ ho => by cases ho⟩
  · exact ⟨hsub, fun _ ho => by cases ho⟩
  · refine ⟨hsub, fun b hb => ?_⟩
    cases hb
    exact hQ _ rfl a rfl

theorem learns_orFail {Q : α → List (Seen Act Act.Res) → Prop} (context : String)
    {p : M (Except String α)}
    (hp : p.Learns answers required l₀ fun o l => ∀ a, o = .ok a → Q a l) :
    (orFail context p).Learns answers required l₀ Q := by
  refine fun l hl => (wp_orFail _ _ _ l).2 (Prog.wp_mono ?_ p l (hp l hl))
  rintro (e | (e | a)) l' ⟨hsub, hQ⟩
  · exact ⟨hsub, fun _ ho => by cases ho⟩
  · exact ⟨hsub, fun _ ho => by cases ho⟩
  · refine ⟨hsub, fun b hb => ?_⟩
    cases hb
    exact hQ _ rfl a rfl

end Learns

theorem uses_orFail (context : String) {p : M (Except String α)} (hp : p.Uses P) :
    (orFail context p).Uses P :=
  Prog.uses_bind hp fun o => by
    cases o with
    | ok a => exact Prog.uses_ret a
    | error e => exact Prog.uses_fail _

theorem uses_orRaise {p : M (Except String α)} (hp : p.Uses P) : (orRaise p).Uses P :=
  Prog.uses_bind hp fun o => by
    cases o with
    | ok a => exact Prog.uses_ret a
    | error e => exact Prog.uses_fail _

theorem uses_catchErr {p : M α} (hp : p.Uses P) : (catchErr p).Uses P :=
  Prog.uses_bind (Prog.uses_attempt hp) fun o => by
    rcases o with (e | e) | a
    · exact Prog.uses_ret _
    · exact Prog.uses_fail _
    · exact Prog.uses_ret _

theorem uses_logErrorIf (g : Bool) {p : M α} (hp : p.Uses P) : (logErrorIf g p).Uses P := by
  unfold logErrorIf
  split
  · exact Prog.uses_bind (uses_catchErr hp) fun _ => Prog.uses_ret _
  · exact Prog.uses_ret _

theorem keeps_logErrorIf (g : Bool) {p : M α} (hp : Prog.Keeps c I p) :
    Prog.Keeps c I (logErrorIf g p) := by
  unfold logErrorIf
  split
  · exact Prog.keeps_bind (keeps_catchErr hp) fun _ => Prog.keeps_ret _
  · exact Prog.keeps_ret _

theorem uses_act {a : Act} (h : P a) : (perform a).Uses P :=
  (Prog.uses_perform a).2 h

theorem uses_ensure (g : Prop) [Decidable g] (text : String) :
    (ensure g text : M Unit).Uses P :=
  Prog.uses_ensure g _

theorem keeps_ensure (g : Prop) [Decidable g] (text : String) :
    Prog.Keeps c I (ensure g text : M Unit) :=
  Prog.keeps_ensure g _

/-- After `ensure g`, the rest of the function may use `g`. -/
theorem keeps_ensure_bind {g : Prop} [Decidable g] {text : String} {f : Unit → M α}
    (h : g → Prog.Keeps c I (f ())) : Prog.Keeps c I ((ensure g text).bind f) :=
  Prog.keeps_ensure_bind h

end Rules

/-! ### The frame of each action -/

namespace Act

/-- The action can write `broadcast_pool` or `archive_pool`. -/
def writesPool : Act → Bool
  | insert _ | update _ | delete _ | reseal _ | migrate | backfill | archiveRow .. => true
  | _ => false

/-- The action can write the virtual mempool of a process. -/
def writesPending : Act → Bool
  | startProcess .. | storePending .. | mergePending .. | removePending .. => true
  | _ => false

/-- The action can write the safe-mode flag of a process. -/
def writesSafeMode : Act → Bool
  | startProcess .. | enterSafeMode .. | clearSafeMode .. => true
  | _ => false

/-- The transaction an action hands to a backend. -/
def handsOver : Act → Option BroadcastTx
  | indexerBroadcast tx | rpcBroadcast tx => some tx
  | _ => none

/-- The action talks to the wallet or to the indexer on the wallet's behalf. -/
def isSession : Act → Bool
  | forwardToIndexer _ | writeClient _ | spawnIngest .. => true
  | _ => false

/-- The action reads a clock, a random number, the configuration, a backend's state or one of
the caches of it, or writes such a cache. -/
def isClock : Act → Bool
  | now | instant | uuid | nonce | random | randomF64 .. | lockConfig _ | chainHealth _
  | writeChainHealth .. | disarmVirtualBlock .. | hasIndexer _ | hasRpc _ | readMtpCache _
  | writeMtpCache .. | indexerHeight | indexerMtp | indexerTest | rpcHeight | rpcMtp
  | rpcTest | rpcChainStatus | rpcTransaction _ | fetchPrevTx _ => true
  | _ => false

/-- The action is a clock action or a `SELECT`. -/
def isQuiet : Act → Bool
  | select _ | selectLegacy | txHexByTxid _ => true
  | a => a.isClock

/-- The action is quiet, reads the virtual mempool, or adds to an entry of it. -/
def isEnriching : Act → Bool
  | pendingTxs _ | mergePending .. => true
  | a => a.isQuiet

/-- The action is quiet, or only concerns the memory of a running process, but neither its
safe-mode flag nor a new entry of its virtual mempool. -/
def isLookup : Act → Bool
  | pendingTxs _ | mergePending .. | removePending ..
  | advanceVirtualBlock _ | cachedChainTip _ | cacheChainTip .. | watchScripthash .. => true
  | a => a.isQuiet

/-- The action is a lookup or a store in the virtual mempool. -/
def isMemory : Act → Bool
  | storePending .. => true
  | a => a.isLookup

end Act

section Frame
variable {env : Env} {w : World} {a : Act}

theorem statement_error_or_ok {α : Type} {f : List Row → Except String (α × List Row)}
    {o : Except String α × World} (h : w.statement env f = o) :
    (∃ e, o = (.error e, w)) ∨
      ∃ x pool, env.dbFault w.tick = none ∧ f w.pool = .ok (x, pool) ∧
        o = (.ok x, { w with pool }) := by
  unfold World.statement at h
  split at h
  · exact Or.inl ⟨_, h.symm⟩
  · rename_i hfault
    split at h
    · exact Or.inl ⟨_, h.symm⟩
    · rename_i x pool hf
      exact Or.inr ⟨x, pool, hfault, hf, h.symm⟩

/-- A statement leaves the memory of the processes alone. -/
theorem statement_pm {α : Type} (f : List Row → Except String (α × List Row)) (p : Proc) :
    (w.statement env f).2.pm p = w.pm p := by
  rcases statement_error_or_ok (w := w) (f := f) rfl with
    ⟨e, h⟩ | ⟨x, pool, -, -, h⟩
  · rw [h]
  · rw [h]
    cases p <;> rfl

/-- A statement that returns the table as it is leaves the table as it is. -/
theorem statement_pool {α : Type} {f : List Row → Except String (α × List Row)}
    (hf : ∀ rows x pool, f rows = .ok (x, pool) → pool = rows) :
    (w.statement env f).2.pool = w.pool := by
  rcases statement_error_or_ok (w := w) (f := f) rfl with
    ⟨e, h⟩ | ⟨x, pool, -, hok, h⟩
  · rw [h]
  · rw [h]
    exact hf _ _ _ hok

/-- Only `writesPool` actions change the pool table. -/
theorem exec_pool (h : a.writesPool = false) : (World.exec env a w).2.pool = w.pool := by
  show (w.effect env a).2.pool = w.pool
  cases a <;> cases h
  case select.refl q =>
    refine statement_pool fun rows x pool hf => ?_
    cases hm : (selectRows q rows).mapM (mapBroadcastRow env (env.clock w.tick)) with
    | error e => rw [hm] at hf; cases hf
    | ok txs => rw [hm] at hf; cases hf; rfl
  case selectLegacy.refl =>
    refine statement_pool fun rows x pool hf => ?_
    cases hf
    rfl
  case txHexByTxid.refl txid =>
    refine statement_pool fun rows x pool hf => ?_
    split at hf
    · cases hf; rfl
    · split at hf <;> cases hf
      rfl
  all_goals
    simp only [World.effect]
    repeat' split
    all_goals first | rfl | exact World.setPm_pool ..

/-- A field that one `PoolManager` keeps is kept for every process. -/
theorem setPm_field {β : Type} (f : PoolManager → β) {p : Proc} {m : PoolManager}
    (h : f m = f (w.pm p)) (q : Proc) : f ((w.setPm p m).pm q) = f (w.pm q) := by
  by_cases hq : q = p
  · rw [hq, World.setPm_pm_self, h]
  · rw [World.setPm_pm_ne w m hq]

/-- The memory of a process after an action, but for the three fields that some actions
write, read through `f`. -/
theorem exec_pm_field {β : Type} (f : PoolManager → β) (p : Proc)
    (hconfig : ∀ m x, f { m with config := x } = f m)
    (hmtp : ∀ m x, f { m with mtpCache := x } = f m)
    (htip : ∀ m x, f { m with cachedChainTip := x } = f m)
    (hhealth : ∀ m x, f { m with chainHealth := x } = f m)
    (hwatch : ∀ m x, f { m with watchedScripthashes := x } = f m)
    (hpending : a.writesPending = true → f ((w.effect env a).2.pm p) = f (w.pm p))
    (hsafe : a.writesSafeMode = true → f ((w.effect env a).2.pm p) = f (w.pm p)) :
    f ((World.exec env a w).2.pm p) = f (w.pm p) := by
  rw [show (World.exec env a w).2.pm p = (w.effect env a).2.pm p from World.ticked_pm _ p]
  cases a
  case startProcess | storePending | mergePending | removePending => exact hpending rfl
  case enterSafeMode | clearSafeMode => exact hsafe rfl
  case select | selectLegacy | txHexByTxid | insert | update | delete | reseal | migrate =>
    exact congrArg f (statement_pm _ p)
  all_goals
    simp only [World.effect]
    repeat' split
    all_goals
      first
        | rfl
        | exact setPm_field f (hconfig _ _) p
        | exact setPm_field f (hmtp _ _) p
        | exact setPm_field f (htip _ _) p
        | exact setPm_field f (hhealth _ _) p
        | exact setPm_field f (hwatch _ _) p

/-- Only `writesPending` actions change the virtual mempool. -/
theorem exec_pendingTxs (h : a.writesPending = false) (p : Proc) :
    ((World.exec env a w).2.pm p).pendingTxs = (w.pm p).pendingTxs := by
  refine exec_pm_field PoolManager.pendingTxs p (fun _ _ => rfl) (fun _ _ => rfl)
    (fun _ _ => rfl) (fun _ _ => rfl) (fun _ _ => rfl) (fun hw => ?_) (fun hs => ?_)
  · rw [h] at hw
    cases hw
  · cases a <;> cases hs
    · cases h
    all_goals
      apply setPm_field PoolManager.pendingTxs
      rfl

/-- Only `writesSafeMode` actions change the safe-mode flag. -/
theorem exec_safeMode (h : a.writesSafeMode = false) (p : Proc) :
    ((World.exec env a w).2.pm p).safeMode = (w.pm p).safeMode := by
  refine exec_pm_field PoolManager.safeMode p (fun _ _ => rfl) (fun _ _ => rfl)
    (fun _ _ => rfl) (fun _ _ => rfl) (fun _ _ => rfl) (fun hw => ?_) (fun hs => ?_)
  · cases a <;> cases hw
    · cases h
    all_goals
      simp only [World.effect]
      repeat' split
      all_goals first | rfl | (apply setPm_field PoolManager.safeMode; rfl)
  · rw [h] at hs
    cases hs

/-! ### The statements, one by one -/

/-- A `SELECT` answers with the rows it selects, or fails, and changes nothing. -/
theorem exec_select (env : Env) (w : World) (q : Query) :
    (∃ e, World.exec env (.select q) w = (.error e, w.ticked)) ∨
      ∃ txs, (selectRows q w.pool).mapM (mapBroadcastRow env (env.clock w.tick)) = .ok txs ∧
        World.exec env (.select q) w = (.ok txs, w.ticked) := by
  simp only [World.exec, World.effect]
  rcases statement_error_or_ok (w := w) rfl with
    ⟨e, h⟩ | ⟨txs, pool, -, hok, h⟩
  · rw [h]
    exact Or.inl ⟨e, rfl⟩
  · rw [h]
    right
    cases hm : (selectRows q w.pool).mapM (mapBroadcastRow env (env.clock w.tick)) with
    | error e =>
      rw [hm] at hok
      cases hok
    | ok txs' =>
      rw [hm] at hok
      cases hok
      exact ⟨txs, rfl, rfl⟩

/-- The query of `encrypt_legacy_rows`. -/
theorem exec_selectLegacy (env : Env) (w : World) :
    (∃ e, World.exec env .selectLegacy w = (.error e, w.ticked)) ∨
      World.exec env .selectLegacy w =
        (.ok ((w.pool.filter isLegacy).map fun r =>
          (r.id, r.txHex, r.destinationAddress, r.sourceLabel)), w.ticked) := by
  simp only [World.exec, World.effect]
  rcases statement_error_or_ok (w := w) rfl with
    ⟨e, h⟩ | ⟨rows, pool, -, hok, h⟩
  · rw [h]
    exact Or.inl ⟨e, rfl⟩
  · rw [h]
    cases hok
    exact Or.inr rfl

/-- An `UPDATE` fails and changes nothing, or is applied to the whole table. -/
theorem exec_update (env : Env) (w : World) (u : Update) :
    (∃ e, World.exec env (.update u) w = (.error e, w.ticked)) ∨
      World.exec env (.update u) w =
        (.ok (updateCount u w.pool), { w with pool := applyUpdate env u w.pool }.ticked) := by
  simp only [World.exec, World.effect]
  rcases statement_error_or_ok (w := w) rfl with
    ⟨e, h⟩ | ⟨n, pool, -, hok, h⟩
  · rw [h]
    exact Or.inl ⟨e, rfl⟩
  · rw [h]
    cases hok
    exact Or.inr rfl

theorem exec_update_ok {env : Env} {w : World} (hdb : env.dbFault w.tick = none) (u : Update) :
    World.exec env (.update u) w =
      (.ok (updateCount u w.pool), { w with pool := applyUpdate env u w.pool }.ticked) := by
  simp [World.exec, World.effect, World.statement, hdb]

/-- An `INSERT` fails and changes nothing, or appends the row. -/
theorem exec_insert (env : Env) (w : World) (row : Row) :
    (∃ e, World.exec env (.insert row) w = (.error e, w.ticked)) ∨
      ∃ pool, insertRow row w.pool = .ok pool ∧
        World.exec env (.insert row) w = (.ok (), { w with pool }.ticked) := by
  simp only [World.exec, World.effect]
  rcases statement_error_or_ok (w := w) rfl with
    ⟨e, h⟩ | ⟨u, pool, -, hok, h⟩
  · rw [h]
    exact Or.inl ⟨e, rfl⟩
  · rw [h]
    cases hi : insertRow row w.pool with
    | error e =>
      rw [hi] at hok
      cases hok
    | ok rows =>
      rw [hi] at hok
      cases hok
      exact Or.inr ⟨pool, rfl, rfl⟩

/-- A `DELETE` fails and changes nothing, or removes the rows with the id. -/
theorem exec_delete (env : Env) (w : World) (id : String) :
    (∃ e, World.exec env (.delete id) w = (.error e, w.ticked)) ∨
      World.exec env (.delete id) w =
        (.ok (w.pool.countP (·.id = id)),
          { w with pool := w.pool.filter (·.id ≠ id) }.ticked) := by
  simp only [World.exec, World.effect]
  rcases statement_error_or_ok (w := w) rfl with
    ⟨e, h⟩ | ⟨n, pool, -, hok, h⟩
  · rw [h]
    exact Or.inl ⟨e, rfl⟩
  · rw [h]
    unfold deleteRow at hok
    split at hok
    · cases hok
    · cases hok
      exact Or.inr rfl

/-- The archive moves the rows with the id and stores the entry, or fails and changes nothing. -/
theorem exec_archive (env : Env) (w : World) (id : String) (entry : ArchiveRow) :
    (∃ e, World.exec env (.archiveRow id entry) w = (.error e, w.ticked)) ∨
      World.exec env (.archiveRow id entry) w =
        (.ok (), { w with
          pool := w.pool.filter (·.id ≠ id), archive := w.archive ++ [entry] }.ticked) := by
  simp only [World.exec, World.effect]
  split
  · exact Or.inl ⟨_, rfl⟩
  · split
    · exact Or.inl ⟨_, rfl⟩
    · unfold deleteRow
      split
      · exact Or.inl ⟨_, rfl⟩
      · rename_i hdelete
        split at hdelete
        · cases hdelete
        · cases hdelete
          exact Or.inr rfl

/-- `reseal_row_mac` is refused by the database, or does what `resealRow` does. -/
theorem exec_reseal (env : Env) (w : World) (id : String) :
    (env.dbFault w.tick ≠ none ∧ ∃ e, World.exec env (.reseal id) w = (.error e, w.ticked)) ∨
      World.exec env (.reseal id) w =
        match resealRow env id w.pool with
        | .ok pool => (.ok (), { w with pool }.ticked)
        | .error e => (.error e, w.ticked) := by
  simp only [World.exec, World.effect, World.statement]
  cases hf : env.dbFault w.tick with
  | some e => exact Or.inl ⟨by simp, e, rfl⟩
  | none =>
    right
    cases resealRow env id w.pool <;> rfl

/-- A reseal finds a row with an `nlocktime`, and seals the rows with its id. -/
theorem resealRow_eq_ok {env : Env} {id : String} {rows rows' : List Row}
    (h : resealRow env id rows = .ok rows') :
    (∃ r ∈ rows, r.id = id ∧ ∃ n, r.nlocktime = some n) ∧
      rows' = rows.map fun r => if r.id = id then resealed env r else r := by
  unfold resealRow at h
  split at h
  · cases h
  · rename_i r hfind
    split at h
    · cases h
    · rename_i n hn
      cases h
      exact ⟨⟨r, List.mem_of_find?_eq_some hfind, by simpa using List.find?_some hfind, n, hn⟩, rfl⟩

/-- `Database::open` runs the migrations, or fails and changes nothing. -/
theorem exec_migrate (env : Env) (w : World) :
    (∃ e, World.exec env .migrate w = (.error e, w.ticked)) ∨
      World.exec env .migrate w = (.ok (), { w with
        pool := if env.migrationRefused w.tick then w.pool
          else w.pool.map migration007 }.ticked) := by
  simp only [World.exec, World.effect]
  rcases statement_error_or_ok (w := w) rfl with
    ⟨e, h⟩ | ⟨u, pool, -, hok, h⟩
  · rw [h]
    exact Or.inl ⟨e, rfl⟩
  · rw [h]
    cases hok
    exact Or.inr rfl

/-- `backfill_output_values` leaves every row as it is, or with its value filled in. -/
theorem exec_backfill (env : Env) (w : World) :
    ∀ r ∈ (World.exec env .backfill w).2.pool,
      ∃ r₀ ∈ w.pool, r = r₀ ∨ r = backfillRow env r₀ := by
  intro r hr
  simp only [World.exec, World.effect, World.ticked_pool] at hr
  split at hr
  · rcases List.mem_append.1 hr with hr | hr
    · obtain ⟨r₀, hr₀, rfl⟩ := List.mem_map.1 hr
      exact ⟨r₀, List.mem_of_mem_take hr₀, Or.inr rfl⟩
    · exact ⟨r, List.mem_of_mem_drop hr, Or.inl rfl⟩
  · obtain ⟨r₀, hr₀, rfl⟩ := List.mem_map.1 hr
    exact ⟨r₀, hr₀, Or.inr rfl⟩

/-- Every row is still there after `backfill_output_values`, as it was or filled in. -/
theorem exec_backfill_mem (env : Env) (w : World) :
    ∀ r₀ ∈ w.pool, ∃ r ∈ (World.exec env .backfill w).2.pool,
      r = r₀ ∨ r = backfillRow env r₀ := by
  intro r₀ hr₀
  simp only [World.exec, World.effect, World.ticked_pool]
  split
  · rw [← List.take_append_drop (env.backfillFaultAfter w.tick) w.pool] at hr₀
    rcases List.mem_append.1 hr₀ with hr | hr
    · exact ⟨_, List.mem_append_left _ (List.mem_map_of_mem hr), Or.inr rfl⟩
    · exact ⟨_, List.mem_append_right _ hr, Or.inl rfl⟩
  · exact ⟨_, List.mem_map_of_mem hr₀, Or.inr rfl⟩

end Frame

/-! ### The quiet functions -/

section Quiet
variable (env : Env) (p : Proc)

/-- A program of clock actions. -/
abbrev IsClock {α : Type} (prog : M α) : Prop := prog.Uses fun a => a.isClock = true

/-- A program of quiet actions. -/
abbrev IsQuiet {α : Type} (prog : M α) : Prop := prog.Uses fun a => a.isQuiet = true

theorem isQuiet_of_isClock {a : Act} (h : a.isClock = true) : a.isQuiet = true := by
  cases a <;> first | rfl | exact h

theorem IsClock.quiet {α : Type} {prog : M α} (h : IsClock prog) : IsQuiet prog :=
  Prog.Uses.mono (fun _ => isQuiet_of_isClock) h

theorem clock_nowText : IsClock (nowText env) :=
  Prog.uses_bind (uses_act rfl) fun _ => Prog.uses_ret _

theorem clock_encode (plaintext aad : String) : IsClock (encode env plaintext aad) :=
  Prog.uses_bind (uses_act rfl) fun _ => Prog.uses_ret _

theorem clock_encode? (plaintext : Option String) (aad : String) :
    IsClock (encode? env plaintext aad) := by
  cases plaintext with
  | none => exact Prog.uses_ret _
  | some s => exact Prog.uses_bind (clock_encode env s aad) fun _ => Prog.uses_ret _

theorem clock_encodeMissing (s aad : String) : IsClock (encodeMissing env s aad) := by
  unfold encodeMissing
  split
  · exact Prog.uses_ret _
  · exact clock_encode env s aad

theorem clock_encodeMissing? (s : Option String) (aad : String) :
    IsClock (encodeMissing? env s aad) := by
  cases s with
  | none => exact Prog.uses_ret _
  | some s => exact Prog.uses_bind (clock_encodeMissing env s aad) fun _ => Prog.uses_ret _

theorem quiet_select (context : String) (q : Query) :
    IsQuiet (orFail context (perform (.select q))) :=
  uses_orFail context (uses_act rfl)

theorem quiet_getBroadcastTxById (id : String) : IsQuiet (getBroadcastTxById id) := by
  refine Prog.uses_bind (quiet_select _ _) fun txs => ?_
  cases txs with
  | nil => exact Prog.uses_fail _
  | cons tx txs => exact Prog.uses_ret _

theorem quiet_getPendingByScheduledTime (network : String) :
    IsQuiet (getPendingByScheduledTime network) :=
  Prog.uses_bind (uses_act rfl) fun _ =>
    Prog.uses_bind (quiet_select _ _) fun _ => Prog.uses_ret _

theorem quiet_getPendingRebroadcast (interval : Int) (network : String) :
    IsQuiet (getPendingRebroadcast env interval network) :=
  Prog.uses_bind (uses_act rfl) fun _ => quiet_select _ _

theorem clock_configNetwork : IsClock (configNetwork p) :=
  Prog.uses_bind (uses_orRaise (uses_act rfl)) fun _ => Prog.uses_ret _

theorem clock_indexerBlockHeight : IsClock (indexerBlockHeight p) := by
  refine Prog.uses_bind (uses_act rfl) fun health => ?_
  split
  · refine Prog.uses_bind (uses_act rfl) fun up => ?_
    split
    · refine Prog.uses_bind (uses_act rfl) fun answer => ?_
      cases answer with
      | ok height => exact Prog.uses_bind (uses_act rfl) fun _ => Prog.uses_ret _
      | error e => exact Prog.uses_bind (uses_act rfl) fun _ => Prog.uses_ret _
    · exact Prog.uses_ret _
  · exact Prog.uses_ret _

theorem clock_checkBlockHeight : IsClock (checkBlockHeight p) := by
  refine Prog.uses_bind (clock_indexerBlockHeight p) fun height => ?_
  cases height with
  | some height => exact Prog.uses_ret _
  | none =>
    refine Prog.uses_bind (uses_act rfl) fun up => ?_
    split
    · refine Prog.uses_bind (uses_act rfl) fun answer => ?_
      cases answer <;> exact Prog.uses_ret _
    · exact Prog.uses_ret _

theorem clock_getMedianTimePast : IsClock (getMedianTimePast p) := by
  have hrpc : IsClock (rpcMedianTime p) := by
    refine Prog.uses_bind (uses_act rfl) fun up => ?_
    split
    · refine Prog.uses_bind (uses_act rfl) fun answer => ?_
      cases answer <;> exact Prog.uses_ret _
    · exact Prog.uses_ret _
  refine Prog.uses_bind hrpc fun mtp => ?_
  cases mtp with
  | some mtp => exact Prog.uses_ret _
  | none =>
    refine Prog.uses_bind (uses_act rfl) fun health => ?_
    split
    · refine Prog.uses_bind (uses_act rfl) fun up => ?_
      split
      · refine Prog.uses_bind (uses_act rfl) fun answer => ?_
        cases answer with
        | ok mtp => exact Prog.uses_ret _
        | error e => exact Prog.uses_bind (uses_act rfl) fun _ => Prog.uses_fail _
      · exact Prog.uses_fail _
    · exact Prog.uses_fail _

theorem clock_getMedianTimePastCached : IsClock (getMedianTimePastCached p) := by
  have hrefresh : IsClock (refreshMtpCache p) :=
    Prog.uses_bind (clock_getMedianTimePast p) fun _ =>
      Prog.uses_bind (uses_act rfl) fun _ =>
        Prog.uses_bind (uses_act rfl) fun _ => Prog.uses_ret _
  refine Prog.uses_bind (uses_act rfl) fun cached => ?_
  cases cached with
  | none => exact hrefresh
  | some cached =>
    refine Prog.uses_bind (uses_act rfl) fun now => ?_
    split
    · exact Prog.uses_ret _
    · exact hrefresh

/-- The locktime gate reads the chain clock and writes only its caches. -/
theorem clock_isLocktimeSatisfied (nlocktime : Option Nat) :
    IsClock (isLocktimeSatisfied p nlocktime) := by
  unfold isLocktimeSatisfied
  split
  · exact Prog.uses_ret _
  · exact Prog.uses_ret _
  · split
    · exact Prog.uses_bind (clock_getMedianTimePastCached p) fun _ => Prog.uses_ret _
    · refine Prog.uses_bind (clock_checkBlockHeight p) fun height => ?_
      cases height <;> exact Prog.uses_ret _

theorem clock_enrichTxLocktime (tx : BroadcastTx) : IsClock (enrichTxLocktime p tx) :=
  uses_logErrorIf _ (clock_getMedianTimePastCached p)

theorem clock_locktimeOrRefuse (nlocktime : Option Nat) :
    IsClock (locktimeOrRefuse p nlocktime) := by
  refine Prog.uses_bind (uses_catchErr (clock_isLocktimeSatisfied p nlocktime)) fun ok => ?_
  cases ok with
  | ok b => exact Prog.uses_ret _
  | error e => exact Prog.uses_fail _

theorem clock_refuseNonFinal (nlocktime : Option Nat) :
    IsClock (refuseNonFinal p nlocktime) := by
  unfold refuseNonFinal
  dsimp only
  split
  · exact Prog.uses_bind (uses_catchErr (clock_getMedianTimePastCached p))
      fun _ => Prog.uses_fail _
  · exact Prog.uses_fail _

theorem clock_isTxDueForBroadcast (tx : BroadcastTx) (now : DateTime) :
    IsClock (isTxDueForBroadcast p tx now) := by
  unfold isTxDueForBroadcast
  split
  · exact Prog.uses_ret _
  · refine Prog.uses_bind (clock_isLocktimeSatisfied p _) fun ok => ?_
    split <;> split <;> exact Prog.uses_ret _

theorem clock_dueTxs (now : DateTime) (txs : List BroadcastTx) :
    IsClock (dueTxs p now txs) := by
  induction txs with
  | nil => exact Prog.uses_ret _
  | cons tx txs ih =>
    refine Prog.uses_bind (uses_catchErr (clock_isTxDueForBroadcast p tx now)) fun due => ?_
    exact Prog.uses_bind ih fun rest => Prog.uses_ret _

section Due
variable {S : Type} {c : Contract Act Act.Res S} {I : S → Prop}

/-- The due rows are candidates, in their order. -/
theorem gives_dueTxs_sublist (now : DateTime) (txs : List BroadcastTx)
    (h : ∀ tx, Prog.Keeps c I (catchErr (isTxDueForBroadcast p tx now))) :
    Prog.Gives c I (fun due => due.Sublist txs) (dueTxs p now txs) := by
  induction txs with
  | nil => exact Prog.gives_ret (List.Sublist.refl _)
  | cons tx txs ih =>
    refine Prog.gives_bind (h tx).gives fun due _ => ?_
    refine Prog.gives_bind ih fun rest hrest => Prog.gives_ret ?_
    split
    · exact hrest.cons_cons tx
    · exact hrest.cons tx

theorem gives_dueTxs (now : DateTime) (txs : List BroadcastTx)
    (h : ∀ tx, Prog.Keeps c I (catchErr (isTxDueForBroadcast p tx now))) :
    Prog.Gives c I (fun due => ∀ tx ∈ due, tx ∈ txs) (dueTxs p now txs) :=
  (gives_dueTxs_sublist p now txs h).mono fun _ hsub => hsub.subset

end Due

theorem clock_refreshChainHealth : IsClock (refreshChainHealth p) := by
  have hcore : IsClock (coreStatus p) := by
    refine Prog.uses_bind (uses_act rfl) fun hasRpc => ?_
    split
    · exact Prog.uses_bind (uses_act rfl) fun _ => Prog.uses_ret _
    · exact Prog.uses_ret _
  have hheight : IsClock (indexerProbe p) := by
    refine Prog.uses_bind (uses_act rfl) fun hasIndexer => ?_
    split
    · exact Prog.uses_bind (uses_act rfl) fun _ => Prog.uses_ret _
    · exact Prog.uses_ret _
  have hwarm : ∀ core, IsClock (warmMtpCache p core) := by
    intro core
    cases core with
    | none => exact Prog.uses_ret _
    | some core => exact Prog.uses_bind (uses_act rfl) fun _ => uses_act rfl
  have hdisarm : IsClock (maybeDisarmVirtualBlock p) := by
    refine Prog.uses_bind (uses_act rfl) fun health => ?_
    split
    · exact uses_act rfl
    · exact Prog.uses_ret _
  exact Prog.uses_bind hcore fun core => Prog.uses_bind hheight fun _ =>
    Prog.uses_bind (uses_act rfl) fun _ => Prog.uses_bind (hwarm core) fun _ => hdisarm

theorem clock_fetchInputScripthashes (inputs : List TxIn) :
    IsClock (fetchInputScripthashes env inputs) := by
  induction inputs with
  | nil => exact Prog.uses_ret _
  | cons input inputs ih =>
    refine Prog.uses_bind (uses_act rfl) fun prev => ?_
    refine Prog.uses_bind ih fun rest => ?_
    cases prev <;> exact Prog.uses_ret _

theorem clock_extractAffectedScripthashes (txHex : String) :
    IsClock (extractAffectedScripthashes env txHex) := by
  unfold extractAffectedScripthashes
  split
  · exact Prog.uses_fail _
  · exact Prog.uses_bind (clock_fetchInputScripthashes env _) fun _ => Prog.uses_ret _

theorem clock_genRange (lo hi : Nat) : IsClock (genRange lo hi) :=
  Prog.uses_bind (uses_act rfl) fun _ => Prog.uses_ret _

theorem clock_genRangeF64 (lo hi : F64) : IsClock (genRangeF64 env lo hi) := by
  unfold genRangeF64
  split
  · exact uses_act rfl
  · exact Prog.uses_fail _

theorem clock_chooseFeeRate (fixed : Option F64) (lo hi : F64) :
    IsClock (chooseFeeRate env fixed lo hi) := by
  cases fixed with
  | some x => exact Prog.uses_ret _
  | none => exact clock_genRangeF64 env _ _

theorem clock_durationHours (h : Int) : IsClock (durationHours h) := by
  unfold durationHours
  split
  · exact Prog.uses_ret _
  · exact Prog.uses_fail _

/-- A clock action, or the hand-over of `tx`. -/
def ClockOrSends (tx : BroadcastTx) (a : Act) : Prop :=
  a.isClock = true ∨ a = .indexerBroadcast tx ∨ a = .rpcBroadcast tx

/-- `broadcast_transaction` hands over its own transaction only. -/
theorem uses_broadcastTransaction (tx : BroadcastTx) :
    (broadcastTransaction p tx).Uses (ClockOrSends tx) := by
  have hverdict : (indexerVerdict p tx).Uses (ClockOrSends tx) := by
    refine Prog.uses_bind (uses_act (Or.inl rfl)) fun health => ?_
    split
    · refine Prog.uses_bind (uses_act (Or.inl rfl)) fun up => ?_
      split
      · exact Prog.uses_bind (uses_act (Or.inr (Or.inl rfl))) fun _ => Prog.uses_ret _
      · exact Prog.uses_ret _
    · exact Prog.uses_ret _
  refine Prog.uses_bind hverdict fun verdict => ?_
  split
  · exact Prog.uses_ret _
  · refine Prog.uses_bind (uses_act (Or.inl rfl)) fun rpc => ?_
    split
    · exact uses_orRaise (uses_act (Or.inr (Or.inr rfl)))
    · split <;> exact Prog.uses_fail _

/-- `broadcast_raw` hands over its own transaction only. -/
theorem uses_broadcastRaw (tx : BroadcastTx) : (broadcastRaw tx).Uses (ClockOrSends tx) := by
  have hverdict : (rawIndexerVerdict tx).Uses (ClockOrSends tx) := by
    refine Prog.uses_bind (uses_act (Or.inl rfl)) fun up => ?_
    split
    · exact Prog.uses_bind (uses_act (Or.inr (Or.inl rfl))) fun _ => Prog.uses_ret _
    · exact Prog.uses_ret _
  refine Prog.uses_bind hverdict fun verdict => ?_
  split
  · exact Prog.uses_ret _
  · refine Prog.uses_bind (uses_act (Or.inl rfl)) fun rpc => ?_
    split
    · exact uses_orRaise (uses_act (Or.inr (Or.inr rfl)))
    · exact Prog.uses_fail _

end Quiet

section Memory
variable (env : Env) (p : Proc)

/-- A program that reads, and adds to entries of the virtual mempool. -/
abbrev IsEnriching {α : Type} (prog : M α) : Prop := prog.Uses fun a => a.isEnriching = true

/-- A program of lookups. -/
abbrev IsLookup {α : Type} (prog : M α) : Prop := prog.Uses fun a => a.isLookup = true

/-- A program of memory actions. -/
abbrev IsMemory {α : Type} (prog : M α) : Prop := prog.Uses fun a => a.isMemory = true

theorem isLookup_of_isQuiet {a : Act} (h : a.isQuiet = true) : a.isLookup = true := by
  cases a <;> first | rfl | exact h

theorem isLookup_of_isEnriching {a : Act} (h : a.isEnriching = true) : a.isLookup = true := by
  cases a <;> first | rfl | exact h

theorem isMemory_of_isLookup {a : Act} (h : a.isLookup = true) : a.isMemory = true := by
  cases a <;> first | rfl | exact h

theorem IsQuiet.lookup {α : Type} {prog : M α} (h : IsQuiet prog) : IsLookup prog :=
  Prog.Uses.mono (fun _ => isLookup_of_isQuiet) h

theorem IsClock.lookup {α : Type} {prog : M α} (h : IsClock prog) : IsLookup prog :=
  h.quiet.lookup

theorem IsClock.enriching {α : Type} {prog : M α} (h : IsClock prog) : IsEnriching prog :=
  Prog.Uses.mono (fun a ha => by cases a <;> first | rfl | exact ha) h

theorem IsEnriching.lookup {α : Type} {prog : M α} (h : IsEnriching prog) : IsLookup prog :=
  Prog.Uses.mono (fun _ => isLookup_of_isEnriching) h

theorem IsLookup.memory {α : Type} {prog : M α} (h : IsLookup prog) : IsMemory prog :=
  Prog.Uses.mono (fun _ => isMemory_of_isLookup) h

theorem isMemory_of_isQuiet {a : Act} (h : a.isQuiet = true) : a.isMemory = true :=
  isMemory_of_isLookup (isLookup_of_isQuiet h)

theorem IsQuiet.memory {α : Type} {prog : M α} (h : IsQuiet prog) : IsMemory prog :=
  h.lookup.memory

theorem IsClock.memory {α : Type} {prog : M α} (h : IsClock prog) : IsMemory prog :=
  h.quiet.memory

theorem memory_storeRehydrated (tx : BroadcastTx) (txid : String) :
    IsMemory (storeRehydrated env p tx txid) := by
  refine Prog.uses_bind
    (uses_catchErr (clock_extractAffectedScripthashes env tx.txHex).memory) fun o => ?_
  cases o with
  | ok scripthashes => exact uses_act rfl
  | error e => exact Prog.uses_ret _

theorem memory_rehydrateTx (tx : BroadcastTx) : IsMemory (rehydrateTx env p tx) := by
  unfold rehydrateTx
  split
  · exact memory_storeRehydrated env p tx _
  · exact memory_storeRehydrated env p tx _
  · exact Prog.uses_ret _

theorem memory_loadPendingFromDb : IsMemory (loadPendingFromDb env p) := by
  refine Prog.uses_bind (clock_configNetwork p).memory fun network => ?_
  refine Prog.uses_bind (uses_act rfl) fun config => ?_
  split
  · refine Prog.uses_bind (quiet_select _ _).memory fun pending => ?_
    refine Prog.uses_bind (quiet_select _ _).memory fun scheduled => ?_
    exact Prog.uses_forEach _ fun tx _ => memory_rehydrateTx env p tx
  · exact Prog.uses_fail _

theorem memory_preAckStore (txHex : String) : IsMemory (preAckStore env p txHex) := by
  unfold preAckStore
  split
  · exact uses_act rfl
  · exact Prog.uses_ret _

theorem enriching_orElse? {α : Type} {q r : M (Option α)} (hq : IsEnriching q)
    (hr : IsEnriching r) :
    IsEnriching (orElse? q r) := by
  refine Prog.uses_bind hq fun o => ?_
  cases o with
  | some a => exact Prog.uses_ret _
  | none => exact hr

theorem enriching_onAlternate (txid : String) {find : String → M (Option String)}
    (h : ∀ t, IsEnriching (find t)) : IsEnriching (onAlternate txid find) := by
  unfold onAlternate
  split
  · exact h _
  · exact Prog.uses_ret _

theorem enriching_lookupTxHex (txid : String) : IsEnriching (lookupTxHex p txid) := by
  have hpending : ∀ t, IsEnriching (getPendingTxHex p t) := fun t =>
    Prog.uses_bind (uses_act rfl) fun _ => Prog.uses_ret _
  have htable : ∀ t, IsEnriching (findTxHexByTxid t) := by
    intro t
    refine Prog.uses_bind (uses_catchErr (uses_orRaise (uses_act rfl))) fun o => ?_
    cases o <;> exact Prog.uses_ret _
  exact enriching_orElse? (hpending _) <| enriching_orElse? (enriching_onAlternate _ hpending) <|
    enriching_orElse? (htable _) (enriching_onAlternate _ htable)

theorem enriching_resolvePrevTx (indexerAddr prevTxid : String) :
    IsEnriching (resolvePrevTx env p indexerAddr prevTxid) := by
  refine Prog.uses_bind (enriching_orElse? (enriching_lookupTxHex p _)
    (enriching_onAlternate _ (enriching_lookupTxHex p))) fun hex => ?_
  split
  · exact Prog.uses_ret _
  · split
    · exact Prog.uses_ret _
    · exact Prog.uses_bind (uses_act rfl) fun _ => Prog.uses_ret _

theorem enriching_inputScripthashesLoop (indexerAddr : String) (deadline : Nat)
    (outputs : List String) (inputs : List TxIn) (found : List String) :
    IsEnriching (inputScripthashesLoop env p indexerAddr deadline outputs inputs found) := by
  induction inputs generalizing found with
  | nil => exact Prog.uses_ret _
  | cons input inputs ih =>
    refine Prog.uses_bind (uses_act rfl) fun now => ?_
    split
    · exact Prog.uses_ret _
    · refine Prog.uses_bind (enriching_resolvePrevTx env p _ _) fun prev => ?_
      split
      · exact ih _
      · exact ih _

theorem enriching_enrichInputScripthashes (txHex indexerAddr : String) (budget : Nat) :
    IsEnriching (enrichInputScripthashes env p txHex indexerAddr budget) := by
  unfold enrichInputScripthashes
  split
  · exact Prog.uses_fail _
  · exact Prog.uses_bind (uses_act rfl) fun _ => enriching_inputScripthashesLoop env p _ _ _ _ _

theorem clock_indexerUrlOrEmpty : IsClock (indexerUrlOrEmpty p) := by
  refine Prog.uses_bind (uses_act rfl) fun o => ?_
  cases o <;> exact Prog.uses_ret _

/-- The enrichment after an ingest reads the table and adds to an entry only. -/
theorem enriching_enrichPendingInputScripthashes (txid txHex : String) :
    IsEnriching (enrichPendingInputScripthashes env p txid txHex) := by
  refine Prog.uses_bind (clock_indexerUrlOrEmpty p).enriching fun url => ?_
  refine Prog.uses_bind (uses_catchErr (enriching_enrichInputScripthashes env p _ _ _)) fun o => ?_
  cases o with
  | ok extra => exact uses_act rfl
  | error e => exact Prog.uses_ret _

theorem lookup_lookupTxHex (txid : String) : IsLookup (lookupTxHex p txid) :=
  (enriching_lookupTxHex p txid).lookup

theorem lookup_enrichInputScripthashes (txHex indexerAddr : String) (budget : Nat) :
    IsLookup (enrichInputScripthashes env p txHex indexerAddr budget) :=
  (enriching_enrichInputScripthashes env p txHex indexerAddr budget).lookup

theorem lookup_enrichPendingInputScripthashes (txid txHex : String) :
    IsLookup (enrichPendingInputScripthashes env p txid txHex) :=
  (enriching_enrichPendingInputScripthashes env p txid txHex).lookup

/-- The broadcast plan of an ingest only consults the clock and random numbers. -/
theorem clock_resolveIngestPlan (sourceLabel : String) (nlocktime : Nat) (config : Config)
    (height : Option Nat) :
    IsClock (resolveIngestPlan env sourceLabel nlocktime config height) := by
  have hplan : IsClock (resolveBroadcastPlan env config) := by
    unfold resolveBroadcastPlan
    split
    · exact Prog.uses_bind (uses_act rfl) fun _ => Prog.uses_ret _
    · split
      · exact Prog.uses_ret _
      · refine Prog.uses_bind (clock_genRange _ _) fun delay => ?_
        refine Prog.uses_bind (uses_act rfl) fun now => ?_
        exact Prog.uses_bind (clock_durationHours _) fun _ => Prog.uses_ret _
    · exact Prog.uses_ret _
    · exact Prog.uses_ret _
  unfold resolveIngestPlan
  split
  · split <;> exact Prog.uses_ret _
  · split
    · exact Prog.uses_ret _
    · split
      · exact Prog.uses_ret _
      · split
        · split
          · exact Prog.uses_bind (uses_act rfl) fun _ => Prog.uses_ret _
          · exact Prog.uses_ret _
        · exact hplan

theorem lookup_captureVirtualBlock (mode : BroadcastMode) (sourceLabel : String) :
    IsLookup (captureVirtualBlock p mode sourceLabel) := by
  unfold captureVirtualBlock
  split
  · exact uses_orRaise (uses_act rfl)
  · exact Prog.uses_ret _

end Memory

/-- A memory action writes neither the table nor the safe-mode flag and hands nothing over. -/
theorem no_write_of_isMemory {a : Act} (h : a.isMemory = true) :
    a.writesPool = false ∧ a.writesSafeMode = false ∧ a.handsOver = none := by
  cases a <;> first | exact ⟨rfl, rfl, rfl⟩ | cases h

/-- A quiet action writes none of the three stores and hands nothing over. -/
theorem no_write_of_isQuiet {a : Act} (h : a.isQuiet = true) :
    a.writesPool = false ∧ a.writesPending = false ∧ a.writesSafeMode = false ∧
      a.handsOver = none := by
  cases a <;> first | exact ⟨rfl, rfl, rfl, rfl⟩ | cases h

/-- A hand-over writes nothing. -/
theorem ClockOrSends.writesPool {tx : BroadcastTx} {a : Act} (h : ClockOrSends tx a) :
    a.writesPool = false := by
  rcases h with h | rfl | rfl
  · exact (no_write_of_isQuiet (isQuiet_of_isClock h)).1
  · rfl
  · rfl

end BroadcastPool
