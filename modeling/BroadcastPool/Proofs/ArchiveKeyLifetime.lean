import BroadcastPool.Lib.Lease
import BroadcastPool.Proofs.ArchiveKey

/-!
# `BroadcastPool.Proofs.ArchiveKeyLifetime`: how long the key of the archive is there

`ArchiveKeyStore` keeps the derived key with the instant at which it expires. A successful
`unlock` sets this instant, a successful `key` moves it, `lock` removes the key, and both `key`
and `is_unlocked` remove a key that has expired. The calls of a timed sequence are run here one
after the other, each at one instant and in an outside world of its own.

For the calls the key is a lease (`Lib.Lease`): granted by `unlock`, renewed by `key`, revoked by
`lock`. `live_iff_alive` is the invariant that links the cached instant to the calls, and
`archive_key_lifetime` says what every call answers.
-/

set_option autoImplicit false

namespace BroadcastPool

open Effects

/-- A call of a method of `ArchiveKeyStore`. -/
inductive KeyCall
  | unlock (password : String)
  | key
  | isUnlocked
  | lock
deriving DecidableEq

/-- A call at an instant. `env` is the outside world during the call. -/
structure TimedCall where
  time : Nat
  env : Env
  call : KeyCall

section Calls
variable (libs : ArchiveLibs)

/-- The method that is called. Of `key` the answer says only whether there is one. -/
def KeyCall.prog : KeyCall → A Bool
  | unlock password => Archive.unlock libs password
  | key => do
    let key ← Archive.perform .key
    return key.isSome
  | isUnlocked => Archive.perform .isUnlocked
  | lock => do
    Archive.perform .lock
    return true

/-- The answer of a call and the state after it. -/
def TimedCall.run (c : TimedCall) (w : ArchiveWorld) : Except ArchiveError Bool × ArchiveWorld :=
  (c.call.prog libs).run (ArchiveWorld.exec libs { c.env with instant := fun _ => c.time })
    { w with tick := 0 }

/-- The state after some calls. -/
def afterCalls (w : ArchiveWorld) (calls : List TimedCall) : ArchiveWorld :=
  calls.foldl (fun w c => (c.run libs w).2) w

/-- The answers to some calls. -/
def keyAnswers : ArchiveWorld → List TimedCall → List (Except ArchiveError Bool)
  | _, [] => []
  | w, c :: calls => (c.run libs w).1 :: keyAnswers (c.run libs w).2 calls

/-- What a call in `w` does to the lease, if its answer says that it has done anything. -/
def TimedCall.event (c : TimedCall) (w : ArchiveWorld) : Lease.History :=
  match c.call, (c.run libs w).1 with
  | .unlock _, .ok true => [(c.time, .grant)]
  | .key, .ok true => [(c.time, .use)]
  | .lock, _ => [(c.time, .revoke)]
  | _, _ => []

/-- The successful unlocks, the successful uses of the key and the locks of some calls. -/
def keyHistory : ArchiveWorld → List TimedCall → Lease.History
  | _, [] => []
  | w, c :: calls => c.event libs w ++ keyHistory (c.run libs w).2 calls

end Calls

/-! ### One call -/

/-- The cached key at a time, if it has not expired. -/
def ArchiveWorld.live (w : ArchiveWorld) (t : Nat) : Option CachedKey :=
  w.cached.filter fun cached => t < cached.expiresAt

variable {libs : ArchiveLibs} {c : TimedCall} {w : ArchiveWorld}

theorem run_key (libs : ArchiveLibs) (w : ArchiveWorld) (h : c.call = .key) :
    ∃ tick, c.run libs w = (.ok (w.live c.time).isSome,
      { w with
        cached := (w.live c.time).map fun cached =>
          { cached with expiresAt := c.time + archiveTtl }
        tick }) := by
  refine ⟨1, ?_⟩
  unfold TimedCall.run KeyCall.prog ArchiveWorld.live
  rw [h]
  cases w.cached with
  | none => simp [Archive.perform, Prog.run_bind, ArchiveWorld.exec, ArchiveWorld.effect]
  | some cached =>
    by_cases hexpired : cached.expiresAt ≤ c.time
    · simp [Archive.perform, Prog.run_bind, ArchiveWorld.exec, ArchiveWorld.effect, hexpired]
    · simp [Archive.perform, Prog.run_bind, ArchiveWorld.exec, ArchiveWorld.effect, hexpired,
        Option.filter, Nat.lt_of_not_le hexpired]

theorem run_isUnlocked (libs : ArchiveLibs) (w : ArchiveWorld) (h : c.call = .isUnlocked) :
    ∃ tick, c.run libs w =
      (.ok (w.live c.time).isSome, { w with cached := w.live c.time, tick }) := by
  refine ⟨1, ?_⟩
  unfold TimedCall.run KeyCall.prog ArchiveWorld.live
  rw [h]
  cases w.cached with
  | none => simp [Archive.perform, ArchiveWorld.exec, ArchiveWorld.effect]
  | some cached =>
    by_cases hexpired : cached.expiresAt ≤ c.time
    · simp [Archive.perform, ArchiveWorld.exec, ArchiveWorld.effect, Option.filter, hexpired]
    · simp [Archive.perform, ArchiveWorld.exec, ArchiveWorld.effect, hexpired, Option.filter,
        Nat.lt_of_not_le hexpired]

theorem run_lock (libs : ArchiveLibs) (w : ArchiveWorld) (h : c.call = .lock) :
    ∃ tick, c.run libs w = (.ok true, { w with cached := none, tick }) := by
  refine ⟨1, ?_⟩
  unfold TimedCall.run KeyCall.prog
  rw [h]
  rfl

/-- The program either caches a key and returns `true`, or it leaves everything as it is and does
not. Which of the two it is does not depend on what is cached. -/
def Decides (libs : ArchiveLibs) (env : Env) (t : Nat) (prog : A Bool) : Prop :=
  ∀ w : ArchiveWorld,
    (∃ key, ∀ cached, ∃ tick, prog.run (ArchiveWorld.exec libs env) { w with cached } =
      (.ok true, { w with cached := some { key, expiresAt := t + archiveTtl }, tick })) ∨
    ∃ o, o ≠ .ok true ∧ ∀ cached, ∃ tick,
      prog.run (ArchiveWorld.exec libs env) { w with cached } = (o, { w with cached, tick })

section Decides
variable {env : Env} {t : Nat}

theorem decides_fail (e : ArchiveError) : Decides libs env t (.fail e) :=
  fun w => Or.inr ⟨.error e, by simp, fun _ => ⟨w.tick, rfl⟩⟩

theorem decides_ret_false : Decides libs env t (.ret false) :=
  fun w => Or.inr ⟨.ok false, by simp, fun _ => ⟨w.tick, rfl⟩⟩

theorem run_orInternal {S α : Type} (h : Handler ArchiveAct ArchiveAct.Res S)
    (p : A (Except String α)) (s : S) :
    (Archive.orInternal p).run h s =
      match p.run h s with
      | (.ok (.ok a), s') => (.ok a, s')
      | (.ok (.error e), s') => (.error (.http 500 e), s')
      | (.error e, s') => (.error e, s') := by
  unfold Archive.orInternal
  rw [Prog.run_bind]
  rcases p.run h s with ⟨(e | (e | a)), s'⟩ <;> rfl

/-- Reading `config_store` changes nothing, and its answer does not depend on the cached key. -/
theorem decides_configValue (key : String) {f : Option String → A Bool}
    (hf : ∀ value, Decides libs env t (f value)) :
    Decides libs env t
      ((Archive.orInternal (Archive.perform (.configValue key))).bind f) := by
  intro w
  simp only [Prog.run_bind, run_orInternal, Archive.perform, Prog.run_perform,
    ArchiveWorld.exec, ArchiveWorld.effect]
  cases hfault : env.dbFault w.tick with
  | some e =>
    exact Or.inr ⟨.error (.http 500 "Failed to read config value"), by simp,
      fun cached => ⟨w.tick + 1, rfl⟩⟩
  | none => exact hf (w.configStore.lookup key) { w with tick := w.tick + 1 }

theorem decides_unlockWith (hinstant : ∀ n, env.instant n = t) (password verifier : String)
    (saltBytes : List UInt8) :
    Decides libs env t (Archive.unlockWith libs password verifier saltBytes) := by
  unfold Archive.unlockWith
  split
  · exact decides_fail _
  · exact decides_ret_false
  · split
    · exact decides_fail _
    · rename_i key hkey
      intro w
      refine Or.inl ⟨key, fun cached => ⟨w.tick + 1, ?_⟩⟩
      simp [Archive.perform, Prog.run_bind, ArchiveWorld.exec, ArchiveWorld.effect, hinstant]

theorem decides_unlock (hinstant : ∀ n, env.instant n = t) (password : String) :
    Decides libs env t (Archive.unlock libs password) := by
  refine decides_configValue _ fun verifier => ?_
  cases verifier with
  | none => exact decides_fail _
  | some verifier =>
    refine decides_configValue _ fun saltHex => ?_
    cases saltHex with
    | none => exact decides_fail _
    | some saltHex =>
      dsimp only
      split
      · exact decides_fail _
      · exact decides_unlockWith hinstant _ _ _

end Decides

/-- An `unlock` either caches a key, or it leaves everything as it is. -/
theorem run_unlock (libs : ArchiveLibs) {password : String} (h : c.call = .unlock password)
    (w : ArchiveWorld) :
    (∃ key, ∀ cached, ∃ tick, c.run libs { w with cached } = (.ok true,
      { w with cached := some { key, expiresAt := c.time + archiveTtl }, tick })) ∨
    ∃ o, o ≠ .ok true ∧ ∀ cached, ∃ tick, c.run libs { w with cached } =
      (o, { w with cached, tick }) := by
  unfold TimedCall.run KeyCall.prog
  rw [h]
  exact @decides_unlock libs { c.env with instant := fun _ => c.time } c.time (fun _ => rfl)
    password { w with tick := 0 }

/-! ### The cached key over time -/

theorem live_eq_none {t t' : Nat} (h : t ≤ t') (hnone : w.live t = none) : w.live t' = none := by
  unfold ArchiveWorld.live at hnone ⊢
  rw [Option.filter_eq_none_iff] at hnone ⊢
  intro cached hcached
  have hexpired := hnone cached hcached
  simp only [decide_eq_true_eq] at hexpired ⊢
  omega

/-- Removing a key that has expired does not change what is there later. -/
theorem filter_live {t t' : Nat} (h : t ≤ t') :
    ((w.live t).filter fun cached => t' < cached.expiresAt) = w.live t' := by
  unfold ArchiveWorld.live
  cases w.cached with
  | none => rfl
  | some cached =>
    by_cases hlate : t' < cached.expiresAt
    · have hearly : t < cached.expiresAt := by omega
      simp [Option.filter, hearly]
    · by_cases hearly : t < cached.expiresAt <;> simp [Option.filter, hearly, hlate]

theorem afterCalls_concat (w : ArchiveWorld) (calls : List TimedCall) (c : TimedCall) :
    afterCalls libs w (calls ++ [c]) = (c.run libs (afterCalls libs w calls)).2 := by
  unfold afterCalls
  rw [List.foldl_append]
  rfl

theorem keyHistory_concat (w : ArchiveWorld) (calls : List TimedCall) (c : TimedCall) :
    keyHistory libs w (calls ++ [c]) =
      keyHistory libs w calls ++ c.event libs (afterCalls libs w calls) := by
  induction calls generalizing w with
  | nil => simp [keyHistory, afterCalls]
  | cons d calls ih =>
    simp only [List.cons_append, keyHistory, ih, List.append_assoc]
    rfl

/-- One call keeps the cached key in step with the lease. -/
theorem live_iff_alive_step {history : Lease.History}
    (hw : ∀ t, c.time ≤ t → ((w.live t).isSome = true ↔ Lease.Alive archiveTtl history t))
    {t : Nat} (ht : c.time ≤ t) :
    ((c.run libs w).2.live t).isSome = true ↔
      Lease.Alive archiveTtl (history ++ c.event libs w) t := by
  -- Call by call: an unlock grants, a lock revokes, a request for a live key uses the lease, and
  -- the rest are no events of it.
  cases hcall : c.call with
  | unlock password =>
    rcases run_unlock libs hcall w with ⟨key, hrun⟩ | ⟨o, ho, hrun⟩
    · obtain ⟨tick, hrun⟩ := hrun w.cached
      have hevent : c.event libs w = [(c.time, .grant)] := by
        unfold TimedCall.event
        rw [hcall, hrun]
      rw [hevent, Lease.alive_concat_grant, hrun]
      simp [ArchiveWorld.live, Option.filter]
    · obtain ⟨tick, hrun⟩ := hrun w.cached
      have hevent : c.event libs w = [] := by
        unfold TimedCall.event
        rw [hcall, hrun]
        rcases o with e | (_ | _)
        · rfl
        · rfl
        · exact absurd rfl ho
      rw [hevent, List.append_nil, hrun]
      exact hw t ht
  | key =>
    obtain ⟨tick, hrun⟩ := run_key libs w hcall
    cases hlive : w.live c.time with
    | none =>
      have hevent : c.event libs w = [] := by
        unfold TimedCall.event
        rw [hcall, hrun, hlive]
        rfl
      rw [hevent, List.append_nil, ← hw t ht, live_eq_none ht hlive, hrun, hlive]
      rfl
    | some cached =>
      have hevent : c.event libs w = [(c.time, .use)] := by
        unfold TimedCall.event
        rw [hcall, hrun, hlive]
        rfl
      -- The key is handed out, and its time starts anew.
      have halive := (hw c.time le_rfl).1 (by rw [hlive]; rfl)
      rw [hevent, Lease.alive_concat_use, and_iff_right halive, hrun, hlive]
      simp [ArchiveWorld.live, Option.filter]
  | isUnlocked =>
    obtain ⟨tick, hrun⟩ := run_isUnlocked libs w hcall
    have hevent : c.event libs w = [] := by
      unfold TimedCall.event
      rw [hcall]
    rw [hevent, List.append_nil, ← hw t ht, hrun]
    show ((w.live c.time).filter _).isSome = true ↔ _
    rw [filter_live ht]
  | lock =>
    obtain ⟨tick, hrun⟩ := run_lock libs w hcall
    have hevent : c.event libs w = [(c.time, .revoke)] := by
      unfold TimedCall.event
      rw [hcall]
    rw [hevent, hrun]
    simpa [ArchiveWorld.live] using Lease.not_alive_concat_revoke

/-- The cached key is there exactly while the lease is alive. The induction is on the calls, from
the last one. -/
theorem live_iff_alive (hfresh : w.cached = none) (calls : List TimedCall)
    (hsorted : (calls.map (·.time)).Pairwise (· ≤ ·)) {t : Nat}
    (ht : ∀ c ∈ calls, c.time ≤ t) :
    ((afterCalls libs w calls).live t).isSome = true ↔
      Lease.Alive archiveTtl (keyHistory libs w calls) t := by
  induction calls using List.reverseRecOn generalizing t with
  | nil =>
    have hnone : (afterCalls libs w []).live t = none := by
      unfold afterCalls ArchiveWorld.live
      rw [List.foldl_nil, hfresh]
      rfl
    rw [hnone]
    simpa [keyHistory] using Lease.not_alive_nil
  | append_singleton calls c ih =>
    rw [List.map_append, List.pairwise_append] at hsorted
    obtain ⟨hbefore, -, hlast⟩ := hsorted
    rw [afterCalls_concat, keyHistory_concat]
    refine live_iff_alive_step (fun t' ht' => ih hbefore fun d hd => ?_) (ht c (by simp))
    exact le_trans (hlast d.time (List.mem_map_of_mem hd) c.time (by simp)) ht'

/-! ### Calls of `is_unlocked` -/

/-- From the time `t` on, the two states cannot be told apart. -/
structure SameFrom (t : Nat) (w w' : ArchiveWorld) : Prop where
  rest : ∃ cached tick, w' = { w with cached, tick }
  live : ∀ t', t ≤ t' → w'.live t' = w.live t'

/-- A later call has the same answer in both, and leaves states that cannot be told apart. -/
theorem sameFrom_step (libs : ArchiveLibs) {t : Nat} {w' : ArchiveWorld} (h : SameFrom t w w')
    (ht : t ≤ c.time) :
    (c.run libs w').1 = (c.run libs w).1 ∧
      SameFrom c.time (c.run libs w).2 (c.run libs w').2 := by
  obtain ⟨⟨cached, tick, rfl⟩, hlive⟩ := h
  have hnow := hlive c.time ht
  cases hcall : c.call with
  | unlock password =>
    rcases run_unlock libs hcall w with ⟨key, hrun⟩ | ⟨o, ho, hrun⟩
    · obtain ⟨tick₁, hrun₁⟩ := hrun w.cached
      obtain ⟨tick₂, hrun₂⟩ := hrun cached
      have hrun₂' : c.run libs { w with cached, tick } = _ := hrun₂
      rw [hrun₁, hrun₂']
      exact ⟨rfl, ⟨_, tick₂, rfl⟩, fun _ _ => rfl⟩
    · obtain ⟨tick₁, hrun₁⟩ := hrun w.cached
      obtain ⟨tick₂, hrun₂⟩ := hrun cached
      have hrun₂' : c.run libs { w with cached, tick } = _ := hrun₂
      rw [hrun₁, hrun₂']
      exact ⟨rfl, ⟨cached, tick₂, rfl⟩, fun t' ht' => hlive t' (le_trans ht ht')⟩
  | key =>
    obtain ⟨tick₁, hrun₁⟩ := run_key libs w hcall
    obtain ⟨tick₂, hrun₂⟩ := run_key libs { w with cached, tick } hcall
    rw [hrun₁, hrun₂, hnow]
    exact ⟨rfl, ⟨_, tick₂, rfl⟩, fun _ _ => rfl⟩
  | isUnlocked =>
    obtain ⟨tick₁, hrun₁⟩ := run_isUnlocked libs w hcall
    obtain ⟨tick₂, hrun₂⟩ := run_isUnlocked libs { w with cached, tick } hcall
    rw [hrun₁, hrun₂, hnow]
    exact ⟨rfl, ⟨_, tick₂, rfl⟩, fun _ _ => rfl⟩
  | lock =>
    obtain ⟨tick₁, hrun₁⟩ := run_lock libs w hcall
    obtain ⟨tick₂, hrun₂⟩ := run_lock libs { w with cached, tick } hcall
    rw [hrun₁, hrun₂]
    exact ⟨rfl, ⟨_, tick₂, rfl⟩, fun _ _ => rfl⟩

/-- States that cannot be told apart give the same answers to all later calls. -/
theorem keyAnswers_of_sameFrom {t : Nat} {w' : ArchiveWorld} (h : SameFrom t w w')
    (calls : List TimedCall) (hsorted : (t :: calls.map (·.time)).Pairwise (· ≤ ·)) :
    keyAnswers libs w' calls = keyAnswers libs w calls := by
  induction calls generalizing t w w' with
  | nil => rfl
  | cons c calls ih =>
    rw [List.map_cons, List.pairwise_cons] at hsorted
    obtain ⟨hanswer, hnext⟩ := sameFrom_step libs h (hsorted.1 c.time (by simp))
    simp only [keyAnswers]
    rw [hanswer, ih hnext hsorted.2]

/-- What `is_unlocked` leaves behind cannot be told apart from what it has found. -/
theorem sameFrom_isUnlocked (h : c.call = .isUnlocked) :
    SameFrom c.time w (c.run libs w).2 := by
  obtain ⟨tick, hrun⟩ := run_isUnlocked libs w h
  rw [hrun]
  refine ⟨⟨w.live c.time, tick, rfl⟩, fun t' ht' => ?_⟩
  show ((w.live c.time).filter _) = _
  exact filter_live ht'

/-! ### The lifetime -/

/-- What the call `c` does after the calls `before`, and what the calls `after` it see of it. -/
structure KeyLifetime (libs : ArchiveLibs) (w : ArchiveWorld) (before : List TimedCall)
    (c : TimedCall) (after : List TimedCall) : Prop where
  key : c.call = .key → ((c.run libs (afterCalls libs w before)).1 = .ok true ↔
    Lease.Alive archiveTtl (keyHistory libs w before) c.time)
  isUnlocked : c.call = .isUnlocked → (c.run libs (afterCalls libs w before)).1 =
    (TimedCall.run libs { c with call := .key } (afterCalls libs w before)).1
  peeks : c.call = .isUnlocked →
    keyAnswers libs (c.run libs (afterCalls libs w before)).2 after =
      keyAnswers libs (afterCalls libs w before) after
  refused : ∀ password, c.call = .unlock password →
    (c.run libs (afterCalls libs w before)).1 ≠ .ok true →
      ∃ tick, (c.run libs (afterCalls libs w before)).2 =
        { afterCalls libs w before with tick }

/-- In every timed sequence of calls on a new store, `key` returns a key if and only if the lease
of the calls before it is alive: some unlock succeeded, no lock came after the latest one, and
from there on no two successful calls are 15 minutes apart. `is_unlocked` answers what `key` would
and changes no other answer, and an unlock that fails changes nothing. -/
theorem archive_key_lifetime (libs : ArchiveLibs) (w : ArchiveWorld) (hfresh : w.cached = none)
    (before : List TimedCall) (c : TimedCall) (after : List TimedCall)
    (hsorted : ((before ++ c :: after).map (·.time)).Pairwise (· ≤ ·)) :
    KeyLifetime libs w before c after := by
  rw [List.map_append, List.pairwise_append] at hsorted
  obtain ⟨hbefore, hafter, hlast⟩ := hsorted
  have halive := @live_iff_alive libs w hfresh before hbefore c.time
    fun d hd => hlast d.time (List.mem_map_of_mem hd) c.time (by simp)
  refine ⟨fun hcall => ?_, fun hcall => ?_, fun hcall => ?_, fun password hcall hrefused => ?_⟩
  · obtain ⟨tick, hrun⟩ := run_key libs (afterCalls libs w before) hcall
    rw [hrun, ← halive]
    simp
  · obtain ⟨tick₁, hrun₁⟩ :=
      run_isUnlocked libs (afterCalls libs w before) hcall
    obtain ⟨tick₂, hrun₂⟩ := run_key libs (afterCalls libs w before)
      (c := { c with call := .key }) rfl
    rw [hrun₁, hrun₂]
  · exact keyAnswers_of_sameFrom (sameFrom_isUnlocked hcall) after hafter
  · rcases run_unlock libs hcall (afterCalls libs w before) with
      ⟨key, hrun⟩ | ⟨o, ho, hrun⟩
    · obtain ⟨tick, hrun⟩ := hrun (afterCalls libs w before).cached
      exact absurd (congrArg (·.1) hrun) hrefused
    · obtain ⟨tick, hrun⟩ := hrun (afterCalls libs w before).cached
      exact ⟨tick, congrArg (·.2) hrun⟩

/-- A store with a password. -/
def passwordWorld : ArchiveWorld where
  configStore := ((∅ : AList fun _ : String => String).insert archiveSaltKey "00").insert
    archiveVerifierKey "pw$"

/-- A call at a second, in the sample world. -/
def atSecond (second : Nat) (call : KeyCall) : TimedCall where
  time := second * 1000000000
  env := sampleEnv
  call := call

/-- A key that is used every ten minutes stays, and it is gone after fifteen without a use. -/
theorem archive_key_lifetime_used :
    KeyLifetime sampleArchive passwordWorld
        [atSecond 0 (.unlock "pw"), atSecond 600 .key, atSecond 1200 .isUnlocked]
        (atSecond 1500 .key) [atSecond 2400 .isUnlocked] ∧
      keyAnswers sampleArchive passwordWorld
        [atSecond 0 (.unlock "pw"), atSecond 600 .key, atSecond 1499 .key,
          atSecond 2399 .isUnlocked] =
        [.ok true, .ok true, .ok true, .ok false] :=
  ⟨archive_key_lifetime sampleArchive passwordWorld rfl _ _ _ (by decide), by rfl⟩

end BroadcastPool
