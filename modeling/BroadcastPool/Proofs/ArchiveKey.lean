import BroadcastPool.Api.ArchiveKey
import BroadcastPool.Lib.Attributed
import BroadcastPool.Sample

/-!
# `BroadcastPool.Proofs.ArchiveKey`: one password, one key

`archive_set_password` looks for a verifier, and later writes the salt and then the verifier. The
key of the archive comes from the salt alone, so the two have to belong together. `VerifierCurrent`
is the condition on the two writes: what the request has read about the verifier, and the salt that
it has written, still is what is stored. That there was no verifier, and that the salt is the one
that was hashed, is up to the code (`ArchivePath`).

`archive_stays_decryptable` shows what follows for every run: one request at most succeeds, the
pair stays what it is, every unlock with one password gives one key, and what was sealed under it
opens. `overlapping_set_passwords` is a run in which two requests both find no verifier.
-/

set_option autoImplicit false

namespace BroadcastPool

open Effects

/-- A step of a run about the archive. -/
abbrev ArchiveStep : Type := Performed ArchiveAct ArchiveAct.Res ArchiveWorld

/-! ### What each request does on its own -/

/-- The salt that an answer says is written. -/
def saltWritten : Seen ArchiveAct ArchiveAct.Res → Option String
  | ⟨.setConfigValue key value, .ok _⟩ => if key = archiveSaltKey then some value else none
  | _ => none

/-- What an answer says about the stored verifier. -/
def verifierAnswer : Seen ArchiveAct ArchiveAct.Res → Option (Option String)
  | ⟨.configValue key, .ok verifier⟩ => if key = archiveVerifierKey then some verifier else none
  | _ => none

/-- The answer that a verifier is stored. -/
def verifierRead (verifier : String) : Seen ArchiveAct ArchiveAct.Res :=
  ⟨.configValue archiveVerifierKey, .ok (some verifier)⟩

/-- The answer that a salt is stored. -/
def saltRead (salt : String) : Seen ArchiveAct ArchiveAct.Res :=
  ⟨.configValue archiveSaltKey, .ok (some salt)⟩

/-- The answer that a key is cached. -/
def keyRead (key : Key) : Seen ArchiveAct ArchiveAct.Res := ⟨.key, some key⟩

/-- What a request has seen when it performs an action. A salt and a verifier are written after the
answer that no verifier is stored, and the verifier belongs to the salt that the request has
written. A salt is read after a verifier, and a key is cached for a password that the
verifier accepts. A blob is sealed under a key that was cached. -/
def ArchivePath (libs : ArchiveLibs) (env : Env) (seen : List (Seen ArchiveAct ArchiveAct.Res)) :
    ArchiveAct → Prop
  | .configValue key => key = archiveSaltKey → ∃ verifier, verifierRead verifier ∈ seen
  | .setConfigValue key value => none ∈ seen.filterMap verifierAnswer ∧
      (key = archiveSaltKey ∨ key = archiveVerifierKey ∧
        ∃ password bytes, libs.hashPassword password bytes = .ok value ∧
          seen.filterMap saltWritten = [Text.hexEncode bytes])
  | .cacheKey password key => ∃ verifier salt bytes, verifierRead verifier ∈ seen ∧
      saltRead salt ∈ seen ∧ Text.hexDecode salt = some bytes ∧
        libs.verifyPassword password verifier = .ok true ∧ libs.deriveKey password bytes = some key
  | .insertBlob id blob => ∃ key nonce plaintext, keyRead key ∈ seen ∧
      blob = env.sealHex key nonce plaintext id
  | _ => True

/-- Every answer is possible. -/
abbrev anyReply (a : ArchiveAct) (_ : a.Res) : Prop := a = a

theorem anyReply_exec (libs : ArchiveLibs) (env : Env) (a : ArchiveAct) (w : ArchiveWorld) :
    anyReply a (ArchiveWorld.exec libs env a w).1 :=
  rfl

/-- The contract of a request. -/
abbrev keyContract (libs : ArchiveLibs) (env : Env) :
    Contract ArchiveAct ArchiveAct.Res (List (Seen ArchiveAct ArchiveAct.Res)) :=
  pathContract anyReply (ArchivePath libs env)

section
variable {libs : ArchiveLibs} {env : Env} {α S : Type}
  {c : Contract ArchiveAct ArchiveAct.Res S}

/-- After a query, the function goes on with the value. An error ends it. -/
theorem wp_orInternal_bind {β : Type} {p : A (Except String β)} {f : β → A α}
    {Q : Except ArchiveError α → S → Prop} {s : S}
    (h : p.wp c (fun o s' => ∀ x, o = .ok (.ok x) → (f x).wp c Q s') s)
    (herror : ∀ e s', Q (.error e) s') : ((Archive.orInternal p).bind f).wp c Q s := by
  unfold Archive.orInternal
  rw [Prog.wp_bind, Prog.wp_bind]
  refine Prog.wp_mono (fun o s' ho => ?_) p s h
  rcases o with e | (e | x)
  · exact herror e s'
  · simpa [Archive.internal] using herror _ s'
  · simpa using ho x rfl

/-- A query that ends the function. -/
theorem wp_orInternal_path {p : A (Except String α)} {Q : Except ArchiveError α → S → Prop}
    {s : S} (h : p.wp c (fun _ s' => ∀ o, Q o s') s) : (Archive.orInternal p).wp c Q s := by
  unfold Archive.orInternal
  rw [Prog.wp_bind]
  refine Prog.wp_mono (fun o s' ho => ?_) p s h
  rcases o with e | (e | x)
  · exact ho _
  · simpa [Archive.internal] using ho _
  · simpa using ho _

theorem wp_passwordIsSet
    {Q : Except ArchiveError Bool → List (Seen ArchiveAct ArchiveAct.Res) → Prop}
    {seen : List (Seen ArchiveAct ArchiveAct.Res)}
    (hok : ∀ verifier, Q (.ok verifier.isSome)
      (seen ++ [⟨.configValue archiveVerifierKey, .ok verifier⟩]))
    (herror : ∀ e seen', Q (.error e) seen') :
    Archive.passwordIsSet.wp (keyContract libs env) Q seen := by
  unfold Archive.passwordIsSet
  have hnotSalt : ArchivePath libs env seen (.configValue archiveVerifierKey) := by
    intro hkey
    exact absurd hkey (by decide)
  refine wp_orInternal_bind (Prog.wp_perform_path _ _ _ hnotSalt fun r _ verifier hr => ?_)
    herror
  cases hr
  exact (Prog.wp_ret _ _ _).mpr (hok verifier)

theorem wp_archiveSetPassword (password : String) :
    (Archive.archiveSetPassword libs password).wp (keyContract libs env) (fun _ _ => True) [] := by
  unfold Archive.archiveSetPassword
  refine (Prog.wp_bind _ _ _ _).2 (wp_passwordIsSet (fun verifier => ?_) fun _ _ => trivial)
  refine (Prog.wp_bind _ _ _ _).2 ((Prog.wp_ensure _ _ _ _).2 ⟨fun hset => ?_, fun _ => trivial⟩)
  cases verifier with
  | some verifier => cases hset
  | none =>
  unfold Archive.setPassword
  refine (Prog.wp_bind _ _ _ _).2 (Prog.wp_perform_path _ _ _ trivial fun bytes _ => ?_)
  dsimp only
  cases hhash : libs.hashPassword password bytes with
  | error e => exact (Prog.wp_fail _ _ _).mpr trivial
  | ok value =>
    have hunset : none ∈ List.filterMap verifierAnswer
        ([] ++ [⟨.configValue archiveVerifierKey, .ok none⟩] ++ [⟨.saltBytes, bytes⟩]) :=
      List.mem_singleton_self _
    refine wp_orInternal_bind (Prog.wp_perform_path _ _ _ ⟨hunset, Or.inl rfl⟩
      fun r _ u hr => ?_) fun _ _ => trivial
    cases hr
    refine wp_orInternal_path (Prog.wp_perform_path _ _ _ ⟨?_, ?_⟩ fun _ _ _ => trivial)
    · rw [List.filterMap_append]
      exact List.mem_append_left _ hunset
    · exact Or.inr ⟨rfl, password, bytes, hhash, rfl⟩

/-- A key is cached only if the verifier accepts the password. -/
theorem wp_unlockWith {password verifier : String} {bytes : List UInt8}
    {seen : List (Seen ArchiveAct ArchiveAct.Res)}
    (hcache : ∀ key, libs.verifyPassword password verifier = .ok true →
      libs.deriveKey password bytes = some key →
        ArchivePath libs env seen (.cacheKey password key)) :
    (Archive.unlockWith libs password verifier bytes).wp (keyContract libs env)
      (fun _ _ => True) seen := by
  unfold Archive.unlockWith
  cases hverify : libs.verifyPassword password verifier with
  | error e => exact (Prog.wp_fail _ _ _).mpr trivial
  | ok accepted =>
    cases accepted with
    | false => exact (Prog.wp_ret _ _ _).mpr trivial
    | true =>
      cases hderive : libs.deriveKey password bytes with
      | none => exact (Prog.wp_fail _ _ _).mpr trivial
      | some key =>
        refine (Prog.wp_bind _ _ _ _).2
          (Prog.wp_perform_path _ _ _ (hcache key hverify hderive) fun _ _ => ?_)
        exact (Prog.wp_ret _ _ _).mpr trivial

theorem wp_archiveUnlock (password : String) :
    (Archive.archiveUnlock libs password).wp (keyContract libs env) (fun _ _ => True) [] := by
  unfold Archive.archiveUnlock
  refine (Prog.wp_bind _ _ _ _).2 (wp_passwordIsSet (fun verifier => ?_) fun _ _ => trivial)
  refine (Prog.wp_bind _ _ _ _).2 ((Prog.wp_ensure _ _ _ _).2 ⟨fun _ => ?_, fun _ => trivial⟩)
  unfold Archive.unlock
  generalize [] ++ [(⟨.configValue archiveVerifierKey, .ok verifier⟩ :
    Seen ArchiveAct ArchiveAct.Res)] = seen
  have hnotSalt : ArchivePath libs env seen (.configValue archiveVerifierKey) := by
    intro hkey
    exact absurd hkey (by decide)
  refine wp_orInternal_bind (Prog.wp_perform_path _ _ _ hnotSalt fun r _ stored hr => ?_)
    fun _ _ => trivial
  cases hr
  cases stored with
  | none => exact (Prog.wp_fail _ _ _).mpr trivial
  | some verifier =>
  have hread : verifierRead verifier ∈ seen ++ [verifierRead verifier] :=
    List.mem_append_right _ (List.mem_singleton_self _)
  refine wp_orInternal_bind (Prog.wp_perform_path _ _ _ (fun _ => ⟨verifier, hread⟩)
    fun r _ stored hr => ?_) fun _ _ => trivial
  cases hr
  cases stored with
  | none => exact (Prog.wp_fail _ _ _).mpr trivial
  | some salt =>
  dsimp only
  cases hdecode : Text.hexDecode salt with
  | none => exact (Prog.wp_fail _ _ _).mpr trivial
  | some bytes =>
    refine wp_unlockWith fun key hverify hderive => ?_
    exact ⟨verifier, salt, bytes, List.mem_append_left _ hread,
      List.mem_append_right _ (List.mem_singleton_self _), hdecode, hverify, hderive⟩

theorem wp_unlockedKey {Q : Except ArchiveError Key → List (Seen ArchiveAct ArchiveAct.Res) → Prop}
    (hok : ∀ key, Q (.ok key) [keyRead key]) (herror : ∀ e seen, Q (.error e) seen) :
    Archive.unlockedKey.wp (keyContract libs env) Q [] := by
  unfold Archive.unlockedKey
  refine (Prog.wp_bind _ _ _ _).2 (Prog.wp_perform_path _ _ _ trivial fun key _ => ?_)
  cases key with
  | none => exact (Prog.wp_fail _ _ _).mpr (herror _ _)
  | some key => exact (Prog.wp_ret _ _ _).mpr (hok key)

theorem keeps_archiveItem (key : Key) (plaintext : String) :
    (Archive.archiveItem env key plaintext).Keeps (keyContract libs env)
      fun seen => keyRead key ∈ seen := by
  intro seen hseen
  unfold Archive.archiveItem
  refine (Prog.wp_bind _ _ _ _).2 (Prog.wp_perform_path _ _ _ trivial fun id _ => ?_)
  refine (Prog.wp_bind _ _ _ _).2 (Prog.wp_perform_path _ _ _ trivial fun nonce _ => ?_)
  have hkey : keyRead key ∈ seen ++ [⟨.uuid, id⟩] ++ [⟨.nonce, nonce⟩] :=
    List.mem_append_left _ (List.mem_append_left _ hseen)
  exact wp_orInternal_path (Prog.wp_perform_path _ _ _ ⟨key, nonce, plaintext, hkey, rfl⟩
    fun _ _ _ => List.mem_append_left _ hkey)

/-- Every request keeps to `ArchivePath`. -/
theorem onPaths_archiveRequest (request : ArchiveRequest) :
    (request.prog libs env).OnPaths anyReply (ArchivePath libs env) [] := by
  cases request with
  | setPassword password => exact wp_archiveSetPassword password
  | unlock password =>
    refine (Prog.wp_bind _ _ _ _).2 (Prog.wp_mono (fun o seen _ => ?_) _ _
      (wp_archiveUnlock password))
    cases o with
    | error e => trivial
    | ok unlocked => exact (Prog.wp_ret _ _ _).mpr trivial
  | lock => exact Prog.wp_perform_path _ _ _ trivial fun _ _ => trivial
  | status =>
    refine (Prog.wp_bind _ _ _ _).2 (Prog.wp_perform_path _ _ _ trivial fun unlocked _ => ?_)
    refine (Prog.wp_bind _ _ _ _).2 (wp_passwordIsSet (fun verifier => ?_) fun _ _ => trivial)
    exact (Prog.wp_ret _ _ _).mpr trivial
  | archive items =>
    refine (Prog.wp_bind _ _ _ _).2 (wp_unlockedKey (fun key => ?_) fun _ _ => trivial)
    exact Prog.Keeps.onPaths (Prog.keeps_forEach items fun plaintext _ =>
      keeps_archiveItem key plaintext) (List.mem_singleton_self _)
  | item id =>
    unfold ArchiveRequest.prog Archive.getArchiveItem
    refine (Prog.wp_bind _ _ _ _).2 ((Prog.wp_bind _ _ _ _).2
      (wp_unlockedKey (fun key => ?_) fun _ _ => trivial))
    refine wp_orInternal_bind (Prog.wp_perform_path _ _ _ trivial fun r _ stored hr => ?_)
      fun _ _ => trivial
    cases hr
    cases stored with
    | none => exact (Prog.wp_fail _ _ _).mpr trivial
    | some blob =>
      dsimp only
      cases env.openHex key blob id with
      | error e => exact (Prog.wp_fail _ _ _).mpr trivial
      | ok plaintext => exact (Prog.wp_ret _ _ _).mpr ((Prog.wp_ret _ _ _).mpr trivial)
  | restart => exact Prog.wp_perform_path _ _ _ trivial fun _ _ => trivial

end

section
variable {libs : ArchiveLibs}

/-- A request for a new password succeeds only when it has stored a verifier, as its last action. -/
theorem stored_of_archiveSetPassword {answers : (a : ArchiveAct) → a.Res → Prop}
    {password : String} {l : List (Seen ArchiveAct ArchiveAct.Res)}
    (h : (Archive.archiveSetPassword libs password).Path answers l (.ok ())) :
    ∃ verifier before, l = before ++ [⟨.setConfigValue archiveVerifierKey verifier, .ok ()⟩] := by
  unfold Archive.archiveSetPassword at h
  obtain ⟨alreadySet, l₁, l₂, -, hrest, rfl⟩ := Prog.path_bind_ok h
  obtain ⟨-, l₃, l₄, -, hset, rfl⟩ := Prog.path_bind_ok hrest
  unfold Archive.setPassword at hset
  obtain ⟨bytes, l₅, l₆, -, hwrites, rfl⟩ := Prog.path_bind_ok hset
  cases hhash : libs.hashPassword password bytes with
  | error e =>
    rw [hhash] at hwrites
    cases hwrites
  | ok verifier =>
    rw [hhash] at hwrites
    obtain ⟨-, l₇, l₈, -, hverifier, rfl⟩ := Prog.path_bind_ok hwrites
    obtain ⟨r, l₉, l₁₀, hlast, hend, rfl⟩ := Prog.path_bind_ok hverifier
    obtain ⟨r', -, rfl, hr⟩ := Prog.path_perform_iff.1 hlast
    cases hr
    cases r with
    | error e => cases hend
    | ok u =>
      obtain ⟨rfl, -⟩ := Prog.path_ret_iff.1 hend
      exact ⟨verifier, l₁ ++ (l₃ ++ (l₅ ++ l₇)), by simp⟩

end

/-! ### The pair and the key along a run -/

/-- The verifier that a step stores. -/
def verifierStored (env : Env) (e : ArchiveStep) : Option String :=
  match e.act with
  | .setConfigValue key value =>
      if key = archiveVerifierKey ∧ env.dbFault e.state.tick = none then some value else none
  | _ => none

/-- The condition on a step. When a request writes its salt or its verifier, what it has read about
the verifier still is stored, and so is a salt that it has written. -/
def VerifierCurrent (env : Env) (e : ArchiveStep) : Prop :=
  match e.act with
  | .setConfigValue .. => env.dbFault e.state.tick = none →
      (∀ read ∈ e.seen.filterMap verifierAnswer, e.state.verifier = read) ∧
        ∀ salt ∈ e.seen.filterMap saltWritten, e.state.salt = some salt
  | _ => True

instance VerifierCurrent.decidable (env : Env) (e : ArchiveStep) :
    Decidable (VerifierCurrent env e) := by
  apply @ArchiveAct.casesOn (fun a => Decidable (VerifierCurrent env ⟨e.state, e.seen, a⟩)) e.act
  all_goals
    intros
    dsimp only [VerifierCurrent]
    infer_instance

/-- The salt and the verifier belong to one password. -/
def PairOf (libs : ArchiveLibs) (salt verifier : String) : Prop :=
  ∃ password bytes, libs.hashPassword password bytes = .ok verifier ∧ salt = Text.hexEncode bytes

/-- The steps of a run, and the pair once a verifier is stored. -/
structure KeyHistory where
  steps : List ArchiveStep := []
  pair : Option (String × String) := none

/-- The history after a step. -/
def KeyHistory.after (env : Env) (g : KeyHistory) (e : ArchiveStep) : KeyHistory where
  steps := g.steps ++ [e]
  pair := g.pair.or ((verifierStored env e).map fun verifier =>
    (e.state.salt.getD "", verifier))

/-- The stored pair is the one of the history, and the cached key is from an unlock. -/
structure PairKept (libs : ArchiveLibs) (env : Env) (g : KeyHistory) (w : ArchiveWorld) :
    Prop where
  pair : ∀ salt verifier, g.pair = some (salt, verifier) →
    w.salt = some salt ∧ w.verifier = some verifier ∧ PairOf libs salt verifier
  unset : g.pair = none → w.verifier = none ∧ g.steps.filterMap (verifierStored env) = []
  once : (g.steps.filterMap (verifierStored env)).length ≤ 1
  cached : ∀ cached ∈ w.cached,
    ∃ e ∈ g.steps, ∃ password, e.act = .cacheKey password cached.key

/-- What a request has read is the pair, or the key of an unlock. -/
structure FromPair (g : KeyHistory) (x : Seen ArchiveAct ArchiveAct.Res) : Prop where
  verifier : ∀ verifier, x = verifierRead verifier → ∃ salt, g.pair = some (salt, verifier)
  salt : ∀ salt, x = saltRead salt → ∃ verifier, g.pair = some (salt, verifier)
  key : ∀ key, x = keyRead key → ∃ e ∈ g.steps, ∃ password, e.act = .cacheKey password key

section
variable {libs : ArchiveLibs} {env : Env}

theorem exec_configStore {a : ArchiveAct} (h : ∀ key value, a ≠ .setConfigValue key value)
    (w : ArchiveWorld) :
    (ArchiveWorld.exec libs env a w).2.configStore = w.configStore := by
  cases a
  case setConfigValue key value => exact absurd rfl (h key value)
  all_goals
    simp only [ArchiveWorld.exec, ArchiveWorld.effect]
    repeat' split
    all_goals rfl

/-- A cached key was cached before, or is cached by this step. -/
theorem exec_cached (libs : ArchiveLibs) (env : Env) (a : ArchiveAct) (w : ArchiveWorld) :
    ∀ cached ∈ (ArchiveWorld.exec libs env a w).2.cached,
      (∃ password, a = .cacheKey password cached.key) ∨ ∃ c ∈ w.cached, c.key = cached.key := by
  intro cached hcached
  cases a
  case cacheKey password key =>
    cases hcached
    exact Or.inl ⟨password, rfl⟩
  case key =>
    simp only [ArchiveWorld.exec, ArchiveWorld.effect] at hcached
    split at hcached
    · rename_i hnone
      rw [hnone] at hcached
      cases hcached
    · rename_i c hsome
      split at hcached
      · cases hcached
      · cases hcached
        exact Or.inr ⟨c, hsome, rfl⟩
  case lock => cases hcached
  case restart => cases hcached
  all_goals
    refine Or.inr ⟨cached, ?_, rfl⟩
    simp only [ArchiveWorld.exec, ArchiveWorld.effect] at hcached
    repeat' split at hcached
    all_goals first | exact hcached | cases hcached

theorem exec_setConfigValue (libs : ArchiveLibs) (env : Env) (key value : String)
    (w : ArchiveWorld) :
    (ArchiveWorld.exec libs env (.setConfigValue key value) w).2.configStore =
      if env.dbFault w.tick = none then w.configStore.insert key value else w.configStore := by
  simp only [ArchiveWorld.exec, ArchiveWorld.effect]
  cases env.dbFault w.tick <;> rfl

theorem KeyHistory.after_pair_of_some {g : KeyHistory} {pair : String × String}
    (h : g.pair = some pair) (e : ArchiveStep) : (g.after env e).pair = some pair := by
  simp [KeyHistory.after, h]

/-- The cached key is from an unlock, whatever the step does. -/
theorem PairKept.cached_after {g : KeyHistory} {e : ArchiveStep}
    (h : PairKept libs env g e.state) :
    ∀ cached ∈ (ArchiveWorld.exec libs env e.act e.state).2.cached,
      ∃ e' ∈ (g.after env e).steps, ∃ password, e'.act = .cacheKey password cached.key := by
  intro cached hcached
  rcases exec_cached libs env e.act e.state cached hcached with ⟨password, hact⟩ | ⟨c, hc, hkey⟩
  · exact ⟨e, List.mem_append_right _ (List.mem_singleton_self e), password, hact⟩
  · obtain ⟨e', he', password, hact⟩ := h.cached c hc
    exact ⟨e', List.mem_append_left _ he', password, hkey ▸ hact⟩

/-- A step that stores no verifier, and no salt once there is a verifier. -/
theorem PairKept.of_not_stored {g : KeyHistory} {e : ArchiveStep}
    (h : PairKept libs env g e.state) (hstored : verifierStored env e = none)
    (hverifier : (ArchiveWorld.exec libs env e.act e.state).2.verifier = e.state.verifier)
    (hsalt : g.pair ≠ none →
      (ArchiveWorld.exec libs env e.act e.state).2.salt = e.state.salt) :
    PairKept libs env (g.after env e) (ArchiveWorld.exec libs env e.act e.state).2 := by
  have hpair : (g.after env e).pair = g.pair := by simp [KeyHistory.after, hstored]
  have hsteps : (g.after env e).steps.filterMap (verifierStored env) =
      g.steps.filterMap (verifierStored env) := by simp [KeyHistory.after, hstored]
  refine ⟨fun salt verifier hsome => ?_, fun hnone => ?_, ?_, h.cached_after⟩
  · rw [hpair] at hsome
    rw [hverifier, hsalt (by simp [hsome])]
    exact h.pair salt verifier hsome
  · rw [hpair] at hnone
    rw [hverifier, hsteps]
    exact h.unset hnone
  · rw [hsteps]
    exact h.once

/-- A request stores its verifier over its own salt. -/
theorem PairKept.of_stored {g : KeyHistory} {e : ArchiveStep} (h : PairKept libs env g e.state)
    (hpath : ArchivePath libs env e.seen e.act) (halone : VerifierCurrent env e) {value : String}
    (hact : e.act = .setConfigValue archiveVerifierKey value)
    (hfault : env.dbFault e.state.tick = none) :
    PairKept libs env (g.after env e) (ArchiveWorld.exec libs env e.act e.state).2 := by
  have hcached := h.cached_after
  obtain ⟨w, seen, a⟩ := e
  cases hact
  obtain ⟨hread, hwritten⟩ := halone hfault
  obtain ⟨hnoVerifier, hwrites⟩ := hpath
  obtain ⟨-, password, bytes, hhash, hbytes⟩ :=
    hwrites.resolve_left (by decide : archiveVerifierKey ≠ archiveSaltKey)
  -- By the condition there is still no verifier, and the salt is the one this request has written.
  have hunset : w.verifier = none := hread none hnoVerifier
  have hsalt : w.salt = some (Text.hexEncode bytes) :=
    hwritten _ (hbytes ▸ List.mem_singleton_self _)
  have hnone : g.pair = none := by
    cases hpair : g.pair with
    | none => rfl
    | some pair =>
      obtain ⟨-, hverifier, -⟩ := h.pair pair.1 pair.2 hpair
      rw [hunset] at hverifier
      cases hverifier
  have hstored : verifierStored env ⟨w, seen, .setConfigValue archiveVerifierKey value⟩ =
      some value := if_pos ⟨rfl, hfault⟩
  have hpair : (g.after env ⟨w, seen, .setConfigValue archiveVerifierKey value⟩).pair =
      some (Text.hexEncode bytes, value) := by
    simp [KeyHistory.after, hnone, hstored, hsalt]
  have hstore : (ArchiveWorld.exec libs env (.setConfigValue archiveVerifierKey value)
      w).2.configStore = w.configStore.insert archiveVerifierKey value := by
    rw [exec_setConfigValue, if_pos hfault]
  refine ⟨fun salt' verifier hsome => ?_, fun hnone' => ?_, ?_, hcached⟩
  · rw [hpair] at hsome
    cases hsome
    refine ⟨?_, ?_, password, bytes, hhash, rfl⟩
    · unfold ArchiveWorld.salt
      rw [hstore, AList.lookup_insert_ne (by decide)]
      exact hsalt
    · unfold ArchiveWorld.verifier
      rw [hstore, AList.lookup_insert]
  · rw [hpair] at hnone'
    cases hnone'
  · simp [KeyHistory.after, hstored, (h.unset hnone).2]

/-- One step keeps the pair, if it meets the condition. -/
theorem pairKept_step {g : KeyHistory} {e : ArchiveStep} (h : PairKept libs env g e.state)
    (hpath : ArchivePath libs env e.seen e.act) (halone : VerifierCurrent env e) :
    PairKept libs env (g.after env e) (ArchiveWorld.exec libs env e.act e.state).2 := by
  -- Only `set_config_value` writes. A salt is written while there is no pair, a verifier makes one.
  by_cases hwrite : ∃ key value, e.act = .setConfigValue key value
  · obtain ⟨key, value, hact⟩ := hwrite
    by_cases hfault : env.dbFault e.state.tick = none
    · rw [hact] at hpath
      obtain ⟨hnoVerifier, rfl | ⟨rfl, hown⟩⟩ := hpath
      · -- The request has found no verifier, and there still is none.
        have hunset : e.state.verifier = none := by
          unfold VerifierCurrent at halone
          rw [hact] at halone
          exact (halone hfault).1 none hnoVerifier
        refine h.of_not_stored ?_ ?_ fun hpair => ?_
        · unfold verifierStored
          rw [hact]
          exact if_neg fun hstored => absurd hstored.1 (by decide)
        · rw [hact]
          unfold ArchiveWorld.verifier
          rw [exec_setConfigValue, if_pos hfault, AList.lookup_insert_ne (by decide)]
        · obtain ⟨pair, hsome⟩ := Option.ne_none_iff_exists'.1 hpair
          obtain ⟨-, hverifier, -⟩ := h.pair pair.1 pair.2 hsome
          rw [hunset] at hverifier
          cases hverifier
      · exact h.of_stored (hact ▸ ⟨hnoVerifier, Or.inr ⟨rfl, hown⟩⟩) halone hact hfault
    · have hstore : (ArchiveWorld.exec libs env e.act e.state).2.configStore =
          e.state.configStore := by
        rw [hact, exec_setConfigValue, if_neg hfault]
      refine h.of_not_stored ?_ (congrArg (·.lookup archiveVerifierKey) hstore)
        fun _ => congrArg (·.lookup archiveSaltKey) hstore
      unfold verifierStored
      rw [hact]
      exact if_neg fun hstored => hfault hstored.2
  · have hstore : (ArchiveWorld.exec libs env e.act e.state).2.configStore =
        e.state.configStore :=
      exec_configStore (fun key value hact => hwrite ⟨key, value, hact⟩) e.state
    refine h.of_not_stored ?_ (congrArg (·.lookup archiveVerifierKey) hstore)
      fun _ => congrArg (·.lookup archiveSaltKey) hstore
    unfold verifierStored
    split
    · rename_i key value hact
      exact absurd ⟨key, value, hact⟩ hwrite
    · rfl

/-- What a request reads is the pair, or the key of an unlock. -/
theorem fromPair_step {g : KeyHistory} {e : ArchiveStep} (h : PairKept libs env g e.state)
    (hpath : ArchivePath libs env e.seen e.act) (hseen : ∀ x ∈ e.seen, FromPair g x) :
    FromPair (g.after env e) ⟨e.act, (ArchiveWorld.exec libs env e.act e.state).1⟩ := by
  obtain ⟨w, seen, a⟩ := e
  have hlookup : ∀ key value,
      (ArchiveWorld.exec libs env (.configValue key) w).1 = .ok (some value) →
        w.configStore.lookup key = some value := by
    intro key value hanswer
    simp only [ArchiveWorld.exec, ArchiveWorld.effect] at hanswer
    split at hanswer
    · cases hanswer
    · exact Except.ok.inj hanswer
  -- The three answers that count: a verifier, a salt that is read after it, and a cached key.
  refine ⟨fun verifier hx => ?_, fun salt hx => ?_, fun key hx => ?_⟩
  · obtain ⟨rfl, hanswer⟩ := Sigma.mk.inj hx
    have hverifier : w.verifier = some verifier := hlookup _ _ (eq_of_heq hanswer)
    cases hpair : g.pair with
    | none =>
      have hunset : w.verifier = none := (h.unset hpair).1
      rw [hverifier] at hunset
      cases hunset
    | some pair =>
      have hstored : w.verifier = some pair.2 := (h.pair pair.1 pair.2 hpair).2.1
      obtain rfl : verifier = pair.2 := Option.some.inj (hverifier.symm.trans hstored)
      exact ⟨pair.1, KeyHistory.after_pair_of_some hpair _⟩
  · obtain ⟨rfl, hanswer⟩ := Sigma.mk.inj hx
    obtain ⟨verifier, hread⟩ := hpath rfl
    obtain ⟨salt', hpair⟩ := (hseen _ hread).verifier verifier rfl
    have hstored : w.salt = some salt' := (h.pair salt' verifier hpair).1
    have hsalt : w.salt = some salt := hlookup _ _ (eq_of_heq hanswer)
    obtain rfl : salt = salt' := Option.some.inj (hsalt.symm.trans hstored)
    exact ⟨verifier, KeyHistory.after_pair_of_some hpair _⟩
  · obtain ⟨rfl, hanswer⟩ := Sigma.mk.inj hx
    have hanswer : (ArchiveWorld.exec libs env .key w).1 = some key := eq_of_heq hanswer
    simp only [ArchiveWorld.exec, ArchiveWorld.effect] at hanswer
    split at hanswer
    · cases hanswer
    · rename_i cached hcached
      split at hanswer
      · cases hanswer
      · cases hanswer
        obtain ⟨e, he, password, hact⟩ := h.cached cached hcached
        exact ⟨e, List.mem_append_left _ he, password, hact⟩

theorem FromPair.mono {g : KeyHistory} {x : Seen ArchiveAct ArchiveAct.Res} (h : FromPair g x)
    (e : ArchiveStep) : FromPair (g.after env e) x := by
  refine ⟨fun verifier hx => ?_, fun salt hx => ?_, fun key hx => ?_⟩
  · obtain ⟨salt, hpair⟩ := h.verifier verifier hx
    exact ⟨salt, KeyHistory.after_pair_of_some hpair e⟩
  · obtain ⟨verifier, hpair⟩ := h.salt salt hx
    exact ⟨verifier, KeyHistory.after_pair_of_some hpair e⟩
  · obtain ⟨e', he', hact⟩ := h.key key hx
    exact ⟨e', List.mem_append_left _ he', hact⟩

theorem KeyHistory.foldl_pair_of_some {g : KeyHistory} {pair : String × String}
    (h : g.pair = some pair) (steps : List ArchiveStep) :
    (steps.foldl (KeyHistory.after env) g).pair = some pair := by
  induction steps generalizing g with
  | nil => exact h
  | cons e steps ih => exact ih (KeyHistory.after_pair_of_some h e)

theorem KeyHistory.foldl_steps (g : KeyHistory) (steps : List ArchiveStep) :
    (steps.foldl (KeyHistory.after env) g).steps = g.steps ++ steps := by
  induction steps generalizing g with
  | nil => simp
  | cons e steps ih => simp [ih, KeyHistory.after]

end

/-- An event that counts is the only one, if at most one counts. -/
theorem eq_of_length_filterMap {α β : Type} {f : α → Option β} {l : List α}
    (h : (l.filterMap f).length ≤ 1) {x y : α} (hx : x ∈ l) (hy : y ∈ l) {a b : β}
    (ha : f x = some a) (hb : f y = some b) : x = y := by
  obtain ⟨before, after, rfl⟩ := List.append_of_mem hx
  have hsum : (before.filterMap f).length + ((after.filterMap f).length + 1) ≤ 1 := by
    simpa [List.filterMap_append, List.filterMap_cons, ha] using h
  rcases List.mem_append.1 hy with hy | hy
  · have hpos := List.length_pos_of_mem (List.mem_filterMap.2 ⟨y, hy, hb⟩)
    omega
  · rcases List.mem_cons.1 hy with rfl | hy
    · rfl
    · have hpos := List.length_pos_of_mem (List.mem_filterMap.2 ⟨y, hy, hb⟩)
      omega

/-! ### Whole runs -/

/-- The decisions about the programs of the requests. -/
abbrev archiveSchedule (libs : ArchiveLibs) (env : Env) (os : List (Order ArchiveRequest)) :
    List (Choice ArchiveAct ArchiveAct.Res ArchiveError) :=
  os.map (Order.choice fun request => request.prog libs env)

/-- The steps of a run of the requests, from a world in which nothing runs. -/
abbrev archiveSteps (libs : ArchiveLibs) (env : Env) (w : ArchiveWorld)
    (os : List (Order ArchiveRequest)) : List ArchiveStep :=
  Config.performed (ArchiveWorld.exec libs env) ⟨w, []⟩ (archiveSchedule libs env os)

/-- The same steps, each with its request. -/
abbrev archiveDeeds (libs : ArchiveLibs) (env : Env) (w : ArchiveWorld)
    (os : List (Order ArchiveRequest)) :
    List (Deed ArchiveRequest ArchiveAct ArchiveAct.Res ArchiveWorld) :=
  Config.deeds (ArchiveWorld.exec libs env) (fun request => request.prog libs env) ⟨w, []⟩ {} os

/-- The world after the run. -/
abbrev archiveEnd (libs : ArchiveLibs) (env : Env) (w : ArchiveWorld)
    (os : List (Order ArchiveRequest)) : ArchiveWorld :=
  (Config.exec (ArchiveWorld.exec libs env) ⟨w, []⟩ (archiveSchedule libs env os)).state

/-- The request with this number is one for a new password, and it has succeeded. -/
def SetsPassword (libs : ArchiveLibs) (env : Env) (w : ArchiveWorld)
    (os : List (Order ArchiveRequest)) (n : Nat) : Prop :=
  ∃ password, (∃ d ∈ archiveDeeds libs env w os, d.number = n ∧ d.job = .setPassword password) ∧
    (Archive.archiveSetPassword libs password).Path anyReply
      (ownAnswers (ArchiveWorld.exec libs env) n (archiveDeeds libs env w os)) (.ok ())

/-- What keeps the archive decryptable. One request for a new password at most succeeds. Once there
is a verifier, the pair belongs to a password and stays what it is. All unlocks with one password
give one key, and a blob opens under the key of any unlock with the password it was unlocked with.
-/
structure StaysDecryptable (libs : ArchiveLibs) (env : Env) (w : ArchiveWorld)
    (os : List (Order ArchiveRequest)) : Prop where
  once : ∀ n₁ n₂, SetsPassword libs env w os n₁ → SetsPassword libs env w os n₂ → n₁ = n₂
  pair : ∀ e ∈ archiveSteps libs env w os, ∀ verifier, e.state.verifier = some verifier →
    (∃ salt, e.state.salt = some salt ∧ PairOf libs salt verifier) ∧
      (archiveEnd libs env w os).verifier = some verifier ∧
      (archiveEnd libs env w os).salt = e.state.salt
  key : ∀ e₁ ∈ archiveSteps libs env w os, ∀ e₂ ∈ archiveSteps libs env w os,
    ∀ password key₁ key₂, e₁.act = .cacheKey password key₁ → e₂.act = .cacheKey password key₂ →
      key₁ = key₂
  opens : ∀ e ∈ archiveSteps libs env w os, ∀ id blob, e.act = .insertBlob id blob →
    ∃ plaintext, ∃ e₁ ∈ archiveSteps libs env w os, ∃ password key₁,
      e₁.act = .cacheKey password key₁ ∧
        ∀ e₂ ∈ archiveSteps libs env w os, ∀ key₂, e₂.act = .cacheKey password key₂ →
          env.openHex key₂ blob id = .ok plaintext

/-- A pair that is stored at the start belongs to a password, and no key is cached. -/
def ArchiveWorld.StartsPaired (libs : ArchiveLibs) (w : ArchiveWorld) : Prop :=
  w.cached = none ∧ ∀ verifier ∈ w.verifier, ∃ salt ∈ w.salt, PairOf libs salt verifier

/-- A request that succeeds has stored a verifier. -/
theorem stored_of_setsPassword {libs : ArchiveLibs} {env : Env} {w : ArchiveWorld}
    {os : List (Order ArchiveRequest)} {n : Nat} (h : SetsPassword libs env w os n) :
    ∃ d ∈ archiveDeeds libs env w os, d.number = n ∧
      ∃ verifier, verifierStored env d.toPerformed = some verifier := by
  obtain ⟨password, -, hpath⟩ := h
  obtain ⟨verifier, before, hanswers⟩ := stored_of_archiveSetPassword hpath
  have hlast : (⟨.setConfigValue archiveVerifierKey verifier, .ok ()⟩ :
      Seen ArchiveAct ArchiveAct.Res) ∈
        ownAnswers (ArchiveWorld.exec libs env) n (archiveDeeds libs env w os) := by
    rw [hanswers]
    exact List.mem_append_right _ (List.mem_singleton_self _)
  obtain ⟨⟨⟨w', seen, a⟩, m, job⟩, hd, hn, hanswer⟩ := mem_ownAnswers.1 hlast
  obtain ⟨rfl, hanswer⟩ := Sigma.mk.inj hanswer
  refine ⟨_, hd, hn, verifier, if_pos ⟨rfl, ?_⟩⟩
  have hok : (ArchiveWorld.exec libs env (.setConfigValue archiveVerifierKey verifier) w').1 =
      .ok () := (eq_of_heq hanswer).symm
  simp only [ArchiveWorld.exec, ArchiveWorld.effect] at hok
  split at hok
  · cases hok
  · assumption

/-- Where one verifier is stored at most, one request for a new password succeeds at most. -/
theorem setsPassword_once {libs : ArchiveLibs} {env : Env} {w : ArchiveWorld}
    {os : List (Order ArchiveRequest)}
    (h : ((archiveSteps libs env w os).filterMap (verifierStored env)).length ≤ 1) {n₁ n₂ : Nat}
    (h₁ : SetsPassword libs env w os n₁) (h₂ : SetsPassword libs env w os n₂) : n₁ = n₂ := by
  obtain ⟨d₁, hd₁, rfl, verifier₁, hstored₁⟩ := stored_of_setsPassword h₁
  obtain ⟨d₂, hd₂, rfl, verifier₂, hstored₂⟩ := stored_of_setsPassword h₂
  unfold archiveSteps archiveSchedule at h
  rw [← Config.deeds_performed, List.filterMap_map] at h
  rw [eq_of_length_filterMap h hd₁ hd₂ hstored₁ hstored₂]

/-- The history before the first step. -/
def startHistory (w : ArchiveWorld) : KeyHistory where
  pair := w.verifier.map fun verifier => (w.salt.getD "", verifier)

theorem pairKept_start {libs : ArchiveLibs} {env : Env} {w : ArchiveWorld}
    (h : w.StartsPaired libs) : PairKept libs env (startHistory w) w := by
  refine ⟨fun salt verifier hpair => ?_, fun hnone => ⟨?_, rfl⟩, Nat.zero_le _,
    fun cached hcached => ?_⟩
  · obtain ⟨verifier', hverifier, hsame⟩ := Option.map_eq_some_iff.1 hpair
    obtain ⟨salt', hsalt, hbelongs⟩ := h.2 verifier' hverifier
    rw [hsalt] at hsame
    cases hsame
    exact ⟨hsalt, hverifier, hbelongs⟩
  · exact Option.map_eq_none_iff.1 hnone
  · rw [h.1] at hcached
    cases hcached

section
variable {libs : ArchiveLibs} {env : Env} {w : ArchiveWorld}
  {os : List (Order ArchiveRequest)} (hstart : w.StartsPaired libs)
  (halone : ∀ e ∈ archiveSteps libs env w os, VerifierCurrent env e)

/-- The history of the whole run. -/
abbrev endHistory (libs : ArchiveLibs) (env : Env) (w : ArchiveWorld)
    (os : List (Order ArchiveRequest)) : KeyHistory :=
  (archiveSteps libs env w os).foldl (KeyHistory.after env) (startHistory w)

theorem archivePath_of_requests :
    ∀ e ∈ archiveSteps libs env w os, ArchivePath libs env e.seen e.act := by
  intro e he
  unfold archiveSteps archiveSchedule at he
  rw [← Config.deeds_performed] at he
  obtain ⟨d, hd, rfl⟩ := List.mem_map.1 he
  exact Config.required_of_deed (anyReply_exec libs env)
    (fun request _ => onPaths_archiveRequest request) d hd

theorem kept_step : ∀ e ∈ archiveSteps libs env w os, ∀ g : KeyHistory,
    PairKept libs env g e.state → (∀ x ∈ e.seen, FromPair g x) → VerifierCurrent env e →
      PairKept libs env (g.after env e) (ArchiveWorld.exec libs env e.act e.state).2 ∧
        FromPair (g.after env e) ⟨e.act, (ArchiveWorld.exec libs env e.act e.state).1⟩ :=
  fun e he _ hg hseen hP =>
    ⟨pairKept_step hg (archivePath_of_requests e he) hP,
      fromPair_step hg (archivePath_of_requests e he) hseen⟩

include hstart in
theorem recorded_start : (⟨w, []⟩ : Effects.Config ArchiveAct ArchiveAct.Res ArchiveError
    ArchiveWorld).Recorded (PairKept libs env) FromPair (startHistory w) :=
  ⟨pairKept_start hstart, fun t ht => by cases ht⟩

include hstart halone

theorem pairKept_end : PairKept libs env (endHistory libs env w os)
    (archiveEnd libs env w os) :=
  (Config.exec_recorded _ (fun _ e _ hx => hx.mono e) _ _ _ (recorded_start hstart)
    (along_of_forall halone _) kept_step).state

/-- What is known where a step is performed stays known to the end of the run. -/
theorem known_at_step {e : ArchiveStep} (he : e ∈ archiveSteps libs env w os) :
    ∃ g : KeyHistory, PairKept libs env g e.state ∧ (∀ x ∈ e.seen, FromPair g x) ∧
      (∀ e' ∈ g.steps, e' ∈ archiveSteps libs env w os) ∧
        ∀ pair, g.pair = some pair → (endHistory libs env w os).pair = some pair := by
  obtain ⟨before, rest, hsplit⟩ := List.append_of_mem he
  obtain ⟨hg, hseen, -⟩ := Config.performed_recorded _ (fun _ e _ hx => hx.mono e) _ _ _
    (recorded_start hstart) (along_of_forall halone _) kept_step hsplit
  refine ⟨_, hg, hseen, fun e' he' => ?_, fun pair hpair => ?_⟩
  · rw [KeyHistory.foldl_steps] at he'
    rw [hsplit]
    exact List.mem_append_left _ he'
  · unfold endHistory
    rw [hsplit, List.foldl_append]
    exact KeyHistory.foldl_pair_of_some hpair _

/-- A key that is cached comes from the salt of the pair. -/
theorem derived_of_cacheKey {e : ArchiveStep} (he : e ∈ archiveSteps libs env w os)
    {password : String} {key : Key} (hact : e.act = .cacheKey password key) :
    ∃ salt verifier bytes, (endHistory libs env w os).pair = some (salt, verifier) ∧
      Text.hexDecode salt = some bytes ∧ libs.deriveKey password bytes = some key := by
  obtain ⟨g, -, hseen, -, hlast⟩ := known_at_step hstart halone he
  have hpath := archivePath_of_requests e he
  rw [hact] at hpath
  obtain ⟨-, salt, bytes, -, hread, hdecode, -, hderive⟩ := hpath
  obtain ⟨verifier, hpair⟩ := (hseen _ hread).salt salt rfl
  exact ⟨salt, verifier, bytes, hlast _ hpair, hdecode, hderive⟩

/-- Two unlocks with one password give one key. -/
theorem eq_of_cacheKey {e₁ e₂ : ArchiveStep} (he₁ : e₁ ∈ archiveSteps libs env w os)
    (he₂ : e₂ ∈ archiveSteps libs env w os) {password : String} {key₁ key₂ : Key}
    (hact₁ : e₁.act = .cacheKey password key₁) (hact₂ : e₂.act = .cacheKey password key₂) :
    key₁ = key₂ := by
  obtain ⟨salt₁, verifier₁, bytes₁, hpair₁, hdecode₁, hderive₁⟩ :=
    derived_of_cacheKey hstart halone he₁ hact₁
  obtain ⟨salt₂, verifier₂, bytes₂, hpair₂, hdecode₂, hderive₂⟩ :=
    derived_of_cacheKey hstart halone he₂ hact₂
  rw [hpair₁] at hpair₂
  cases hpair₂
  rw [hdecode₁] at hdecode₂
  cases hdecode₂
  rw [hderive₁] at hderive₂
  exact Option.some.inj hderive₂

end

/-- In every interleaving of requests about the archive, with any crash, restart or error of the
database, whose writes meet the condition, the archive stays decryptable. -/
theorem archive_stays_decryptable (libs : ArchiveLibs) (env : Env)
    (hopens : ∀ key nonce plaintext aad,
      env.openHex key (env.sealHex key nonce plaintext aad) aad = .ok plaintext)
    (w : ArchiveWorld) (hstart : w.StartsPaired libs)
    (os : List (Order ArchiveRequest))
    (halone : ∀ e ∈ archiveSteps libs env w os, VerifierCurrent env e) :
    StaysDecryptable libs env w os := by
  have hend := pairKept_end hstart halone
  refine ⟨fun n₁ n₂ hn₁ hn₂ => setsPassword_once ?_ hn₁ hn₂, fun e he verifier hverifier => ?_,
    fun e₁ he₁ e₂ he₂ password key₁ key₂ hact₁ hact₂ =>
      eq_of_cacheKey hstart halone he₁ he₂ hact₁ hact₂,
    fun e he id blob hact => ?_⟩
  · have honce := hend.once
    unfold endHistory at honce
    rw [KeyHistory.foldl_steps] at honce
    exact honce
  · obtain ⟨g, hg, -, -, hlast⟩ := known_at_step hstart halone he
    cases hpair : g.pair with
    | none =>
      have hunset := (hg.unset hpair).1
      rw [hverifier] at hunset
      cases hunset
    | some pair =>
      obtain ⟨hsalt, hstored, hbelongs⟩ := hg.pair pair.1 pair.2 hpair
      obtain ⟨hsaltEnd, hstoredEnd, -⟩ := hend.pair pair.1 pair.2 (hlast pair hpair)
      obtain rfl : verifier = pair.2 := Option.some.inj (hverifier.symm.trans hstored)
      exact ⟨⟨pair.1, hsalt, hbelongs⟩, hstoredEnd, hsaltEnd.trans hsalt.symm⟩
  · obtain ⟨g, -, hseen, hsteps, -⟩ := known_at_step hstart halone he
    have hpath := archivePath_of_requests e he
    rw [hact] at hpath
    obtain ⟨key, nonce, plaintext, hread, rfl⟩ := hpath
    obtain ⟨e₁, he₁, password, hact₁⟩ := (hseen _ hread).key key rfl
    refine ⟨plaintext, e₁, hsteps e₁ he₁, password, key, hact₁, fun e₂ he₂ key₂ hact₂ => ?_⟩
    rw [← eq_of_cacheKey hstart halone (hsteps e₁ he₁) he₂ hact₁ hact₂]
    exact hopens key nonce plaintext id

/-- Libraries that keep the password in the verifier. -/
def sampleArchive : ArchiveLibs where
  hashPassword password bytes := .ok (password ++ "$" ++ Text.hexEncode bytes)
  verifyPassword password verifier := .ok (Text.startsWith verifier (password ++ "$"))
  deriveKey password bytes := some (bytes ++ password.toList.map fun c => UInt8.ofNat c.toNat)
  saltBytes n := List.replicate 16 (UInt8.ofNat n)

/-- The requests, each after the one before it. -/
def inTurn (requests : List ArchiveRequest) : List (Order ArchiveRequest) :=
  requests.zipIdx.flatMap fun (request, i) => .start request :: List.replicate 6 (.step i)

/-- A user sets a password and archives an item, and reads it after a restart. -/
def setThenRestart : List ArchiveRequest :=
  [.setPassword "pw", .unlock "pw", .archive ["07"], .restart, .unlock "pw", .item "id9",
    .setPassword "other"]

theorem archive_stays_decryptable_setThenRestart :
    StaysDecryptable sampleArchive sampleEnv {} (inTurn setThenRestart) := by
  refine archive_stays_decryptable sampleArchive sampleEnv (fun _ _ _ _ => rfl) {}
    ⟨rfl, fun verifier hverifier => ?_⟩ (inTurn setThenRestart) (by decide +kernel)
  cases hverifier

/-- Two requests look for a verifier before either of them writes one. -/
def overlappingSets : List (Order ArchiveRequest) :=
  [.start (.setPassword "first"), .start (.setPassword "second"),
    .step 0, .step 1, .step 0, .step 0, .step 1, .step 1, .step 1, .step 0]

/-- The verifier of the second request is replaced by the one of the first, and the salt of the
second stays. -/
theorem overlapping_set_passwords :
    ¬ StaysDecryptable sampleArchive sampleEnv {} overlappingSets := by
  have hreplaced : ¬ ∀ e ∈ archiveSteps sampleArchive sampleEnv {} overlappingSets,
      ∀ verifier ∈ e.state.verifier,
        (archiveEnd sampleArchive sampleEnv {} overlappingSets).verifier = some verifier := by
    decide +kernel
  exact fun h => hreplaced fun e he verifier hverifier => (h.pair e he verifier hverifier).2.1

end BroadcastPool
