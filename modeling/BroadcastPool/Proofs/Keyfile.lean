import BroadcastPool.Db.Keyfile
import BroadcastPool.Lib.Attributed

/-!
# `BroadcastPool.Proofs.Keyfile`: all starts work with one key

Any number of processes open the database, in any interleaving of their operations on the file
system. Each of them can be killed at any point, and every operation can fail. The record of a run
(`KeyRecord`) says which key was put into a new file, and which key was found complete in the file.
Both are written once.

`one_key` rests on the one thing that the code does not check (`CreatesOnlyMissing`): a start that
finds no keyfile creates it while there is still none. `Path::exists` and the creation are two
operations, so two first starts at the same time can get two different keys. The example at the end
is such a run. Nothing else breaks the condition: a start that creates the file over another one has
asked for it without an answer, or another start has created it since (`overlap_of_created`).
-/

set_option autoImplicit false

namespace BroadcastPool

open Effects

abbrev KeySeen : Type := Seen KeyAct KeyAct.Res

/-! ### What a start does, by its answers -/

/-- The key of a file that was created. -/
def createdIn : KeySeen → Option Key
  | ⟨.createFile key, .ok ()⟩ => some key
  | _ => none

/-- The key that is in the file as a whole. -/
def keptIn : KeySeen → Option Key
  | ⟨.readFile, .ok bytes⟩ => if bytes.length = 32 then some bytes else none
  | ⟨.writeAll bytes, .ok ()⟩ => some bytes
  | _ => none

def KeyAct.creates : KeyAct → Bool
  | createFile _ => true
  | _ => false

def KeyAct.answers : (a : KeyAct) → a.Res → Prop
  | .generateKey, key => key.length = 32
  | _, _ => True

/-- The grounds of an action. -/
structure KeyGrounds (seen : List KeySeen) (a : KeyAct) : Prop where
  create : ∀ key, a = .createFile key → key.length = 32
  write : ∀ bytes, a = .writeAll bytes → bytes.length = 32 ∧ ∃ s ∈ seen, createdIn s = some bytes
  use : ∀ key, a = .useKey key → ∃ s ∈ seen, keptIn s = some key

theorem learns_withContext {α : Type} {context : String} {o : Except String α}
    {l₀ : List KeySeen} {P : α → List KeySeen → Prop}
    (h : ∀ a, o = .ok a → ∀ l, l₀ ⊆ l → P a l) :
    (withContext context o).Learns KeyAct.answers KeyGrounds l₀ P := by
  cases o with
  | error e => exact Prog.learns_fail context
  | ok a => exact Prog.learns_ret (h a rfl)

/-- A key that `load_or_create` returns is in the file as a whole. -/
theorem learns_loadOrCreate (path : String) :
    (loadOrCreate path).Learns KeyAct.answers KeyGrounds []
      fun key l => ∃ s ∈ l, keptIn s = some key := by
  refine Prog.learns_bind (P := fun _ _ => True)
    (Prog.learns_perform (fun _ _ => ⟨nofun, nofun, nofun⟩) fun _ _ _ _ _ => trivial)
    fun found _ _ _ => ?_
  -- A key that was read has the right length. A key that was written was created by this process,
  -- and all of it was written before it is returned.
  cases found with
  | true =>
    refine Prog.learns_bind (Prog.learns_perform (fun _ _ => ⟨nofun, nofun, nofun⟩)
      fun _ _ _ _ hread => hread) fun answer l₁ _ hread => ?_
    refine Prog.learns_bind (P := fun bytes l => ⟨.readFile, .ok bytes⟩ ∈ l)
      (learns_withContext fun bytes hok l hl => hl (hok ▸ hread)) fun bytes l₂ _ hread => ?_
    change (if _ then _ else _ : KeyM Key).Learns _ _ _ _
    split
    · rename_i hlength
      exact Prog.learns_ret fun l hl => ⟨_, hl hread, if_pos hlength⟩
    · exact Prog.learns_fail _
  | false =>
    refine Prog.learns_bind (P := fun key _ => key.length = 32)
      (Prog.learns_perform (fun _ _ => ⟨nofun, nofun, nofun⟩) fun _ _ _ hlength _ => hlength)
      fun key _ _ hlength => ?_
    refine Prog.learns_bind (Prog.learns_perform
      (fun _ _ => ⟨fun _ h => KeyAct.createFile.inj h ▸ hlength, nofun, nofun⟩)
      fun _ _ _ _ hcreate => hcreate) fun answer l₁ _ hcreate => ?_
    refine Prog.learns_bind (P := fun _ l => ⟨.createFile key, .ok ()⟩ ∈ l)
      (learns_withContext fun u hok l hl => hl (hok ▸ hcreate)) fun _ l₂ _ hcreate => ?_
    refine Prog.learns_bind (Prog.learns_perform
      (fun l hl => ⟨nofun, fun bytes h => ?_, nofun⟩) fun _ _ _ _ hwrite => hwrite)
      fun answer l₃ _ hwrite => ?_
    · obtain rfl := KeyAct.writeAll.inj h
      exact ⟨hlength, _, hl hcreate, rfl⟩
    refine Prog.learns_bind (P := fun _ l => ⟨.writeAll key, .ok ()⟩ ∈ l)
      (learns_withContext fun u hok l hl => hl (hok ▸ hwrite)) fun _ l₄ _ hwrite => ?_
    refine Prog.learns_bind (P := fun _ _ => True)
      (Prog.learns_perform (fun _ _ => ⟨nofun, nofun, nofun⟩) fun _ _ _ _ _ => trivial)
      fun answer l₅ hl₅ _ => ?_
    refine Prog.learns_bind (P := fun _ _ => True)
      (learns_withContext fun _ _ _ _ => trivial) fun _ l₆ hl₆ _ => ?_
    exact Prog.learns_ret fun l hl => ⟨_, hl (hl₆ (hl₅ hwrite)), rfl⟩

theorem learns_openWithKey (path : String) :
    (openWithKey path).Learns KeyAct.answers KeyGrounds [] fun _ _ => True := by
  refine Prog.learns_bind (learns_loadOrCreate path) fun key l₁ _ hkept => ?_
  refine Prog.learns_perform (fun l hl => ⟨nofun, nofun, fun key' h => ?_⟩) fun _ _ _ _ _ => trivial
  obtain rfl := KeyAct.useKey.inj h
  obtain ⟨s, hs, hkey⟩ := hkept
  exact ⟨s, hl hs, hkey⟩

/-! ### The record of a run -/

structure KeyRecord where
  created : Option Key := none
  kept : Option Key := none

section
variable {env : KeyfileEnv}

/-- The record after an operation. What it says once stays. -/
def KeyRecord.after (env : KeyfileEnv) (g : KeyRecord)
    (e : Performed KeyAct KeyAct.Res KeyDisk) : KeyRecord where
  created := g.created.or (createdIn ⟨e.act, (KeyDisk.exec env e.act e.state).1⟩)
  kept := g.kept.or (keptIn ⟨e.act, (KeyDisk.exec env e.act e.state).1⟩)

structure KeyRecord.Records (g : KeyRecord) (s : KeySeen) : Prop where
  created : ∀ key, createdIn s = some key → g.created = some key
  kept : ∀ key, keptIn s = some key → g.kept = some key

/-- The record agrees with the keyfile, which was `file` at the start. -/
structure KeyRecord.Holds (file : Option (List UInt8)) (g : KeyRecord) (w : KeyDisk) : Prop where
  untouched : g.created = none → w.file = file
  begun : ∀ key, g.created = some key → file = none ∧ ∃ n, w.file = some (key.take n)
  kept : ∀ key, g.kept = some key → key.length = 32 ∧ w.file = some key

@[simp] theorem KeyRecord.after_created (g : KeyRecord) (e : Performed KeyAct KeyAct.Res KeyDisk) :
    (g.after env e).created =
      g.created.or (createdIn ⟨e.act, (KeyDisk.exec env e.act e.state).1⟩) := rfl

@[simp] theorem KeyRecord.after_kept (g : KeyRecord) (e : Performed KeyAct KeyAct.Res KeyDisk) :
    (g.after env e).kept =
      g.kept.or (keptIn ⟨e.act, (KeyDisk.exec env e.act e.state).1⟩) := rfl

theorem KeyRecord.Records.mono {g : KeyRecord} {s : KeySeen} (h : g.Records s)
    (e : Performed KeyAct KeyAct.Res KeyDisk) : (g.after env e).Records s where
  created key hkey := by rw [after_created, h.created key hkey, Option.some_or]
  kept key hkey := by rw [after_kept, h.kept key hkey, Option.some_or]

theorem foldl_after_kept {g : KeyRecord} {key : Key} (h : g.kept = some key)
    (es : List (Performed KeyAct KeyAct.Res KeyDisk)) :
    (es.foldl (KeyRecord.after env) g).kept = some key := by
  induction es generalizing g with
  | nil => exact h
  | cons e es ih => exact ih (by rw [KeyRecord.after_kept, h, Option.some_or])

/-! ### What the operations leave in the file -/

theorem exec_readFile (env : KeyfileEnv) (w : KeyDisk) :
    ∃ answer, KeyDisk.exec env .readFile w = (answer, { w with tick := w.tick + 1 }) ∧
      ∀ bytes, answer = .ok bytes → w.file = some bytes := by
  unfold KeyDisk.exec KeyDisk.effect
  dsimp only
  split
  · exact ⟨_, rfl, nofun⟩
  · exact ⟨_, rfl, nofun⟩
  · rename_i hfile
    exact ⟨_, rfl, fun _ h => Except.ok.inj h ▸ hfile⟩

theorem exec_createFile (env : KeyfileEnv) (w : KeyDisk) (key : Key) :
    (∃ error, KeyDisk.exec env (.createFile key) w =
      (.error error, { w with tick := w.tick + 1 })) ∨
    KeyDisk.exec env (.createFile key) w = (.ok (), { file := some [], tick := w.tick + 1 }) := by
  unfold KeyDisk.exec KeyDisk.effect
  dsimp only
  split
  · exact Or.inl ⟨_, rfl⟩
  · exact Or.inr rfl

/-- A write leaves the first `n` bytes, and all of them if it succeeds. -/
theorem exec_writeAll (env : KeyfileEnv) (w : KeyDisk) (bytes : List UInt8) :
    ∃ answer n, KeyDisk.exec env (.writeAll bytes) w =
        (answer, { file := w.file.map (overwrite (bytes.take n)), tick := w.tick + 1 }) ∧
      (answer = .ok () → bytes.length ≤ n) := by
  unfold KeyDisk.exec KeyDisk.effect
  dsimp only
  split
  · exact ⟨_, _, rfl, nofun⟩
  · refine ⟨.ok (), bytes.length, ?_, fun _ => le_rfl⟩
    rw [List.take_length]

/-- To write the start of a key over the start of the same key gives a start of it. -/
theorem overwrite_take (key : Key) (m n : Nat) :
    overwrite (key.take m) (key.take n) = key.take (max m n) := by
  rcases Nat.le_total n m with h | h
  · rw [Nat.max_eq_left h, overwrite, List.drop_eq_nil_of_le, List.append_nil]
    rw [List.length_take, List.length_take]
    omega
  · rw [Nat.max_eq_right h, overwrite, List.drop_take, List.length_take]
    rcases Nat.le_total m key.length with hm | hm
    · rw [Nat.min_eq_left hm]
      nth_rewrite 2 [← Nat.add_sub_cancel' h]
      rw [List.take_add]
    · rw [Nat.min_eq_right hm, List.drop_eq_nil_of_le le_rfl, List.take_nil, List.append_nil,
        List.take_of_length_le hm, List.take_of_length_le (hm.trans h)]

/-- The record after an operation that leaves the file as it is. `hkept` is about a key that the
operation has found in it. -/
theorem KeyRecord.Holds.same {file : Option (List UInt8)} {g : KeyRecord}
    {e : Performed KeyAct KeyAct.Res KeyDisk} (h : g.Holds file e.state)
    (hfile : (KeyDisk.exec env e.act e.state).2.file = e.state.file)
    (hcreated : createdIn ⟨e.act, (KeyDisk.exec env e.act e.state).1⟩ = none)
    (hkept : ∀ key, keptIn ⟨e.act, (KeyDisk.exec env e.act e.state).1⟩ = some key →
      key.length = 32 ∧ e.state.file = some key) :
    (g.after env e).Holds file (KeyDisk.exec env e.act e.state).2 ∧
      (g.after env e).Records ⟨e.act, (KeyDisk.exec env e.act e.state).1⟩ := by
  refine ⟨⟨fun hnone => ?_, fun key hkey => ?_, fun key hkey => ?_⟩, ⟨fun key hkey => ?_,
    fun key hkey => ?_⟩⟩
  · rw [after_created, hcreated, Option.or_none] at hnone
    exact hfile.trans (h.untouched hnone)
  · rw [after_created, hcreated, Option.or_none] at hkey
    rw [hfile]
    exact h.begun key hkey
  · rw [hfile]
    rw [after_kept] at hkey
    rcases Option.or_eq_some_iff.1 hkey with hkey | ⟨-, hkey⟩
    · exact h.kept key hkey
    · exact hkept key hkey
  · rw [hcreated] at hkey
    cases hkey
  · rw [after_kept, hkey]
    cases hg : g.kept with
    | none => rfl
    | some key' =>
      obtain ⟨-, hfile'⟩ := h.kept key' hg
      rw [(hkept key hkey).2] at hfile'
      exact hfile'.symm

/-- A process creates the file where there is none. -/
theorem KeyRecord.Holds.create {file : Option (List UInt8)} {g : KeyRecord} {w : KeyDisk}
    {seen : List KeySeen} {key : Key} (h : g.Holds file w) (hnofile : w.file = none)
    (hexec : KeyDisk.exec env (.createFile key) w =
      (.ok (), { file := some [], tick := w.tick + 1 })) :
    (g.after env ⟨w, seen, .createFile key⟩).Holds file (KeyDisk.exec env (.createFile key) w).2 ∧
      (g.after env ⟨w, seen, .createFile key⟩).Records
        ⟨.createFile key, (KeyDisk.exec env (.createFile key) w).1⟩ := by
  -- There is no file, so nobody has created one and no key was in it.
  have hnocreated : g.created = none := by
    cases hcreated : g.created with
    | none => rfl
    | some key' =>
      obtain ⟨-, n, hfile⟩ := h.begun key' hcreated
      rw [hnofile] at hfile
      cases hfile
  have hnokept : g.kept = none := by
    cases hkept : g.kept with
    | none => rfl
    | some key' =>
      obtain ⟨-, hfile⟩ := h.kept key' hkept
      rw [hnofile] at hfile
      cases hfile
  have hstart : file = none := (h.untouched hnocreated).symm.trans hnofile
  have hcreated : (g.after env ⟨w, seen, .createFile key⟩).created = some key := by
    rw [after_created, hnocreated, hexec]
    rfl
  have hkept : (g.after env ⟨w, seen, .createFile key⟩).kept = none := by
    rw [after_kept, hnokept, hexec]
    rfl
  rw [hexec]
  refine ⟨⟨fun hnone => ?_, fun key' hkey' => ?_, fun key' hkey' => ?_⟩, ⟨fun key' hkey' => ?_,
    fun key' hkey' => by cases hkey'⟩⟩
  · rw [hcreated] at hnone
    cases hnone
  · rw [hcreated] at hkey'
    cases hkey'
    exact ⟨hstart, 0, rfl⟩
  · rw [hkept] at hkey'
    cases hkey'
  · cases hkey'
    exact hcreated

/-- A process writes a key into the file that it has created. `n` bytes of it, at least, are in the
file then. -/
theorem KeyRecord.Holds.write {file : Option (List UInt8)} {g : KeyRecord}
    {e : Performed KeyAct KeyAct.Res KeyDisk} {key : Key} (h : g.Holds file e.state)
    (hlength : key.length = 32) (hcreated : g.created = some key) {n : Nat}
    (hfile : (KeyDisk.exec env e.act e.state).2.file =
      e.state.file.map (overwrite (key.take n)))
    (hnone : createdIn ⟨e.act, (KeyDisk.exec env e.act e.state).1⟩ = none)
    (hkept : ∀ key', keptIn ⟨e.act, (KeyDisk.exec env e.act e.state).1⟩ = some key' →
      key' = key ∧ key.length ≤ n) :
    (g.after env e).Holds file (KeyDisk.exec env e.act e.state).2 ∧
      (g.after env e).Records ⟨e.act, (KeyDisk.exec env e.act e.state).1⟩ := by
  obtain ⟨hstart, m, hbegun⟩ := h.begun key hcreated
  -- The file is a prefix of the key before and after, for only this key is ever written into it.
  have hnow : (KeyDisk.exec env e.act e.state).2.file = some (key.take (max n m)) := by
    rw [hfile, hbegun, Option.map_some, overwrite_take]
  -- What was complete is this key.
  have hsame : ∀ key', g.kept = some key' → key' = key ∧ key.length ≤ m := by
    intro key' hkey'
    obtain ⟨hlength', hfile'⟩ := h.kept key' hkey'
    rw [hbegun] at hfile'
    have htake := Option.some.inj hfile'
    have hm : key.length ≤ m := by
      have hlen := congrArg List.length htake
      rw [List.length_take] at hlen
      omega
    exact ⟨htake.symm.trans (List.take_of_length_le hm), hm⟩
  have hwhole : ∀ key', (g.after env e).kept = some key' → key' = key ∧ key.length ≤ max n m := by
    intro key' hkey'
    rw [after_kept] at hkey'
    rcases Option.or_eq_some_iff.1 hkey' with hkey' | ⟨-, hkey'⟩
    · exact ⟨(hsame key' hkey').1, (hsame key' hkey').2.trans (Nat.le_max_right ..)⟩
    · exact ⟨(hkept key' hkey').1, (hkept key' hkey').2.trans (Nat.le_max_left ..)⟩
  refine ⟨⟨fun h => ?_, fun key' hkey' => ?_, fun key' hkey' => ?_⟩, ⟨fun key' hkey' => ?_,
    fun key' hkey' => ?_⟩⟩
  · rw [after_created, hcreated, Option.some_or] at h
    cases h
  · rw [after_created, hcreated, Option.some_or] at hkey'
    cases hkey'
    exact ⟨hstart, _, hnow⟩
  · obtain ⟨rfl, hle⟩ := hwhole key' hkey'
    rw [hnow, List.take_of_length_le hle]
    exact ⟨hlength, rfl⟩
  · rw [hnone] at hkey'
    cases hkey'
  · rw [after_kept, hkey']
    cases hg : g.kept with
    | none => rfl
    | some key'' => rw [Option.some_or, (hsame key'' hg).1, (hkept key' hkey').1]

/-- One operation keeps the record in agreement with the file, and its answer is recorded. -/
theorem keyRecord_step {file : Option (List UInt8)} {g : KeyRecord}
    {e : Performed KeyAct KeyAct.Res KeyDisk} (h : g.Holds file e.state)
    (hgrounds : KeyGrounds e.seen e.act) (hrecords : ∀ s ∈ e.seen, g.Records s)
    (hfree : e.act.creates = true → e.state.file = none) :
    (g.after env e).Holds file (KeyDisk.exec env e.act e.state).2 ∧
      (g.after env e).Records ⟨e.act, (KeyDisk.exec env e.act e.state).1⟩ := by
  obtain ⟨w, seen, a⟩ := e
  dsimp only at h hgrounds hrecords hfree
  -- Only a creation and a write change the file. A whole key is shown by a read, or by a write that
  -- went through.
  cases a with
  | pathExists =>
    refine h.same ?_ rfl fun _ hkey => by cases hkey
    unfold KeyDisk.exec KeyDisk.effect
    dsimp only
    split <;> rfl
  | readFile =>
    obtain ⟨answer, hexec, hread⟩ := exec_readFile env w
    refine h.same (by rw [hexec]) (by rw [hexec]; rfl) fun key hkey => ?_
    rw [hexec] at hkey
    cases answer with
    | error error => cases hkey
    | ok bytes =>
      change (if bytes.length = 32 then some bytes else none) = some key at hkey
      split at hkey
      · rename_i hlength
        cases hkey
        exact ⟨hlength, hread _ rfl⟩
      · cases hkey
  | generateKey => exact h.same rfl rfl fun _ hkey => by cases hkey
  | createFile key =>
    have hnofile := hfree rfl
    rcases exec_createFile env w key with ⟨error, hexec⟩ | hexec
    · refine h.same (by rw [hexec]) (by rw [hexec]; rfl) fun _ hkey => ?_
      rw [hexec] at hkey
      cases hkey
    · exact h.create hnofile hexec
  | writeAll bytes =>
    obtain ⟨hlength, s, hs, hcreated⟩ := hgrounds.write bytes rfl
    obtain ⟨answer, n, hexec, hall⟩ := exec_writeAll env w bytes
    refine h.write hlength ((hrecords s hs).created bytes hcreated) (by rw [hexec])
      (by rw [hexec]; rfl) fun key' hkey' => ?_
    rw [hexec] at hkey'
    cases answer with
    | error error => cases hkey'
    | ok u =>
      cases hkey'
      exact ⟨rfl, hall rfl⟩
  | setPermissions =>
    refine h.same ?_ rfl fun _ hkey => by cases hkey
    unfold KeyDisk.exec KeyDisk.effect
    dsimp only
    split <;> rfl
  | useKey key => exact h.same rfl rfl fun _ hkey => by cases hkey

end

/-! ### A run -/

/-- The schedule starts the program only. -/
def IsStartSchedule (path : String) (chs : List (Choice KeyAct KeyAct.Res String)) : Prop :=
  ∀ p, Choice.start p ∈ chs → p = openWithKey path

/-- A start that has found no keyfile creates it while there is none. -/
def CreatesOnlyMissing (env : KeyfileEnv) (w : KeyDisk)
    (chs : List (Choice KeyAct KeyAct.Res String)) : Prop :=
  ∀ e ∈ Config.performed (KeyDisk.exec env) ⟨w, []⟩ chs, e.act.creates = true → e.state.file = none

instance (env : KeyfileEnv) (w : KeyDisk) (chs : List (Choice KeyAct KeyAct.Res String)) :
    Decidable (CreatesOnlyMissing env w chs) :=
  inferInstanceAs (Decidable (∀ e ∈ Config.performed _ _ _, _ → _))

theorem answers_exec (env : KeyfileEnv) (a : KeyAct) (w : KeyDisk) :
    a.answers (KeyDisk.exec env a w).1 := by
  cases a <;> first | exact env.randomKey_length w.tick | exact trivial

/-- In every interleaving of any number of starts, each of which can fail or be killed between any
two operations, all keys that the database is used with are one key, as long as no start creates the
file over another one. This key has 32 bytes and is in the file in the end, and a keyfile that was
there at the start is never changed. -/
theorem one_key (env : KeyfileEnv) (path : String) (w : KeyDisk)
    (chs : List (Choice KeyAct KeyAct.Res String)) (hstarts : IsStartSchedule path chs)
    (hfree : CreatesOnlyMissing env w chs) :
    (∀ e ∈ Config.performed (KeyDisk.exec env) ⟨w, []⟩ chs, ∀ key, e.act = .useKey key →
      key.length = 32 ∧ (Config.exec (KeyDisk.exec env) ⟨w, []⟩ chs).state.file = some key) ∧
    ∀ bytes, w.file = some bytes →
      (Config.exec (KeyDisk.exec env) ⟨w, []⟩ chs).state.file = some bytes := by
  have hgrounds : ∀ e ∈ Config.performed (KeyDisk.exec env) ⟨w, []⟩ chs,
      KeyGrounds e.seen e.act := by
    refine Config.performed_of_paths (answers_exec env) _ _ (fun t ht => by cases ht) fun p hp => ?_
    rw [hstarts p hp]
    exact (learns_openWithKey path).onPaths
  have hstart : Config.Recorded (KeyRecord.Holds w.file) KeyRecord.Records {}
      (⟨w, []⟩ : Effects.Config KeyAct KeyAct.Res String KeyDisk) :=
    ⟨⟨fun _ => rfl, nofun, nofun⟩, fun t ht => by cases ht⟩
  have hend := Config.exec_recorded (KeyRecord.after env) (fun g e s hs => hs.mono e) chs _ {}
    hstart (along_of_forall hfree _) fun e he g hg hrecords hcreates =>
      keyRecord_step hg (hgrounds e he) hrecords hcreates
  refine ⟨fun e he key huse => ?_, fun bytes hbytes => ?_⟩
  · obtain ⟨before, after, hsplit⟩ := List.append_of_mem he
    obtain ⟨-, hrecords, -⟩ := Config.performed_recorded (KeyRecord.after env)
      (fun g e s hs => hs.mono e) chs _ {} hstart (along_of_forall hfree _)
      (fun e he g hg hrecords hcreates => keyRecord_step hg (hgrounds e he) hrecords hcreates)
      hsplit
    obtain ⟨s, hs, hkept⟩ := (hgrounds e he).use key huse
    refine hend.state.kept key ?_
    rw [hsplit, List.foldl_append]
    exact foldl_after_kept ((hrecords s hs).kept key hkept) _
  · cases hcreated : ((Config.performed (KeyDisk.exec env) ⟨w, []⟩ chs).foldl
        (KeyRecord.after env) {}).created with
    | none => exact (hend.state.untouched hcreated).trans hbytes
    | some key =>
      obtain ⟨hnofile, -⟩ := hend.state.begun key hcreated
      rw [hbytes] at hnofile
      cases hnofile

/-! ### When a start creates the file over another one -/

/-- A start creates the file right after it was told that there is none. -/
def CreatesAfterAsking (seen : List KeySeen) (a : KeyAct) : Prop :=
  a.creates = true → ∃ key, seen = [⟨.pathExists, false⟩, ⟨.generateKey, key⟩]

/-- A part of a start that creates nothing. -/
theorem onPaths_createsNothing {p : KeyM Unit} (l : List KeySeen)
    (hp : p.Uses fun a => a.creates = false) :
    p.OnPaths KeyAct.answers CreatesAfterAsking l := by
  refine Prog.Keeps.onPaths (I := fun _ => True) (Prog.keeps_of_uses (fun a ha _ _ _ =>
    ⟨fun hcreates => ?_, fun _ _ _ => trivial⟩) hp) trivial
  rw [ha] at hcreates
  cases hcreates

theorem createsNothing_withContext {α : Type} (context : String) (o : Except String α) :
    (withContext context o).Uses fun a => a.creates = false := by
  cases o with
  | ok a => exact Prog.uses_ret a
  | error e => exact Prog.uses_fail context

theorem createsNothing_useKey (key : Key) :
    (Prog.perform (KeyAct.useKey key) : KeyM Unit).Uses fun a => a.creates = false :=
  (Prog.uses_perform _).mpr rfl

theorem onPaths_createsAfterAsking (path : String) :
    (openWithKey path).OnPaths KeyAct.answers CreatesAfterAsking [] := by
  refine Prog.onPaths_perform_bind (fun h => by cases h) fun found _ => ?_
  cases found with
  | true =>
    refine onPaths_createsNothing _ (Prog.uses_bind ?_ createsNothing_useKey)
    show ((Prog.perform KeyAct.readFile).bind _).Uses _
    refine Prog.uses_bind ((Prog.uses_perform _).mpr rfl) fun answer => ?_
    refine Prog.uses_bind (createsNothing_withContext _ _) fun bytes => ?_
    show (if _ then _ else _ : KeyM Key).Uses _
    split
    · exact Prog.uses_ret bytes
    · exact Prog.uses_fail _
  | false =>
    refine Prog.onPaths_perform_bind (fun h => by cases h) fun key _ => ?_
    refine Prog.onPaths_perform_bind (fun _ => ⟨key, rfl⟩) fun created _ => ?_
    refine onPaths_createsNothing _ (Prog.uses_bind ?_ createsNothing_useKey)
    show ((withContext _ created).bind _).Uses _
    refine Prog.uses_bind (createsNothing_withContext _ _) fun _ => ?_
    refine Prog.uses_bind ((Prog.uses_perform _).mpr rfl) fun written => ?_
    refine Prog.uses_bind (createsNothing_withContext _ _) fun _ => ?_
    refine Prog.uses_bind ((Prog.uses_perform _).mpr rfl) fun permitted => ?_
    exact Prog.uses_bind (createsNothing_withContext _ _) fun _ => Prog.uses_ret key

/-- The file is there after an operation only if it was there before, or the operation created
it. -/
theorem created_of_file {env : KeyfileEnv} {a : KeyAct} {w : KeyDisk} (hfile : w.file = none)
    (hnow : (KeyDisk.exec env a w).2.file ≠ none) :
    createdIn ⟨a, (KeyDisk.exec env a w).1⟩ ≠ none := by
  cases a with
  | createFile key =>
    rcases exec_createFile env w key with ⟨error, hexec⟩ | hexec
    · rw [hexec] at hnow
      exact absurd hfile hnow
    · rw [hexec]
      exact Option.some_ne_none key
  | writeAll bytes =>
    obtain ⟨answer, n, hexec, -⟩ := exec_writeAll env w bytes
    rw [hexec, hfile] at hnow
    exact absurd rfl hnow
  | readFile =>
    obtain ⟨answer, hexec, -⟩ := exec_readFile env w
    rw [hexec] at hnow
    exact absurd hfile hnow
  | pathExists =>
    refine absurd ?_ hnow
    unfold KeyDisk.exec KeyDisk.effect
    dsimp only
    split <;> exact hfile
  | setPermissions =>
    refine absurd ?_ hnow
    unfold KeyDisk.exec KeyDisk.effect
    dsimp only
    split <;> exact hfile
  | generateKey => exact absurd hfile hnow
  | useKey key => exact absurd hfile hnow

/-- Who is told that there is no file has met none, or was not answered. -/
theorem file_none_of_notFound {env : KeyfileEnv} {w : KeyDisk}
    (hanswer : (KeyDisk.exec env .pathExists w).1 = false) (hfault : env.fault w.tick = none) :
    w.file = none := by
  unfold KeyDisk.exec KeyDisk.effect at hanswer
  dsimp only at hanswer
  rw [hfault] at hanswer
  exact Option.not_isSome_iff_eq_none.1 (Bool.eq_false_iff.1 hanswer)

abbrev KeyDeed : Type := Deed Unit KeyAct KeyAct.Res KeyDisk

def KeyDeed.created (env : KeyfileEnv) (d : KeyDeed) : Option Key :=
  createdIn ⟨d.act, (KeyDisk.exec env d.act d.state).1⟩

/-- The deeds of starts of the program. -/
def startDeeds (env : KeyfileEnv) (path : String) (w : KeyDisk) (os : List (Order Unit)) :
    List KeyDeed :=
  Config.deeds (KeyDisk.exec env) (fun _ => openWithKey path) ⟨w, []⟩ {} os

section Overlap
variable {env : KeyfileEnv} {path : String} {w : KeyDisk} {os : List (Order Unit)}

/-- If there was no file at a deed and there is one at a later one, then it was created at a deed
in between. -/
theorem created_between {before between after : List KeyDeed} {q d : KeyDeed}
    (hsplit : startDeeds env path w os = before ++ q :: (between ++ d :: after))
    (hnofile : q.state.file = none) (hfile : d.state.file ≠ none) :
    ∃ c ∈ q :: between, c.created env ≠ none := by
  have hat : ∀ ds : List KeyDeed, before ++ q :: between = before ++ q :: ds →
      d.state.file ≠ none → ∃ c ∈ q :: ds, c.created env ≠ none := by
    have hd : startDeeds env path w os = (before ++ q :: between) ++ d :: after := by
      rw [hsplit, List.append_assoc, List.cons_append]
    refine Config.deeds_induction (I := fun done w' => ∀ ds : List KeyDeed,
      done = before ++ q :: ds → w'.file ≠ none → ∃ c ∈ q :: ds, c.created env ≠ none)
      (fun ds hds => ?_) (fun done e rest he hdone ds hds hnow => ?_) hd
    · exact absurd (List.append_eq_nil_iff.1 hds.symm).2 (List.cons_ne_nil q ds)
    · -- The deed `e` is `q` itself, or it comes after `q`.
      rcases List.eq_nil_or_concat ds with rfl | ⟨ds', e', rfl⟩
      · obtain ⟨-, hlast⟩ := List.append_inj' hds rfl
        obtain rfl := (List.cons.inj hlast).1
        exact ⟨e, List.mem_cons_self .., created_of_file hnofile hnow⟩
      · have hprefix : done ++ [e] = (before ++ q :: ds') ++ [e'] := by
          rw [hds, List.concat_eq_append, List.append_assoc, List.cons_append]
        obtain ⟨hdone', hlast⟩ := List.append_inj' hprefix rfl
        obtain rfl := (List.cons.inj hlast).1
        by_cases hthere : e.state.file = none
        · exact ⟨e, by simp, created_of_file hthere hnow⟩
        · obtain ⟨c, hc, hcreated⟩ := hdone ds' hdone' hthere
          refine ⟨c, ?_, hcreated⟩
          rw [List.concat_eq_append, ← List.cons_append]
          exact List.mem_append_left _ hc
  exact hat between rfl hfile

/-- A schedule that starts the program only is one of starts. -/
theorem exists_starts {chs : List (Choice KeyAct KeyAct.Res String)}
    (hstarts : IsStartSchedule path chs) :
    ∃ os : List (Order Unit), os.map (Order.choice fun _ => openWithKey path) = chs := by
  induction chs with
  | nil => exact ⟨[], rfl⟩
  | cons ch chs ih =>
    obtain ⟨os, rfl⟩ := ih fun p hp => hstarts p (List.mem_cons_of_mem _ hp)
    cases ch with
    | start p =>
      obtain rfl := hstarts p (List.mem_cons_self ..)
      exact ⟨.start () :: os, rfl⟩
    | step i => exact ⟨.step i :: os, rfl⟩
    | drop i => exact ⟨.drop i :: os, rfl⟩

/-- When a start creates the file over another one, it has asked for the file before, and either the
question was not answered, or another start has created the file since. -/
theorem overlap_of_created {chs : List (Choice KeyAct KeyAct.Res String)}
    (hstarts : IsStartSchedule path chs) (hover : ¬ CreatesOnlyMissing env w chs) :
    ∃ os : List (Order Unit), os.map (Order.choice fun _ => openWithKey path) = chs ∧
      ∃ before q between d after,
        startDeeds env path w os = before ++ q :: (between ++ d :: after) ∧
          q.number = d.number ∧ q.act = .pathExists ∧ d.act.creates = true ∧
            (env.fault q.state.tick ≠ none ∨
              ∃ c ∈ between, c.number ≠ d.number ∧ c.created env ≠ none) := by
  obtain ⟨os, rfl⟩ := exists_starts hstarts
  refine ⟨os, rfl, ?_⟩
  simp only [CreatesOnlyMissing, not_forall] at hover
  obtain ⟨e, he, hcreates, hfile⟩ := hover
  rw [← Config.deeds_performed] at he
  obtain ⟨d, hd, rfl⟩ := List.mem_map.1 he
  obtain ⟨earlier, after, hsplit⟩ := List.append_of_mem hd
  have hasks : ∀ d ∈ startDeeds env path w os, CreatesAfterAsking d.seen d.act :=
    Config.required_of_deed (answers_exec env) fun _ _ => onPaths_createsAfterAsking path
  obtain ⟨key, hseen⟩ := hasks d hd hcreates
  have hown := (Config.seen_eq_own hsplit).symm.trans hseen
  -- `q` asked for the file.
  obtain ⟨q, hq, hnumber, hanswer⟩ := mem_ownAnswers.1 (hown ▸ List.mem_cons_self ..)
  obtain ⟨before, between, rfl⟩ := List.append_of_mem hq
  have hact : q.act = .pathExists := (congrArg Sigma.fst hanswer).symm
  have hsplit' : startDeeds env path w os = before ++ q :: (between ++ d :: after) := by
    show Config.deeds _ _ _ _ _ = _
    rw [hsplit, List.append_assoc, List.cons_append]
  refine ⟨before, q, between, d, after, hsplit', hnumber, hact, hcreates, ?_⟩
  by_cases hfault : env.fault q.state.tick = none
  · refine Or.inr ?_
    have hnofile : q.state.file = none := by
      obtain ⟨⟨w', seen, a⟩, n, j⟩ := q
      cases hact
      exact file_none_of_notFound (eq_of_heq (Sigma.mk.inj hanswer).2).symm hfault
    obtain ⟨c, hc, hcreated⟩ := created_between hsplit' hnofile hfile
    -- The start itself has seen two answers, and neither of them is a created file.
    have hnotown : c.number ≠ d.number := by
      intro hsame
      have hmem : ⟨c.act, (KeyDisk.exec env c.act c.state).1⟩ ∈ ownAnswers (KeyDisk.exec env)
          d.number (before ++ q :: between) :=
        mem_ownAnswers.2 ⟨c, List.mem_append_right _ hc, hsame, rfl⟩
      rw [hown] at hmem
      refine hcreated ?_
      unfold KeyDeed.created
      simp only [List.mem_cons, List.not_mem_nil, or_false] at hmem
      rcases hmem with hasked | hgenerated
      · rw [hasked]
        rfl
      · rw [hgenerated]
        rfl
    rcases List.mem_cons.1 hc with rfl | hc
    · exact absurd hnumber hnotown
    · exact ⟨c, hc, hnotown, hcreated⟩
  · exact Or.inl hfault

end Overlap

/-- Nothing fails, and each key that is generated is another one. -/
def sampleKeyfileEnv : KeyfileEnv where
  fault _ := none
  written _ := 0
  randomKey n := List.replicate 32 (UInt8.ofNat n)
  randomKey_length _ := List.length_replicate

/-- A first start, and another one after it. -/
def twoStarts : List (Choice KeyAct KeyAct.Res String) :=
  .start (openWithKey "pool.key") :: List.replicate 6 (.step 0) ++
    .start (openWithKey "pool.key") :: List.replicate 3 (.step 1)

/-- The keys that the database is used with. -/
def usedKeys (env : KeyfileEnv) (w : KeyDisk) (chs : List (Choice KeyAct KeyAct.Res String)) :
    List Key :=
  (Config.performed (KeyDisk.exec env) ⟨w, []⟩ chs).filterMap fun e =>
    match e.act with
    | .useKey key => some key
    | _ => none

theorem isStartSchedule_twoStarts : IsStartSchedule "pool.key" twoStarts := by
  intro p hp
  simp only [twoStarts, List.cons_append, List.mem_cons, List.mem_append, List.mem_replicate,
    reduceCtorEq, and_false, Choice.start.injEq, false_or, or_false] at hp
  rcases hp with rfl | rfl <;> rfl

/-- The second start reads the key that the first one has written. -/
theorem one_key_twoStarts :
    usedKeys sampleKeyfileEnv {} twoStarts =
      [sampleKeyfileEnv.randomKey 1, sampleKeyfileEnv.randomKey 1] ∧
    (∀ e ∈ Config.performed (KeyDisk.exec sampleKeyfileEnv) ⟨{}, []⟩ twoStarts, ∀ key,
      e.act = .useKey key → key.length = 32 ∧
        (Config.exec (KeyDisk.exec sampleKeyfileEnv) ⟨{}, []⟩ twoStarts).state.file = some key) ∧
    ∀ bytes, ({} : KeyDisk).file = some bytes →
      (Config.exec (KeyDisk.exec sampleKeyfileEnv) ⟨{}, []⟩ twoStarts).state.file = some bytes :=
  ⟨by decide, one_key sampleKeyfileEnv "pool.key" {} twoStarts isStartSchedule_twoStarts
    (by decide)⟩

/-- Two first starts that both ask for the file before one of them creates it get two keys. -/
example : (usedKeys sampleKeyfileEnv {}
    (.start (openWithKey "pool.key") :: .start (openWithKey "pool.key") :: .step 0 :: .step 1 ::
      List.replicate 5 (.step 0) ++ List.replicate 5 (.step 1))).eraseDups.length = 2 := by
  decide

end BroadcastPool
