import BroadcastPool.Env
import BroadcastPool.Lib.Interleave
import BroadcastPool.Lib.Text
import Mathlib.Data.List.AList

/-!
# `BroadcastPool.Api.ArchiveKey`: the password of the archive and its key

`config_store` keeps a salt and a verifier of the password. The key is derived from the password
and the salt when a user unlocks the archive. It lives in memory only, for 15 minutes after its
last use.

The actions here are those of the requests about the archive: one statement on `config_store` or
on `archive_pool`, one access to the cached key. `ArchiveAct.cacheKey` carries the password that
the key was derived from, so that a statement can name it. An error inside a request becomes a
500 with its text.
-/

set_option autoImplicit false

namespace BroadcastPool

open Effects

/-- The Argon2 library and the random salts. -/
structure ArchiveLibs where
  /-- `Argon2::default().hash_password` under a salt: the PHC string. -/
  hashPassword : String → List UInt8 → Except String String
  /-- `PasswordHash::new`, and `verify_password` on what it has parsed. -/
  verifyPassword : String → String → Except String Bool
  /-- `crypto::derive_key`. `none` is a panic. -/
  deriveKey : String → List UInt8 → Option Key
  /-- The 16 random bytes of a salt. -/
  saltBytes : Nat → List UInt8

/-- `ARCHIVE_SALT_KEY`. -/
def archiveSaltKey : String := "archive_salt"

/-- `ARCHIVE_VERIFIER_KEY`. -/
def archiveVerifierKey : String := "archive_verifier"

/-- `TTL`, in nanoseconds. -/
def archiveTtl : Nat := 15 * 60 * 1000000000

/-- `CachedKey`. -/
structure CachedKey where
  key : Key
  expiresAt : Nat
deriving DecidableEq, Repr

/-- The tables `config_store` and `archive_pool`, and the cached key of the daemon. -/
structure ArchiveWorld where
  configStore : AList fun _ : String => String := ∅
  /-- Ids and blobs. -/
  archive : List (String × String) := []
  cached : Option CachedKey := none
  tick : Nat := 0

/-- One indivisible step of a request about the archive. -/
inductive ArchiveAct
  | configValue (key : String)
  | setConfigValue (key value : String)
  | insertBlob (id blob : String)
  | archiveBlob (id : String)
  | cacheKey (password : String) (key : Key)
  | key
  | isUnlocked
  | lock
  | saltBytes | uuid | nonce
  /-- The daemon starts again, and the cached key is gone. -/
  | restart

/-- The type of an action's answer. -/
@[reducible] def ArchiveAct.Res : ArchiveAct → Type
  | configValue _ | archiveBlob _ => Except String (Option String)
  | setConfigValue .. | insertBlob .. => Except String Unit
  | cacheKey .. | lock | restart => Unit
  | key => Option Key
  | isUnlocked => Bool
  | saltBytes => List UInt8
  | uuid => String
  | nonce => Nat

namespace ArchiveWorld

/-- The stored salt, as hex text. -/
def salt (w : ArchiveWorld) : Option String := w.configStore.lookup archiveSaltKey

/-- The stored verifier. -/
def verifier (w : ArchiveWorld) : Option String := w.configStore.lookup archiveVerifierKey

/-- The answer and the effect of an action, without the count. -/
def effect (libs : ArchiveLibs) (env : Env) (w : ArchiveWorld) :
    (a : ArchiveAct) → a.Res × ArchiveWorld
  | .configValue key =>
      match env.dbFault w.tick with
      | some _ => (.error "Failed to read config value", w)
      | none => (.ok (w.configStore.lookup key), w)
  | .setConfigValue key value =>
      match env.dbFault w.tick with
      | some _ => (.error "Failed to upsert config value", w)
      | none => (.ok (), { w with configStore := w.configStore.insert key value })
  | .insertBlob id blob =>
      match env.dbFault w.tick with
      | some _ => (.error "Failed to start archive transaction", w)
      | none =>
        if w.archive.any (·.1 = id) then (.error "Failed to insert archive row", w)
        else (.ok (), { w with archive := w.archive ++ [(id, blob)] })
  | .archiveBlob id =>
      match env.dbFault w.tick with
      | some _ => (.error "Failed to read archive blob", w)
      | none => (.ok ((w.archive.find? (·.1 = id)).map (·.2)), w)
  | .cacheKey _ key =>
      ((), { w with cached := some { key, expiresAt := env.instant w.tick + archiveTtl } })
  | .key =>
      match w.cached with
      | none => (none, w)
      | some cached =>
        if cached.expiresAt ≤ env.instant w.tick then (none, { w with cached := none })
        else (some cached.key, { w with
          cached := some { cached with expiresAt := env.instant w.tick + archiveTtl } })
  | .isUnlocked =>
      match w.cached with
      | none => (false, w)
      | some cached =>
        if cached.expiresAt ≤ env.instant w.tick then (false, { w with cached := none })
        else (true, w)
  | .lock => ((), { w with cached := none })
  | .saltBytes => (libs.saltBytes w.tick, w)
  | .uuid => (env.uuid w.tick, w)
  | .nonce => (w.tick, w)
  | .restart => ((), { w with cached := none })

/-- The handler of the actions. Every action counts as one tick. -/
def exec (libs : ArchiveLibs) (env : Env) : Handler ArchiveAct ArchiveAct.Res ArchiveWorld :=
  fun a w => ((w.effect libs env a).1,
    { (w.effect libs env a).2 with tick := (w.effect libs env a).2.tick + 1 })

end ArchiveWorld

/-- How a request ends without a value: a status with a text, or a panic. -/
inductive ArchiveError
  | http (status : Nat) (text : String)
  | panic (text : String)
deriving DecidableEq, Repr

/-- A function about the archive. -/
abbrev A (α : Type) : Type := Prog ArchiveAct ArchiveAct.Res ArchiveError α

namespace Archive

/-- One action, as a function. -/
def perform (a : ArchiveAct) : A a.Res := Prog.perform a

/-- `INTERNAL_SERVER_ERROR`. -/
def internal {α : Type} (text : String) : A α := .fail (.http 500 text)

/-- `?`, for an error that the request turns into a 500. -/
def orInternal {α : Type} (p : A (Except String α)) : A α :=
  p.bind fun
    | .ok a => .ret a
    | .error e => internal e

/-- `password_is_set`. -/
def passwordIsSet : A Bool := do
  let verifier ← orInternal (perform (.configValue archiveVerifierKey))
  return verifier.isSome

variable (libs : ArchiveLibs) (env : Env)

/-- `ArchiveKeyStore::set_password`. The salt is written first. -/
def setPassword (password : String) : A Unit := do
  let saltBytes ← perform .saltBytes
  match libs.hashPassword password saltBytes with
  | .error e => internal ("failed to hash password: " ++ e)
  | .ok verifier =>
    orInternal (perform (.setConfigValue archiveSaltKey (Text.hexEncode saltBytes)))
    orInternal (perform (.setConfigValue archiveVerifierKey verifier))

/-- The end of `ArchiveKeyStore::unlock`, on the verifier and the salt it has read. -/
def unlockWith (password verifier : String) (saltBytes : List UInt8) : A Bool :=
  match libs.verifyPassword password verifier with
  | .error e => internal ("invalid archive verifier: " ++ e)
  | .ok false => pure false
  | .ok true =>
    match libs.deriveKey password saltBytes with
    | none => .fail (.panic "argon2 derivation")
    | some key => do
      perform (.cacheKey password key)
      return true

/-- `ArchiveKeyStore::unlock`. -/
def unlock (password : String) : A Bool := do
  match ← orInternal (perform (.configValue archiveVerifierKey)) with
  | none => internal "archive password is not set"
  | some verifier =>
    match ← orInternal (perform (.configValue archiveSaltKey)) with
    | none => internal "archive salt is missing"
    | some saltHex =>
      match Text.hexDecode saltHex with
      | none => internal "invalid archive salt"
      | some saltBytes => unlockWith libs password verifier saltBytes

/-- `archive_set_password`. -/
def archiveSetPassword (password : String) : A Unit := do
  let alreadySet ← passwordIsSet
  Prog.ensure (alreadySet = false) (.http 409 "archive password is already set")
  setPassword libs password

/-- `archive_unlock`. -/
def archiveUnlock (password : String) : A Bool := do
  let isSet ← passwordIsSet
  Prog.ensure (isSet = true) (.http 400 "no archive password set")
  unlock libs password

/-- The key, or the answer that the archive is locked. -/
def unlockedKey : A Key := do
  match ← perform .key with
  | some key => return key
  | none => .fail (.http 401 "locked")

/-- Seal one item under a new id and store it. -/
def archiveItem (key : Key) (plaintext : String) : A Unit := do
  let id ← perform .uuid
  let nonce ← perform .nonce
  orInternal (perform (.insertBlob id (env.sealHex key nonce plaintext id)))

/-- What `archive_flush` and the retention loop do with the key, for the items that they move. -/
def archiveItems (items : List String) : A Unit := do
  let key ← unlockedKey
  Prog.forEach items (archiveItem env key)

/-- `get_archive_item`. -/
def getArchiveItem (id : String) : A String := do
  let key ← unlockedKey
  match ← orInternal (perform (.archiveBlob id)) with
  | none => .fail (.http 404 "archive item not found")
  | some blob =>
    match env.openHex key blob id with
    | .ok plaintext => return plaintext
    | .error _ => internal "failed to decrypt archive item"

end Archive

/-- A request about the archive, or a start of the daemon. -/
inductive ArchiveRequest
  | setPassword (password : String)
  | unlock (password : String)
  | lock
  | status
  | archive (items : List String)
  | item (id : String)
  | restart

/-- The function that serves a request. -/
def ArchiveRequest.prog (libs : ArchiveLibs) (env : Env) : ArchiveRequest → A Unit
  | setPassword password => Archive.archiveSetPassword libs password
  | unlock password => do
    let _ ← Archive.archiveUnlock libs password
  | lock => Archive.perform .lock
  | status => do
    let _ ← Archive.perform .isUnlocked
    let _ ← Archive.passwordIsSet
  | archive items => Archive.archiveItems env items
  | item id => do
    let _ ← Archive.getArchiveItem env id
  | restart => Archive.perform .restart

end BroadcastPool
