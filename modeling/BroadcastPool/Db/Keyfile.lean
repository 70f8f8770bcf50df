import BroadcastPool.Crypto
import BroadcastPool.Lib.Interleave

/-!
# `BroadcastPool.Db.Keyfile`: the key of the database

`load_or_create` reads the keyfile next to the database, or generates a key and writes the file. The
daemon and each command line call it when they open the database. Nothing keeps two processes from
doing so at the same time, and a process can be killed between any two operations.

The actions are the operations on the file system. `Path::exists` answers `false` if it cannot tell.
`std::fs::write` creates the file, or makes it empty, and then writes the bytes at its start; when
this fails, a part of them can be in the file. `KeyAct.createFile` carries the key that is going to
be written, so that a statement can name it.
-/

set_option autoImplicit false

namespace BroadcastPool

open Effects

inductive KeyAct
  | pathExists
  | readFile
  | generateKey
  | createFile (key : Key)
  | writeAll (bytes : List UInt8)
  | setPermissions
  /-- The database works with this key from now on. -/
  | useKey (key : Key)

@[reducible] def KeyAct.Res : KeyAct → Type
  | pathExists => Bool
  | readFile => Except String (List UInt8)
  | generateKey => Key
  | createFile _ | writeAll _ | setPermissions => Except String Unit
  | useKey _ => Unit

abbrev KeyM : Type → Type := Prog KeyAct KeyAct.Res String

/-- `with_context`. -/
def withContext {α : Type} (context : String) : Except String α → KeyM α
  | .ok a => pure a
  | .error _ => .fail context

/-- `load_or_create`. -/
def loadOrCreate (path : String) : KeyM Key := do
  if ← Prog.perform .pathExists then
    let bytes ← withContext ("read keyfile " ++ path) (← Prog.perform .readFile)
    if bytes.length = 32 then return bytes
    else .fail ("keyfile " ++ path ++ " is not 32 bytes")
  else
    let key ← Prog.perform .generateKey
    withContext ("write keyfile " ++ path) (← Prog.perform (.createFile key))
    withContext ("write keyfile " ++ path) (← Prog.perform (.writeAll key))
    withContext "chmod 600 keyfile" (← Prog.perform .setPermissions)
    return key

/-- The part of `Database::open` that gets the key. -/
def openWithKey (path : String) : KeyM Unit := do
  let key ← loadOrCreate path
  Prog.perform (KeyAct.useKey key)

/-- The file system, by the number of the operation. -/
structure KeyfileEnv where
  /-- The operation fails. -/
  fault : Nat → Option String
  /-- How many bytes a write that fails has written. -/
  written : Nat → Nat
  randomKey : Nat → Key
  randomKey_length : ∀ n, (randomKey n).length = 32

/-- The keyfile. -/
structure KeyDisk where
  file : Option (List UInt8) := none
  tick : Nat := 0

/-- Bytes at the start of a file. -/
def overwrite (bytes file : List UInt8) : List UInt8 := bytes ++ file.drop bytes.length

namespace KeyDisk

/-- The answer to an operation, and what it leaves. -/
def effect (env : KeyfileEnv) (w : KeyDisk) : (a : KeyAct) → a.Res × KeyDisk
  | .pathExists =>
      match env.fault w.tick with
      | some _ => (false, w)
      | none => (w.file.isSome, w)
  | .readFile =>
      match env.fault w.tick, w.file with
      | some e, _ => (.error e, w)
      | none, none => (.error "No such file or directory", w)
      | none, some bytes => (.ok bytes, w)
  | .generateKey => (env.randomKey w.tick, w)
  | .createFile _ =>
      match env.fault w.tick with
      | some e => (.error e, w)
      | none => (.ok (), { w with file := some [] })
  | .writeAll bytes =>
      match env.fault w.tick with
      | some e => (.error e, { w with
          file := w.file.map (overwrite (bytes.take (env.written w.tick))) })
      | none => (.ok (), { w with file := w.file.map (overwrite bytes) })
  | .setPermissions =>
      match env.fault w.tick with
      | some e => (.error e, w)
      | none => (.ok (), w)
  | .useKey _ => ((), w)

/-- The handler of the operations. Every one counts as one tick. -/
def exec (env : KeyfileEnv) : Handler KeyAct KeyAct.Res KeyDisk := fun a w =>
  ((w.effect env a).1, { (w.effect env a).2 with tick := (w.effect env a).2.tick + 1 })

end KeyDisk

end BroadcastPool
