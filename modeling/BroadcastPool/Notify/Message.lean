import BroadcastPool.Db.Models
import BroadcastPool.Lib.Utf8

/-!
# `BroadcastPool.Notify.Message`: the text of a notification

`BroadcastNotification` is what the broadcast code tells the dispatcher, and `message` the text
that the user gets, in English or Spanish. `chrono` formats the times, and `char::to_uppercase`
needs the tables of Unicode, so both are in `MessageLibs`.

The txid is the answer of a backend as it came. `shortTxid` cuts it by bytes, and a cut inside a
character panics, so there is no text for such a notification (`message_eq_none_iff`,
`shortTxid_eq_none_iff`).
-/

set_option autoImplicit false

namespace BroadcastPool

/-- `BroadcastNotification`, with `amount_sats : u64`. -/
structure BroadcastNotification where
  txid : String
  amountSats : Nat
  sourceLabel : Option String
  createdAt : Option DateTime
  broadcastAt : DateTime
  network : String
deriving DecidableEq, Repr

/-- `Language`. -/
inductive Language
  | en
  | es
deriving DecidableEq, Repr

/-- `Language::from_code`. -/
def Language.fromCode (code : String) : Language :=
  if Text.startsWith (Text.asciiLower (Text.trim code)) "es" then .es else .en

/-- The libraries of the message. -/
structure MessageLibs where
  /-- `ts.format("%Y-%m-%d %H:%M UTC")`. -/
  formatTs : DateTime → String
  /-- `char::to_uppercase`. -/
  toUppercase : Char → List Char

/-- `short_txid`. `none` is the panic of a slice that cuts a character. -/
def shortTxid (txid : String) : Option String := do
  let chars := txid.toList
  let len := Text.byteLength chars
  if len ≤ 20 then return txid
  else
    let head ← Text.splitAtByte chars 8
    let tail ← Text.splitAtByte chars (len - 8)
    return String.ofList head.1 ++ "…" ++ String.ofList tail.2

/-- `source_display`. -/
def sourceDisplay (libs : MessageLibs) (source : Option String) (lang : Language) : String :=
  match (source.map Text.trim).filter (· ≠ "") with
  | some s =>
    match s.toList with
    | first :: rest => String.ofList (libs.toUppercase first ++ rest)
    | [] => s
  | none =>
    match lang with
    | .en => "unknown wallet"
    | .es => "cartera desconocida"

/-- The loop of `group_digits`: a separator before each group of three digits but the first. -/
def groupChars (sep : Char) (first : Bool) : List Char → List Char
  | [] => []
  | c :: cs =>
    if ¬ first ∧ (cs.length + 1) % 3 = 0 then sep :: c :: groupChars sep false cs
    else c :: groupChars sep false cs

/-- `group_digits`. -/
def groupDigits (n : Nat) (sep : Char) : String :=
  String.ofList (groupChars sep true (toString n).toList)

/-- `BroadcastNotification::message`. `none` is a panic. -/
def BroadcastNotification.message (libs : MessageLibs) (self : BroadcastNotification)
    (lang : Language) : Option String := do
  let txid ← shortTxid self.txid
  let source := sourceDisplay libs self.sourceLabel lang
  let broadcastAt := libs.formatTs self.broadcastAt
  match lang with
  | .en =>
    let amount := groupDigits self.amountSats ','
    let created := (self.createdAt.map fun t => "\nCreated: " ++ libs.formatTs t).getD ""
    return "Broadcast Pool: your transaction from " ++ source ++
      " has been redistributed to the network.\nTxid: " ++ txid ++ "\nAmount: " ++ amount ++
      " sats\nNetwork: " ++ self.network ++ created ++ "\nBroadcast: " ++ broadcastAt
  | .es =>
    let amount := groupDigits self.amountSats '.'
    let created := (self.createdAt.map fun t => "\nCreada: " ++ libs.formatTs t).getD ""
    return "Broadcast Pool: tu transacción de " ++ source ++
      " ha sido redistribuida a la red.\nTxid: " ++ txid ++ "\nImporte: " ++ amount ++
      " sats\nRed: " ++ self.network ++ created ++ "\nDifundida: " ++ broadcastAt

example : groupDigits 80235 ',' = "80,235" := by decide +kernel
example : groupDigits 999 ',' = "999" := by decide +kernel
example : groupDigits 1234567 '.' = "1.234.567" := by decide +kernel

/-- A txid of more than 20 bytes is cut after 8 bytes and before the last 8. -/
theorem shortTxid_eq_none_iff (txid : String) :
    shortTxid txid = none ↔
      20 < Text.byteLength txid.toList ∧
        (Text.isCharBoundary txid.toList 8 = false ∨
          Text.isCharBoundary txid.toList (Text.byteLength txid.toList - 8) = false) := by
  rw [← Text.isSome_splitAtByte, ← Text.isSome_splitAtByte]
  unfold shortTxid
  dsimp only
  split
  · rename_i hshort
    simp [hshort]
  · rename_i hlong
    have hlt : 20 < Text.byteLength txid.toList := Nat.lt_of_not_le hlong
    cases Text.splitAtByte txid.toList 8 <;>
      cases Text.splitAtByte txid.toList (Text.byteLength txid.toList - 8) <;> simp [hlt]

example : shortTxid "0123456789abcdef01234567" = some "01234567…01234567" := by decide +kernel
example : shortTxid "0123456ñ89abcdef01234567" = none := by decide +kernel

/-- Only the txid can keep a notification from having a text. -/
theorem message_eq_none_iff (libs : MessageLibs) (n : BroadcastNotification) (lang : Language) :
    n.message libs lang = none ↔ shortTxid n.txid = none := by
  unfold BroadcastNotification.message
  cases shortTxid n.txid with
  | none => exact ⟨fun _ => rfl, fun _ => rfl⟩
  | some txid => cases lang <;> exact ⟨fun h => (by cases h), fun h => (by cases h)⟩

end BroadcastPool
