import BroadcastPool.Env
import BroadcastPool.Lib.Text

/-!
# `BroadcastPool.Crypto`: encrypted text fields

An encoded field is `enc:v1:` followed by the hex of a sealed blob. Text without the prefix
is read as legacy plain text.
-/

set_option autoImplicit false

namespace BroadcastPool

/-- `FIELD_PREFIX`. -/
def fieldPrefix : String := "enc:v1:"

/-- `crypto::is_encoded`. -/
def isEncoded (s : String) : Bool := Text.startsWith s fieldPrefix

/-- `crypto::encode_field`, with the nonce of random draw `nonce`. -/
def encodeField (env : Env) (nonce : Nat) (plaintext aad : String) : String :=
  fieldPrefix ++ env.sealHex env.key nonce plaintext aad

/-- `crypto::decode_field`. -/
def decodeField (env : Env) (s aad : String) : Except String String :=
  match Text.stripPrefix? s fieldPrefix with
  | none => .ok s
  | some h => env.openHex env.key h aad

/-- Opening a sealed text gives the text back. -/
def Env.SealOpens (env : Env) : Prop :=
  ∀ nonce plaintext aad,
    env.openHex env.key (env.sealHex env.key nonce plaintext aad) aad = .ok plaintext

/-- An encoded field is recognised as encoded. -/
@[simp] theorem isEncoded_encodeField (env : Env) (nonce : Nat) (plaintext aad : String) :
    isEncoded (encodeField env nonce plaintext aad) = true :=
  Text.startsWith_append _ _

/-- Decoding an encoded field opens the blob that encoding sealed. -/
theorem decodeField_encodeField (env : Env) (nonce : Nat) (plaintext aad : String) :
    decodeField env (encodeField env nonce plaintext aad) aad =
      env.openHex env.key (env.sealHex env.key nonce plaintext aad) aad := by
  unfold decodeField encodeField
  rw [Text.stripPrefix?_append]

end BroadcastPool
