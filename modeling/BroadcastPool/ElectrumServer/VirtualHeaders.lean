import BroadcastPool.Lib.Text
import Mathlib.Data.BitVec

/-!
# `BroadcastPool.ElectrumServer.VirtualHeaders`: block headers above the real tip

`fabricate_headers` makes a header for every height above the tip, each chained from the one
before it, and `header_hex_at` is the header of one height. The encoding of a header and its
hash are library functions.
-/

set_option autoImplicit false

namespace BroadcastPool

/-- `block::Header`. -/
structure Header where
  version : Int
  prevBlockhash : String
  merkleRoot : String
  time : Nat
  bits : Nat
  nonce : Nat
deriving DecidableEq, Repr

/-- The libraries of block headers. -/
structure HeaderLibs where
  /-- `encode::deserialize::<Header>`. -/
  deserialize : List UInt8 → Option Header
  /-- `encode::serialize_hex`. -/
  serializeHex : Header → String
  /-- `Header::block_hash`. -/
  blockHash : Header → String
  /-- `TxMerkleNode::all_zeros`. -/
  allZeros : String

/-- `SECS_PER_BLOCK`. -/
def secsPerBlock : Nat := 600

/-- A sum of 32-bit numbers that stays at the greatest one. -/
def saturatingAddU32 (a b : Nat) : Nat := min (a + b) (2 ^ 32 - 1)

/-- A product of 32-bit numbers that stays at the greatest one. -/
def saturatingMulU32 (a b : Nat) : Nat := min (a * b) (2 ^ 32 - 1)

variable (libs : HeaderLibs)

/-- `decode_header`. -/
def decodeHeader (hex : String) : Except String Header :=
  match Text.hexDecode (Text.trim hex) with
  | none => .error "virtual_headers: bad hex"
  | some bytes =>
    match libs.deserialize bytes with
    | none => .error "virtual_headers: not an 80-byte header"
    | some header => .ok header

/-- The header that stands `steps` blocks above the tip, after a block with the hash
`prevHash`. -/
def fabricatedHeader (tip : Header) (steps : Nat) (prevHash : String) : Header where
  version := tip.version
  prevBlockhash := prevHash
  merkleRoot := libs.allZeros
  time := saturatingAddU32 tip.time (saturatingMulU32 secsPerBlock (steps % 2 ^ 32))
  bits := tip.bits
  nonce := 0

/-- The loop of `fabricate_headers` over some heights. -/
def fabricateLoop (tip : Header) (realTipHeight : Nat) :
    List Nat → String → List (Nat × String)
  | [], _ => []
  | h :: hs, prevHash =>
    let header := fabricatedHeader libs tip (h - realTipHeight) prevHash
    (h, libs.serializeHex header) :: fabricateLoop tip realTipHeight hs (libs.blockHash header)

/-- `fabricate_headers`. -/
def fabricateHeaders (realTipHeight : Nat) (realTipHeaderHex : String) (upToHeight : Nat) :
    Except String (List (Nat × String)) :=
  if upToHeight ≤ realTipHeight then .ok []
  else
    match decodeHeader libs realTipHeaderHex with
    | .error e => .error e
    | .ok tip => .ok (fabricateLoop libs tip realTipHeight
        (List.range' (realTipHeight + 1) (upToHeight - realTipHeight)) (libs.blockHash tip))

/-- `header_hex_at`. -/
def headerHexAt (realTipHeight : Nat) (realTipHeaderHex : String) (height : Nat) :
    Except String (Option String) :=
  if height ≤ realTipHeight then .ok none
  else
    match fabricateHeaders libs realTipHeight realTipHeaderHex height with
    | .error e => .error e
    | .ok headers => .ok (headers.getLast?.map (·.2))

/-! ### The chain above a tip -/

/-- The header of each height above the tip, counted from the tip. -/
def chainAbove (tip : Header) : Nat → Header
  | 0 => tip
  | n + 1 => fabricatedHeader libs tip (n + 1) (libs.blockHash (chainAbove tip n))

variable {libs}

/-- Every header of the chain names the hash of the one below it. -/
theorem chainAbove_prevBlockhash (tip : Header) (n : Nat) :
    (chainAbove libs tip (n + 1)).prevBlockhash = libs.blockHash (chainAbove libs tip n) := rfl

/-- The loop makes the headers of the chain. The induction is on the number of heights, from
any place of the chain. -/
theorem fabricateLoop_eq (tip : Header) (realTipHeight n count : Nat) :
    fabricateLoop libs tip realTipHeight (List.range' (realTipHeight + n + 1) count)
        (libs.blockHash (chainAbove libs tip n)) =
      (List.range' (n + 1) count).map fun i =>
        (realTipHeight + i, libs.serializeHex (chainAbove libs tip i)) := by
  induction count generalizing n with
  | zero => rfl
  | succ count ih =>
    have hsteps : realTipHeight + n + 1 - realTipHeight = n + 1 := by omega
    have hnext : realTipHeight + n + 1 + 1 = realTipHeight + (n + 1) + 1 := by omega
    rw [List.range'_succ, List.range'_succ, List.map_cons, fabricateLoop, hsteps, hnext]
    exact congrArg (_ :: ·) (ih (n + 1))

/-- One header for every height above a tip that decodes. -/
theorem fabricateHeaders_eq {tip : Header} {realTipHeight upToHeight : Nat} {hex : String}
    (htip : decodeHeader libs hex = .ok tip) (h : realTipHeight < upToHeight) :
    fabricateHeaders libs realTipHeight hex upToHeight =
      .ok ((List.range' 1 (upToHeight - realTipHeight)).map fun i =>
        (realTipHeight + i, libs.serializeHex (chainAbove libs tip i))) := by
  unfold fabricateHeaders
  rw [if_neg (by omega), htip]
  exact congrArg Except.ok (fabricateLoop_eq tip realTipHeight 0 _)

/-- The header of one height above a tip that decodes. -/
theorem headerHexAt_eq {tip : Header} {realTipHeight height : Nat} {hex : String}
    (htip : decodeHeader libs hex = .ok tip) (h : realTipHeight < height) :
    headerHexAt libs realTipHeight hex height =
      .ok (some (libs.serializeHex (chainAbove libs tip (height - realTipHeight)))) := by
  obtain ⟨n, hn⟩ : ∃ n, height - realTipHeight = n + 1 := ⟨height - realTipHeight - 1, by omega⟩
  unfold headerHexAt
  rw [if_neg (by omega), fabricateHeaders_eq htip h, hn, List.range'_concat]
  simp [Nat.add_comm]

theorem headerHexAt_of_le {realTipHeight height : Nat} (hex : String)
    (h : height ≤ realTipHeight) : headerHexAt libs realTipHeight hex height = .ok none := by
  unfold headerHexAt
  rw [if_pos h]

/-- How many headers are made: one for each height above the tip. -/
theorem length_fabricateHeaders {realTipHeight upToHeight : Nat} {hex : String}
    {headers : List (Nat × String)}
    (h : fabricateHeaders libs realTipHeight hex upToHeight = .ok headers) :
    headers.length = upToHeight - realTipHeight := by
  by_cases hle : upToHeight ≤ realTipHeight
  · unfold fabricateHeaders at h
    rw [if_pos hle] at h
    cases h
    show 0 = upToHeight - realTipHeight
    omega
  · cases htip : decodeHeader libs hex with
    | error e =>
      unfold fabricateHeaders at h
      rw [if_neg hle, htip] at h
      cases h
    | ok tip =>
      rw [fabricateHeaders_eq htip (by omega)] at h
      cases h
      simp

end BroadcastPool
