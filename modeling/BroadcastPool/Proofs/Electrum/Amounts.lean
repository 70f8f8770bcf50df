import BroadcastPool.Lib.Checked
import BroadcastPool.Proofs.Electrum.Coins

/-!
# `BroadcastPool.Proofs.Electrum.Amounts`: when the sums of amounts are exact

Three functions add up values that a client chose. Each of them has a twin here with overflow
checks, which is what a build with checks does: `none` is the panic, in the first one with the
map of held transactions locked. Without checks the sums wrap around.

No check of the source bounds a value. The sums are exact exactly if they fit
(`amounts_exact_iff`).
-/

set_option autoImplicit false

namespace BroadcastPool

/-- The value of some held outputs. -/
def exactValue (outputs : List HeldOutput) : Nat := (outputs.map fun out => out.2.2).sum

/-- The sum of `get_pending_unconfirmed_value`, with overflow checks. -/
def checkedUnconfirmedValue (outputs : List HeldOutput) : Option Nat :=
  checkedSum (2 ^ 64) 0 (outputs.map fun out => out.2.2)

/-- `inject_balance_unconfirmed`, with a check of its cast and of its sum. -/
def checkedInjectBalance (balance : Json) (extraSat : Nat) : Option Json :=
  if extraSat = 0 then some balance
  else do
    let extra ← checkedI64 extraSat
    let unconfirmed ← checkedI64 (satsOf balance "unconfirmed" + extra)
    return .obj [("confirmed", .ofInt (satsOf balance "confirmed")),
      ("unconfirmed", .ofInt unconfirmed)]

/-- `output_value_btc_from_hex`, with overflow checks. -/
def checkedOutputValueBtc (env : Env) (txHex : String) : Option (Option F64) :=
  match Text.hexDecode (Text.trim txHex) with
  | none => some none
  | some raw =>
    match env.consensusDecode raw with
    | some (tx, []) =>
      (checkedSum (2 ^ 64) 0 (tx.output.map (·.value))).map fun sats => some (env.satsToBtc sats)
    | _ => some none

/-- No sum overflows, no cast changes a value, and the balance shown is the exact sum. -/
structure AmountsExact (env : Env) (pending : PendingTxs) (scripthash : String) (balance : Json)
    (txHex : String) : Prop where
  held : checkedUnconfirmedValue (pending.outputsFor scripthash) =
    some (unconfirmedValue (pending.outputsFor scripthash))
  injected : checkedInjectBalance balance (unconfirmedValue (pending.outputsFor scripthash)) =
    some (injectBalanceUnconfirmed balance (unconfirmedValue (pending.outputsFor scripthash)))
  shown : satsOf
      (injectBalanceUnconfirmed balance (unconfirmedValue (pending.outputsFor scripthash)))
      "unconfirmed" =
    satsOf balance "unconfirmed" + exactValue (pending.outputsFor scripthash)
  outputValue : checkedOutputValueBtc env txHex = some (outputValueBtcFromHex env txHex)

/-- The exact sums fit in the types that the source gives them. -/
structure AmountsFit (env : Env) (pending : PendingTxs) (scripthash : String) (balance : Json)
    (txHex : String) : Prop where
  held : exactValue (pending.outputsFor scripthash) < 2 ^ 63
  balance : satsOf balance "unconfirmed" + exactValue (pending.outputsFor scripthash) < 2 ^ 63
  outputValue : ∀ raw tx, Text.hexDecode (Text.trim txHex) = some raw →
    env.consensusDecode raw = some (tx, []) → (tx.output.map (·.value)).sum < 2 ^ 64

theorem checkedUnconfirmedValue_iff (outputs : List HeldOutput) :
    checkedUnconfirmedValue outputs = some (unconfirmedValue outputs) ↔
      exactValue outputs < 2 ^ 64 := by
  unfold checkedUnconfirmedValue unconfirmedValue exactValue
  rw [checkedSum_eq_some_iff (by decide), Nat.zero_add]
  constructor
  · exact fun h => h.1
  · exact fun h => ⟨h, (Nat.mod_eq_of_lt h).symm⟩

theorem unconfirmedValue_of_lt {outputs : List HeldOutput} (h : exactValue outputs < 2 ^ 64) :
    unconfirmedValue outputs = exactValue outputs :=
  Nat.mod_eq_of_lt h

theorem wrapI64_of_range {n : Int} (h : -2 ^ 63 ≤ n ∧ n < 2 ^ 63) : wrapI64 n = n := by
  unfold wrapI64
  rw [Int.bmod_def]
  split <;> omega

/-- The raise of a balance is checked to be exact if it is nothing, or if it and the raised balance
are signed 64-bit numbers. -/
theorem checkedInjectBalance_iff (balance : Json) (extraSat : Nat) :
    checkedInjectBalance balance extraSat = some (injectBalanceUnconfirmed balance extraSat) ↔
      extraSat < 2 ^ 63 ∧ satsOf balance "unconfirmed" + extraSat < 2 ^ 63 := by
  have hrange := satsOf_range balance "unconfirmed"
  unfold checkedInjectBalance injectBalanceUnconfirmed
  by_cases hzero : extraSat = 0
  · simp only [hzero, if_pos, true_iff]
    omega
  · rw [if_neg hzero, if_neg hzero]
    constructor
    · intro h
      obtain ⟨extra, hextra, h⟩ := Option.bind_eq_some_iff.1 h
      obtain ⟨unconfirmed, hsum, -⟩ := Option.bind_eq_some_iff.1 h
      obtain ⟨⟨-, hlt⟩, rfl⟩ := checkedI64_eq_some_iff.1 hextra
      obtain ⟨⟨-, hlt'⟩, -⟩ := checkedI64_eq_some_iff.1 hsum
      exact ⟨by omega, hlt'⟩
    · rintro ⟨hlt, hlt'⟩
      have hextra : checkedI64 extraSat = some (extraSat : Int) :=
        checkedI64_eq_some_iff.2 ⟨⟨by omega, by omega⟩, rfl⟩
      have hsum : checkedI64 (satsOf balance "unconfirmed" + (extraSat : Int)) =
          some (satsOf balance "unconfirmed" + (extraSat : Int)) :=
        checkedI64_eq_some_iff.2 ⟨⟨by omega, hlt'⟩, rfl⟩
      rw [hextra, Option.bind_eq_bind, Option.bind_some, hsum, Option.bind_some,
        wrapI64_of_range (n := (extraSat : Int)) ⟨by omega, by omega⟩,
        wrapI64_of_range ⟨by omega, hlt'⟩]
      rfl

theorem checkedOutputValueBtc_iff (env : Env) (txHex : String) :
    checkedOutputValueBtc env txHex = some (outputValueBtcFromHex env txHex) ↔
      ∀ raw tx, Text.hexDecode (Text.trim txHex) = some raw →
        env.consensusDecode raw = some (tx, []) → (tx.output.map (·.value)).sum < 2 ^ 64 := by
  unfold checkedOutputValueBtc outputValueBtcFromHex
  cases hraw : Text.hexDecode (Text.trim txHex) with
  | none => exact iff_of_true rfl nofun
  | some raw =>
    cases hdecode : env.consensusDecode raw with
    | none =>
      refine iff_of_true (by simp [hdecode]) fun raw' tx hraw' hdecode' => ?_
      cases hraw'
      rw [hdecode] at hdecode'
      cases hdecode'
    | some decoded =>
      obtain ⟨tx, rest⟩ := decoded
      cases rest with
      | cons b bs =>
        refine iff_of_true (by simp [hdecode]) fun raw' tx' hraw' hdecode' => ?_
        cases hraw'
        rw [hdecode] at hdecode'
        cases hdecode'
      | nil =>
        have hsum := @checkedSum_eq_some_iff (2 ^ 64) 0
        simp only [hdecode, Option.map_eq_some_iff, hsum (by decide), Nat.zero_add]
        constructor
        · rintro ⟨sats, ⟨hlt, -⟩, -⟩ raw' tx' hraw' hdecode'
          cases hraw'
          rw [hdecode] at hdecode'
          cases hdecode'
          exact hlt
        · intro hall
          have hlt := hall raw tx rfl hdecode
          exact ⟨_, ⟨hlt, rfl⟩, by rw [Nat.mod_eq_of_lt hlt]⟩

/-- The sums of amounts are exact exactly if they fit. -/
theorem amounts_exact_iff (env : Env) (pending : PendingTxs) (scripthash : String)
    (balance : Json) (txHex : String) :
    AmountsExact env pending scripthash balance txHex ↔
      AmountsFit env pending scripthash balance txHex := by
  constructor
  · rintro ⟨hheld, hinjected, -, hvalue⟩
    rw [checkedUnconfirmedValue_iff] at hheld
    rw [checkedInjectBalance_iff, unconfirmedValue_of_lt hheld] at hinjected
    exact ⟨hinjected.1, hinjected.2, (checkedOutputValueBtc_iff env txHex).1 hvalue⟩
  · rintro ⟨hheld, hbalance, hvalue⟩
    have hlt : exactValue (pending.outputsFor scripthash) < 2 ^ 64 := by omega
    have hrange := satsOf_range balance "unconfirmed"
    refine ⟨(checkedUnconfirmedValue_iff _).2 hlt, ?_, ?_,
      (checkedOutputValueBtc_iff env txHex).2 hvalue⟩
    · rw [checkedInjectBalance_iff, unconfirmedValue_of_lt hlt]
      exact ⟨hheld, hbalance⟩
    · rw [unconfirmedValue, satsOf_injectBalanceUnconfirmed]
      exact wrapI64_of_range ⟨by omega, hbalance⟩

/-- Every transaction has two outputs of 2^63 to one script. -/
def hugeEnv : Env :=
  { sampleEnv with
    scripthash := fun _ => "ab"
    consensusDecode
      | [] => none
      | b :: _ => some
        ({ version := b.toNat, lockTime := 0, input := []
           output := List.replicate 2 { value := 2 ^ 63, scriptPubkey := [] } }, []) }

/-- The daemon once a wallet has sent one of them. -/
def hugeWorld : World := ((preAckStore hugeEnv .daemon "07").run (World.exec hugeEnv) sampleWorld).2

/-- The sum of the outputs is 2^64, and the wallet is shown that it has nothing. -/
theorem not_amounts_exact_huge :
    ¬ AmountsExact hugeEnv hugeWorld.daemon.pendingTxs "ab"
      (.obj [("confirmed", .ofInt 0), ("unconfirmed", .ofInt 0)]) "07" := by
  intro h
  have hlt := (checkedUnconfirmedValue_iff _).1 h.held
  exact absurd hlt (by decide)

end BroadcastPool
