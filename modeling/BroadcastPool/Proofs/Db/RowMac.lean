import BroadcastPool.Db.RowMac

/-!
# `BroadcastPool.Proofs.Db.RowMac`: when a row reads back untampered

`mapBroadcastRow_eq_ok` splits the reading of a row into its steps. `mapBroadcastRow_spec`
lists what the pool's decisions use of a row that reads back: its id, its status, the schedule
columns and the verdict on the MAC. `readable_iff` says which rows read back. Together they
give `verifies_iff`: a row reads back with `tampered = Some(false)` exactly when it is
readable and its MAC matches.
-/

set_option autoImplicit false

namespace BroadcastPool

variable {env : Env} {r : Row}

/-- What a row that reads back looks like. -/
structure ReadsAs (env : Env) (now : DateTime) (r : Row) (tx : BroadcastTx) : Prop where
  id : tx.id = r.id
  txHex : tx.txHex = decOrRaw env r.id r.txHex
  txid : tx.txid = r.txid
  status : tx.status = TxStatus.fromStr r.status
  network : tx.network = r.network
  nlocktime : r.nlocktime = tx.nlocktime.map Int.ofNat ∧ tx.nlocktime.isSome
  broadcastMode : tx.broadcastMode = r.broadcastMode
  scheduledTime : tx.scheduledTime = r.scheduledTime.map (parseDatetime env now)
  deferUntil : tx.deferUntil = r.deferUntil.map (parseDatetime env now)
  scheduleTrigger : tx.scheduleTrigger = r.scheduleTrigger
  errorMessage : tx.errorMessage = r.errorMessage
  tampered : (tx.tampered = some false ∧ r.MacMatches env) ∨
    (tx.tampered = some true ∧ ¬ r.MacMatches env)

/-- A computation in `Except` that succeeds does so step by step. -/
theorem except_bind_eq_ok {ε α β : Type} (x : Except ε α) (f : α → Except ε β) (b : β) :
    x >>= f = .ok b ↔ ∃ a, x = .ok a ∧ f a = .ok b := by
  cases x <;> simp [bind, Except.bind]

@[simp] theorem notNull_eq_ok {α : Type} (name : String) (x : Option α) (a : α) :
    notNull name x = .ok a ↔ x = some a := by
  cases x <;> simp [notNull]

theorem unsigned_eq_ok (name : String) (x : Option Int) (y : Option Nat) :
    unsigned name x = .ok y ↔ x = y.map Int.ofNat := by
  cases x with
  | none => cases y <;> simp [unsigned]
  | some n =>
    by_cases hn : 0 ≤ n
    · obtain ⟨k, rfl⟩ := Int.eq_ofNat_of_zero_le hn
      cases y <;> simp [unsigned]
    · rw [unsigned, if_neg hn]
      cases y with
      | none => simp
      | some k =>
        have hk : n ≠ (k : Int) := by omega
        simp [hk]

/-- A column reads as an `i32` exactly when it holds one. -/
theorem signed32_eq_ok (name : String) (x : Option Int) (k : Int32) :
    signed32 name x = .ok k ↔ x = some k.toInt := by
  cases x with
  | none => simp [signed32, notNull, bind, Except.bind]
  | some n =>
    by_cases hn : -2 ^ 31 ≤ n ∧ n < 2 ^ 31
    · have hread : signed32 name (some n) = .ok (Int32.ofInt n) := if_pos hn
      rw [hread]
      have hback : (Int32.ofInt n).toInt = n := Int32.toInt_ofInt_of_le hn.1 hn.2
      constructor
      · intro h
        cases h
        rw [hback]
      · intro h
        cases h
        rw [Int32.ofInt_toInt]
    · have hread : signed32 name (some n) =
          .error ("Integer " ++ toString n ++ " out of range at name: " ++ name) := if_neg hn
      rw [hread]
      constructor
      · intro h
        cases h
      · intro h
        cases h
        exact absurd ⟨Int32.le_toInt k, Int32.toInt_lt k⟩ hn

/-- The verdict on the MAC of a row whose `nlocktime` column holds `n`. -/
theorem macMatches_iff {n : Int} (hn : r.nlocktime = some n) :
    r.MacMatches env ↔ r.rowMac = some (r.expectedMac env n) := by
  constructor
  · rintro ⟨m, hm, hmac⟩
    rw [hn] at hm
    cases hm
    exact hmac
  · intro h
    exact ⟨n, hn, h⟩

/-- The steps of `mapBroadcastRow`: the columns it can fail on, and the rest. -/
theorem mapBroadcastRow_eq_ok {now : DateTime} {tx : BroadcastTx} :
    mapBroadcastRow env now r = .ok tx ↔
      ∃ n nlocktime blockHeight fee count total retries,
        r.nlocktime = some n ∧ r.nlocktime = nlocktime.map Int.ofNat ∧
        r.blockHeight = blockHeight.map Int.ofNat ∧
        r.targetFeeRate.read "target_fee_rate" = .ok fee ∧
        r.utxoCount = some count.toInt ∧ r.totalValueBtc = some total ∧
        r.retryCount = some retries.toInt ∧
        tx = {
          id := r.id, txHex := decOrRaw env r.id r.txHex, txid := r.txid
          status := TxStatus.fromStr r.status, network := r.network, nlocktime
          broadcastMode := r.broadcastMode
          scheduledTime := r.scheduledTime.map (parseDatetime env now)
          broadcastAt := r.broadcastAt.map (parseDatetime env now)
          confirmedAt := r.confirmedAt.map (parseDatetime env now)
          blockHeight, targetFeeRate := fee, actualFeeRate := r.actualFeeRate
          sourceLabel := r.sourceLabel.map (decOrRaw env r.id)
          destinationAddress := r.destinationAddress.map (decOrRaw env r.id)
          utxoCount := count, totalValueBtc := total, replacementOf := r.replacementOf
          errorMessage := r.errorMessage, retryCount := retries
          broadcastMissedAt := r.broadcastMissedAt.map (parseDatetime env now)
          originalScheduledTime := r.originalScheduledTime.map (parseDatetime env now)
          deferUntil := r.deferUntil.map (parseDatetime env now)
          scheduleTrigger := r.scheduleTrigger, targetPrice := r.targetPrice
          priceCurrency := r.priceCurrency, priceCondition := r.priceCondition
          createdAt := parseDatetime env now r.createdAt
          updatedAt := parseDatetime env now r.updatedAt
          tampered := some (decide (r.rowMac ≠ some (r.expectedMac env n))) } := by
  unfold mapBroadcastRow
  simp only [except_bind_eq_ok, notNull_eq_ok, unsigned_eq_ok, signed32_eq_ok]
  constructor
  · rintro ⟨n, hn, nl, hnl, bh, hbh, fee, hfee, cnt, hcnt, tot, htot, ret, hret, h⟩
    cases h
    exact ⟨n, nl, bh, fee, cnt, tot, ret, hn, hnl, hbh, hfee, hcnt, htot, hret, rfl⟩
  · rintro ⟨n, nl, bh, fee, cnt, tot, ret, hn, hnl, hbh, hfee, hcnt, htot, hret, rfl⟩
    exact ⟨n, hn, nl, hnl, bh, hbh, fee, hfee, cnt, hcnt, tot, htot, ret, hret, rfl⟩

/-! ### Encrypted columns -/

/-- A text that was encoded under an id reads back under that id. -/
theorem decOrRaw_encodeField {env : Env} (hseal : env.SealOpens) (nonce : Nat)
    (plaintext id : String) : decOrRaw env id (encodeField env nonce plaintext id) = plaintext := by
  unfold decOrRaw
  rw [decodeField_encodeField, hseal nonce plaintext id]

/-- A text that was never encoded reads as it is. -/
theorem decOrRaw_of_not_isEncoded {env : Env} {s : String} (h : isEncoded s = false)
    (id : String) : decOrRaw env id s = s := by
  have hplain : Text.startsWith s fieldPrefix = false := h
  unfold decOrRaw decodeField Text.stripPrefix?
  rw [if_neg (by simp [hplain])]

/-! ### Other worlds -/

/-- A row that reads back, as the pool sees it. -/
theorem mapBroadcastRow_spec {now : DateTime} {tx : BroadcastTx}
    (h : mapBroadcastRow env now r = .ok tx) : ReadsAs env now r tx := by
  obtain ⟨n, nl, bh, fee, cnt, tot, ret, hn, hnl, -, -, -, -, -, rfl⟩ :=
    mapBroadcastRow_eq_ok.1 h
  refine ⟨rfl, rfl, rfl, rfl, rfl, ⟨hnl, ?_⟩, rfl, rfl, rfl, rfl, rfl, ?_⟩
  · cases nl with
    | none =>
      rw [hn] at hnl
      cases hnl
    | some k => rfl
  · rw [macMatches_iff hn]
    by_cases hm : r.rowMac = some (r.expectedMac env n)
    · exact Or.inl ⟨by simp [hm], hm⟩
    · exact Or.inr ⟨by simp [hm], hm⟩

/-- A row reads back exactly when it is readable. -/
theorem readable_iff (now : DateTime) :
    r.Readable ↔ ∃ tx, mapBroadcastRow env now r = .ok tx := by
  constructor
  · rintro ⟨⟨n, hn⟩, hb, hf, hc, ht, hr⟩
    obtain ⟨count, hcount⟩ := hc
    obtain ⟨total, htotal⟩ := Option.ne_none_iff_exists'.1 ht
    obtain ⟨retries, hretries⟩ := hr
    have hheight : r.blockHeight = (r.blockHeight.map Int.toNat).map Int.ofNat := by
      cases hbh : r.blockHeight with
      | none => rfl
      | some b => simp [Int.toNat_of_nonneg (hb b hbh)]
    have hfee : ∃ y, r.targetFeeRate.read "target_fee_rate" = .ok y := by
      cases hrate : r.targetFeeRate with
      | null => exact ⟨none, rfl⟩
      | real x => exact ⟨some x, rfl⟩
      | text s => exact absurd hrate (hf s)
    obtain ⟨fee, hfee⟩ := hfee
    exact ⟨_, mapBroadcastRow_eq_ok.2 ⟨n, some n, _, fee, count, total, retries, hn, hn,
      hheight, hfee, hcount, htotal, hretries, rfl⟩⟩
  · rintro ⟨tx, h⟩
    obtain ⟨n, nl, bh, fee, cnt, tot, ret, hn, hnl, hbh, hfee, hcnt, htot, hret, -⟩ :=
      mapBroadcastRow_eq_ok.1 h
    refine ⟨?_, ?_, ?_, ⟨cnt, hcnt⟩, by simp [htot], ⟨ret, hret⟩⟩
    · cases nl with
      | none =>
        rw [hn] at hnl
        cases hnl
      | some k => exact ⟨k, hnl⟩
    · intro b hb
      rw [hb] at hbh
      cases bh with
      | none => cases hbh
      | some k =>
        cases hbh
        exact Int.natCast_nonneg k
    · intro s hs
      rw [hs] at hfee
      cases hfee

/-- A row verifies exactly when it is readable and its MAC matches. -/
theorem verifies_iff : r.Verifies env ↔ r.Readable ∧ r.MacMatches env := by
  constructor
  · intro h
    obtain ⟨tx, hmap, htampered⟩ := h 0
    refine ⟨(readable_iff 0).2 ⟨tx, hmap⟩, ?_⟩
    rcases (mapBroadcastRow_spec hmap).tampered with ⟨_, hm⟩ | ⟨ht, _⟩
    · exact hm
    · rw [htampered] at ht
      cases ht
  · rintro ⟨hr, hm⟩ now
    obtain ⟨tx, hmap⟩ := (readable_iff now).1 hr
    refine ⟨tx, hmap, ?_⟩
    rcases (mapBroadcastRow_spec hmap).tampered with ⟨ht, _⟩ | ⟨_, hnm⟩
    · exact ht
    · exact absurd hm hnm

end BroadcastPool
