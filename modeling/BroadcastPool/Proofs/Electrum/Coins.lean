import BroadcastPool.Proofs.Electrum.Forward

/-!
# `BroadcastPool.Proofs.Electrum.Coins`: the coins and the balance a wallet is shown

The list of coins is the indexer's, followed by every output of a held transaction to the
scripthash that the indexer does not list (`listunspent_lists_iff`). The inputs of a held
transaction are not looked at, so the list is free of spent and of conflicting coins exactly if
the indexer's coins and the held outputs are (`listunspent_consistent_iff`).

The balance is raised by the sum of all held outputs, those that the indexer lists included.
`balance_raise_eq_added_iff` says when that is the value of the coins that are added to the list.
-/

set_option autoImplicit false

namespace BroadcastPool

open Effects

/-! ### The outpoints of a list -/

/-- The list has a coin with the outpoint. -/
def ListsOutpoint (coins : List Json) (o : String × Nat) : Prop :=
  ∃ coin ∈ coins, outpoint? coin = some o

/-- The outpoint of a held output, as a coin list gives it. -/
def HeldOutput.outpoint (out : HeldOutput) : String × Nat := (out.1, out.2.1 % 2 ^ 32)

@[simp] theorem outpoint?_heldCoin (out : HeldOutput) :
    outpoint? (heldCoin out) = some out.outpoint := by
  have hpos : ((heldCoin out).get? "tx_pos").bind Json.asU64? = some out.2.1 := by
    show (Json.ofInt (out.2.1 : Int)).asU64? = _
    exact Json.asU64?_ofInt _
  unfold outpoint?
  rw [hpos]
  rfl

theorem outpoint?_lt {coin : Json} {o : String × Nat} (h : outpoint? coin = some o) :
    o.2 < 2 ^ 32 := by
  unfold outpoint? at h
  split at h
  · cases h
    exact Nat.mod_lt _ (by decide)
  · cases h

/-- The injection adds the held outputs and nothing else. -/
theorem listsOutpoint_injectListunspent {utxos : List Json} {held : List HeldOutput}
    (o : String × Nat) :
    ListsOutpoint (injectListunspent utxos held) o ↔
      ListsOutpoint utxos o ∨ ∃ out ∈ held, out.outpoint = o := by
  unfold ListsOutpoint injectListunspent
  constructor
  · rintro ⟨coin, hcoin, ho⟩
    rcases List.mem_append.1 hcoin with hcoin | hcoin
    · exact Or.inl ⟨coin, hcoin, ho⟩
    · obtain ⟨out, hout, rfl⟩ := List.mem_map.1 hcoin
      rw [outpoint?_heldCoin] at ho
      exact Or.inr ⟨out, (List.mem_filter.1 hout).1, Option.some.inj ho⟩
  · rintro (⟨coin, hcoin, ho⟩ | ⟨out, hout, rfl⟩)
    · exact ⟨coin, List.mem_append_left _ hcoin, ho⟩
    · by_cases hlisted : (out.1, out.2.1) ∈ utxos.filterMap outpoint?
      · obtain ⟨coin, hcoin, ho⟩ := List.mem_filterMap.1 hlisted
        have hout' : out.outpoint = (out.1, out.2.1) := by
          have hlt : out.2.1 < 2 ^ 32 := outpoint?_lt ho
          unfold HeldOutput.outpoint
          rw [Nat.mod_eq_of_lt hlt]
        exact ⟨coin, List.mem_append_left _ hcoin, by rw [ho, hout']⟩
      · refine ⟨heldCoin out, List.mem_append_right _ ?_, outpoint?_heldCoin out⟩
        exact List.mem_map_of_mem (List.mem_filter.2 ⟨hout, decide_eq_true hlisted⟩)

/-! ### The answers to `listunspent` and `get_balance` -/

section
variable {libs : ElectrumLibs} {env : Env} {p : Proc}

/-- A request that only the indexer answers gets its answer, changed for the method. -/
theorem shows_of_forward (w : World) (session : SessionState) {request : JsonRpcRequest}
    {indexerUrl scripthash : String} {result shown : Json}
    (hslow : fastMethods.contains request.method = false)
    (hmethod : trackedMethods.contains request.method = true)
    (hparams : scripthashFromParams request.params = some scripthash) (hurl : indexerUrl ≠ "")
    (hanswers : Answers libs env request.toJson result)
    (hchange : ∀ msg, msg.get? "result" = some result → ∃ changed w',
      (modifyUpstreamResponse libs p msg request.method scripthash).run (World.exec env)
        w.ticked = (.ok changed, w') ∧ changed.get? "result" = some shown) :
    Shows libs env p w indexerUrl session request shown := by
  obtain ⟨msg, hresult, hforward⟩ :=
    run_forwardSubrequestSync (p := p) w session hmethod hparams hanswers
  obtain ⟨changed, w', hrun, hshown⟩ := hchange msg hresult
  obtain ⟨session', hreply⟩ := hforward hrun
  refine ⟨changed, session', w', ?_, hshown⟩
  unfold handleScripthashSubrequest forwardOrUnavailable
  rw [hslow, if_neg hurl]
  exact hreply

/-- The coin list that a wallet gets. -/
theorem shows_listunspent (w : World) (session : SessionState) {request : JsonRpcRequest}
    {indexerUrl scripthash : String} {utxos : List Json}
    (hmethod : request.method = "blockchain.scripthash.listunspent")
    (hparams : scripthashFromParams request.params = some scripthash) (hurl : indexerUrl ≠ "")
    (hanswers : Answers libs env request.toJson (.arr utxos)) :
    Shows libs env p w indexerUrl session request
      (.arr (injectListunspent utxos (heldOutputs env p w (w.tick + 1) scripthash))) := by
  refine shows_of_forward w session (by rw [hmethod]; decide) (by rw [hmethod]; decide) hparams
    hurl hanswers fun msg hresult => ⟨_, w.ticked.ticked, ?_, Json.get?_setField hresult _⟩
  unfold modifyUpstreamResponse
  rw [hmethod, if_neg (by decide), if_neg (by decide), if_neg (by decide), if_pos rfl, hresult]
  simp only [Option.bind_some, Json.asArray?_arr, Prog.bind_eq, Prog.run_bind,
    run_getPendingUtxosForScripthash, Prog.pure_eq_ret, Prog.run_ret]
  rfl

/-- The balance that a wallet gets. -/
theorem shows_getBalance (w : World) (session : SessionState) {request : JsonRpcRequest}
    {indexerUrl scripthash : String} {balance : Json}
    (hmethod : request.method = "blockchain.scripthash.get_balance")
    (hparams : scripthashFromParams request.params = some scripthash) (hurl : indexerUrl ≠ "")
    (hanswers : Answers libs env request.toJson balance) :
    Shows libs env p w indexerUrl session request
      (injectBalanceUnconfirmed balance
        (unconfirmedValue (heldOutputs env p w (w.tick + 1) scripthash))) := by
  refine shows_of_forward w session (by rw [hmethod]; decide) (by rw [hmethod]; decide) hparams
    hurl hanswers fun msg hresult => ⟨_, w.ticked.ticked, ?_, Json.get?_setField hresult _⟩
  unfold modifyUpstreamResponse
  rw [hmethod, if_neg (by decide), if_neg (by decide), if_pos rfl, hresult]
  simp only [Prog.bind_eq, Prog.run_bind, run_getPendingUnconfirmedValue, Prog.pure_eq_ret,
    Prog.run_ret]
  rfl

/-! ### One consistent mempool -/

/-- The outpoints that a held transaction spends. -/
def spentOutpoints (env : Env) (info : PendingTxInfo) : List (String × Nat) :=
  match decodeTx env info.txHex with
  | .ok tx => tx.input.map fun input => (input.prevTxid, input.vout)
  | .error _ => []

/-- The coins with the outpoints `listed` are those of one consistent mempool: no held
transaction spends one, and no two held transactions that spend the same outpoint both have an
output among them. -/
structure OneMempool (env : Env) (pending : PendingTxs) (listed : String × Nat → Prop) :
    Prop where
  unspent : ∀ o, listed o → ∀ e ∈ pending.entries, o ∉ spentOutpoints env e.2
  noConflict : ∀ a ∈ pending.entries, ∀ b ∈ pending.entries, a.1 ≠ b.1 →
    (∃ o ∈ spentOutpoints env a.2, o ∈ spentOutpoints env b.2) →
    ¬ ((∃ i, listed (a.1, i)) ∧ ∃ i, listed (b.1, i))

/-- What the coin list lists: the indexer's coins and the held outputs, spent or not. -/
theorem listunspent_lists_iff (w : World) (session : SessionState) {request : JsonRpcRequest}
    {indexerUrl scripthash : String} {utxos : List Json}
    (hmethod : request.method = "blockchain.scripthash.listunspent")
    (hparams : scripthashFromParams request.params = some scripthash) (hurl : indexerUrl ≠ "")
    (hanswers : Answers libs env request.toJson (.arr utxos)) :
    let held := heldOutputs env p w (w.tick + 1) scripthash
    let offered := fun o => ListsOutpoint utxos o ∨ ∃ out ∈ held, out.outpoint = o
    ∃ shown, Shows libs env p w indexerUrl session request (.arr shown) ∧
      (∀ o, ListsOutpoint shown o ↔ offered o) ∧
      ∀ pending, OneMempool env pending (ListsOutpoint shown) ↔ OneMempool env pending offered := by
  intro held offered
  have hlists : ∀ o, ListsOutpoint (injectListunspent utxos held) o ↔ offered o :=
    listsOutpoint_injectListunspent
  refine ⟨_, shows_listunspent w session hmethod hparams hurl hanswers, hlists, fun pending => ?_⟩
  rw [show ListsOutpoint (injectListunspent utxos held) = offered from
    funext fun o => propext (hlists o)]

end

/-- The wallet sent "07" and then "08", which spends the output of "07" to "ab". The list has
that output. -/
theorem listunspent_lists_spent_coin :
    ∃ shown, Shows (sampleLibs [resultResponse (.ofInt 1) (.arr [])])
        (chainEnv (resultResponse (.ofInt 1) (.arr []))) .daemon
        (chainWorld (resultResponse (.ofInt 1) (.arr []))) "tcp://127.0.0.1:50001" {}
        (sampleRequest "blockchain.scripthash.listunspent") (.arr shown) ∧
      ¬ OneMempool (chainEnv (resultResponse (.ofInt 1) (.arr [])))
        (chainWorld (resultResponse (.ofInt 1) (.arr []))).daemon.pendingTxs
        (ListsOutpoint shown) := by
  refine ⟨_, ⟨_, _, _, rfl, rfl⟩, fun h => ?_⟩
  have hlisted : ListsOutpoint [sampleCoin "8" 0 5000, sampleCoin "7" 0 5000] ("7", 0) :=
    ⟨sampleCoin "7" 0 5000, by decide, by decide⟩
  refine h.unspent ("7", 0) hlisted ⟨"8", outputsOnlyEntry (chainEnv .null) "08"⟩ ?_ ?_
  · exact List.mem_cons_self ..
  · decide

theorem listunspent_lists_iff_holdingWorld :
    let answer := resultResponse (.ofInt 1) (.arr [])
    let held := heldOutputs (answeringEnv answer) .daemon holdingWorld (holdingWorld.tick + 1) "ab"
    let offered := fun o => ListsOutpoint [] o ∨ ∃ out ∈ held, out.outpoint = o
    ∃ shown, Shows (sampleLibs [answer]) (answeringEnv answer) .daemon holdingWorld
        "tcp://127.0.0.1:50001" {} (sampleRequest "blockchain.scripthash.listunspent")
        (.arr shown) ∧
      (∀ o, ListsOutpoint shown o ↔ offered o) ∧
      ∀ pending, OneMempool (answeringEnv answer) pending (ListsOutpoint shown) ↔
        OneMempool (answeringEnv answer) pending offered :=
  listunspent_lists_iff holdingWorld {} rfl rfl (by decide) (answers_sample _ _ (by decide))

/-! ### The balance and the coins -/

section
variable {libs : ElectrumLibs} {env : Env} {p : Proc}

/-- The value of a coin. -/
def coinValue (coin : Json) : Nat := ((coin.get? "value").bind Json.asU64?).getD 0

instance lawfulBEq_outpoint : LawfulBEq (String × Nat) := inferInstance

/-- The value of the held outputs that the list has (`known = true`), or has not. -/
def heldValue (utxos : List Json) (held : List HeldOutput) (known : Bool) : Nat :=
  ((held.filter fun out => decide ((out.1, out.2.1) ∈ utxos.filterMap outpoint?) = known).map
    fun out => out.2.2).sum

theorem coinValue_heldCoin (out : HeldOutput) : coinValue (heldCoin out) = out.2.2 := by
  have hvalue : ((heldCoin out).get? "value").bind Json.asU64? = some out.2.2 := by
    show (Json.ofInt (out.2.2 : Int)).asU64? = _
    exact Json.asU64?_ofInt _
  unfold coinValue
  rw [hvalue]
  rfl

/-- Every held output is known or not. -/
theorem heldValue_add (utxos : List Json) (held : List HeldOutput) :
    heldValue utxos held true + heldValue utxos held false =
      (held.map fun out => out.2.2).sum := by
  induction held with
  | nil => rfl
  | cons out held ih =>
    unfold heldValue at ih ⊢
    by_cases h : (out.1, out.2.1) ∈ utxos.filterMap outpoint?
    · simp only [List.filter_cons, h, decide_true, if_true, List.map_cons, List.sum_cons]
      simp only [reduceCtorEq, decide_false, Bool.false_eq_true, if_false]
      omega
    · simp only [List.filter_cons, h, decide_false, decide_true, if_true, List.map_cons,
        List.sum_cons]
      simp only [decide_false, Bool.false_eq_true, if_false]
      omega

theorem satsOf_range (balance : Json) (field : String) :
    -2 ^ 63 ≤ satsOf balance field ∧ satsOf balance field < 2 ^ 63 := by
  unfold satsOf
  cases h : (balance.get? field).bind Json.asI64? with
  | none => exact ⟨by decide, by decide⟩
  | some n =>
    obtain ⟨v, -, hv⟩ := Option.bind_eq_some_iff.1 h
    exact Json.asI64?_range hv

theorem wrapI64_range (n : Int) : -2 ^ 63 ≤ wrapI64 n ∧ wrapI64 n < 2 ^ 63 := by
  unfold wrapI64
  rw [Int.bmod_def]
  split <;> omega

/-- The unconfirmed balance after the injection is the 64-bit sum. -/
theorem satsOf_injectBalanceUnconfirmed (balance : Json) (total : Nat) :
    satsOf (injectBalanceUnconfirmed balance (total % 2 ^ 64)) "unconfirmed" =
      wrapI64 (satsOf balance "unconfirmed" + total) := by
  have hrange := satsOf_range balance "unconfirmed"
  unfold injectBalanceUnconfirmed
  split
  · rename_i hzero
    unfold wrapI64
    rw [Int.bmod_def]
    split <;> omega
  · have hread : ∀ n, satsOf (.obj [("confirmed", .ofInt (satsOf balance "confirmed")),
        ("unconfirmed", .ofInt (wrapI64 n))]) "unconfirmed" = wrapI64 n := by
      intro n
      show (((Json.ofInt (wrapI64 n)).asI64?).getD 0) = _
      rw [Json.asI64?_ofInt (wrapI64_range n)]
      rfl
    rw [hread]
    unfold wrapI64
    simp only [Int.bmod_def]
    repeat' split
    all_goals omega

/-- The balance is raised by the value of the coins that are added to the list exactly if the
held outputs that the indexer lists are worth nothing, or a multiple of 2^64, and the raised
balance fits in 64 bits. -/
theorem balance_raise_eq_added_iff (w : World) (session session' : SessionState)
    {balanceRequest listRequest : JsonRpcRequest} {indexerUrl scripthash : String}
    {balance : Json} {utxos : List Json}
    (hbalance : balanceRequest.method = "blockchain.scripthash.get_balance")
    (hlist : listRequest.method = "blockchain.scripthash.listunspent")
    (hparams : scripthashFromParams balanceRequest.params = some scripthash)
    (hparams' : scripthashFromParams listRequest.params = some scripthash)
    (hurl : indexerUrl ≠ "")
    (hanswers : Answers libs env balanceRequest.toJson balance)
    (hanswers' : Answers libs env listRequest.toJson (.arr utxos)) :
    let held := heldOutputs env p w (w.tick + 1) scripthash
    ∃ balance' added, Shows libs env p w indexerUrl session balanceRequest balance' ∧
      Shows libs env p w indexerUrl session' listRequest (.arr (utxos ++ added)) ∧
      (satsOf balance' "unconfirmed" - satsOf balance "unconfirmed" =
          ((added.map coinValue).sum : Nat) ↔
        2 ^ 64 ∣ heldValue utxos held true ∧
          satsOf balance "unconfirmed" + heldValue utxos held false < 2 ^ 63) := by
  intro held
  refine ⟨_, _, shows_getBalance w session hbalance hparams hurl hanswers,
    shows_listunspent w session' hlist hparams' hurl hanswers', ?_⟩
  have hadded : (((held.filter fun out => (out.1, out.2.1) ∉ utxos.filterMap outpoint?).map
      heldCoin).map coinValue).sum = heldValue utxos held false := by
    rw [List.map_map]
    unfold heldValue
    congr 1
    have hcoin : coinValue ∘ heldCoin = fun out => out.2.2 := funext coinValue_heldCoin
    rw [hcoin]
    congr 1
    refine List.filter_congr fun out _ => ?_
    simp
  have htotal := heldValue_add utxos held
  have hrange := satsOf_range balance "unconfirmed"
  rw [hadded]
  unfold unconfirmedValue
  rw [satsOf_injectBalanceUnconfirmed, ← htotal]
  unfold wrapI64
  rw [Int.bmod_def]
  constructor
  · intro h
    split at h <;> omega
  · rintro ⟨⟨k, hk⟩, hfits⟩
    split <;> omega

end

/-- The indexer's replies about "ab" once it knows the transaction "07". -/
def knownReplies : List (Json × Json) :=
  [((sampleRequest "blockchain.scripthash.get_balance").toJson,
      resultResponse (.ofInt 1)
        (.obj [("confirmed", .ofInt 0), ("unconfirmed", .ofInt 5000)])),
    ((sampleRequest "blockchain.scripthash.listunspent").toJson,
      resultResponse (.ofInt 1) (.arr [sampleCoin "07" 0 5000]))]

/-- The indexer lists the output of "07" and counts it, and "07" is still held: the balance is
raised by 5000, and no coin is added. -/
theorem balance_counts_known_output_twice :
    ∃ balance', Shows (sampleLibs (knownReplies.map (·.2))) (repliesEnv knownReplies) .daemon
        holdingWorld "tcp://127.0.0.1:50001" {}
        (sampleRequest "blockchain.scripthash.get_balance") balance' ∧
      Shows (sampleLibs (knownReplies.map (·.2))) (repliesEnv knownReplies) .daemon
        holdingWorld "tcp://127.0.0.1:50001" {}
        (sampleRequest "blockchain.scripthash.listunspent")
        (.arr ([sampleCoin "07" 0 5000] ++ [])) ∧
      satsOf balance' "unconfirmed" - 5000 ≠ ((([] : List Json).map coinValue).sum : Nat) :=
  ⟨_, ⟨_, _, _, rfl, rfl⟩, ⟨_, _, _, rfl, rfl⟩, by decide⟩

theorem balance_raise_eq_added_iff_knownReplies :
    let balance := Json.obj [("confirmed", .ofInt 0), ("unconfirmed", .ofInt 5000)]
    let held := heldOutputs (repliesEnv knownReplies) .daemon holdingWorld
      (holdingWorld.tick + 1) "ab"
    ∃ balance' added, Shows (sampleLibs (knownReplies.map (·.2))) (repliesEnv knownReplies)
        .daemon holdingWorld "tcp://127.0.0.1:50001" {}
        (sampleRequest "blockchain.scripthash.get_balance") balance' ∧
      Shows (sampleLibs (knownReplies.map (·.2))) (repliesEnv knownReplies) .daemon
        holdingWorld "tcp://127.0.0.1:50001" {}
        (sampleRequest "blockchain.scripthash.listunspent")
        (.arr ([sampleCoin "07" 0 5000] ++ added)) ∧
      (satsOf balance' "unconfirmed" - satsOf balance "unconfirmed" =
          ((added.map coinValue).sum : Nat) ↔
        2 ^ 64 ∣ heldValue [sampleCoin "07" 0 5000] held true ∧
          satsOf balance "unconfirmed" + heldValue [sampleCoin "07" 0 5000] held false <
            2 ^ 63) :=
  balance_raise_eq_added_iff holdingWorld {} {} rfl rfl rfl rfl (by decide)
    (fun _ => ⟨_, _, rfl, by rfl, rfl⟩) (fun _ => ⟨_, _, rfl, by rfl, rfl⟩)

end BroadcastPool
