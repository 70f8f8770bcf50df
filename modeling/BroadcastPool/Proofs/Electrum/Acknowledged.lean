import BroadcastPool.Proofs.Electrum.Crash
import BroadcastPool.Proofs.Mempool.Obligations
import BroadcastPool.Proofs.StuckRow

/-!
# `BroadcastPool.Proofs.Electrum.Acknowledged`: what becomes of an acknowledged transaction

The wallet gets the txid of its broadcast after the entry is in the virtual mempool and before
the row is in the table. The rest is `handle_broadcast` in the background, and how that ends is
only logged.

`Log.Hindered` says of the answers that `handle_broadcast` gets that one of them stops it:
the configuration cannot be read, the virtual block is refused or too high for a column, the
drawn delay is no duration, or the `INSERT` is refused. `inserts_or_hindered` follows each of its
paths. `kept_iff` says when the background task leaves a row with the transaction, or no entry.
-/

set_option autoImplicit false

namespace BroadcastPool

open Effects

namespace Log

/-- The answer stops `handle_broadcast`. -/
def stops : Seen Act Act.Res → Bool
  | ⟨.lockConfig _, .error _⟩ | ⟨.advanceVirtualBlock _, .error _⟩ | ⟨.insert _, .error _⟩ => true
  | ⟨.advanceVirtualBlock _, .ok (some target)⟩ => decide (2 ^ 63 ≤ target)
  | _ => false

/-- The delay that a plan for this configuration has drawn is no duration. -/
def DrawsTooLong (config : Config) (l : Log) : Prop :=
  ∃ n ∈ l.draws.head?, ¬ HoursFit (asI64 (config.schedule.minDelayHours +
    n % (max config.schedule.maxDelayHours config.schedule.minDelayHours -
      config.schedule.minDelayHours + 1)))

/-- One of the answers stops `handle_broadcast`, or the delay it has drawn does. The plan is made
for the configuration that is read second. -/
def Hindered (l : Log) : Prop :=
  (∃ s ∈ l, stops s = true) ∨ ∃ config ∈ l.configs[1]?, DrawsTooLong config l

instance (config : Config) (l : Log) : Decidable (DrawsTooLong config l) :=
  inferInstanceAs (Decidable (∃ n ∈ l.draws.head?, ¬ (_ ∧ _)))

instance (l : Log) : Decidable l.Hindered :=
  inferInstanceAs (Decidable ((∃ s ∈ l, stops s = true) ∨
    ∃ config ∈ l.configs[1]?, DrawsTooLong config l))

/-- The text was written to the wallet. -/
def writes (text : String) : Seen Act Act.Res → Bool
  | ⟨.writeClient written, .ok _⟩ => decide (written = text)
  | _ => false

/-- The step leaves the table and the virtual mempool alone. -/
def barren : Seen Act Act.Res → Bool
  | ⟨.insert _, .error _⟩ => true
  | ⟨.advanceVirtualBlock _, _⟩ => true
  | ⟨a, _⟩ => a.isClock

end Log

/-- The action is one that can stop `handle_broadcast`. -/
def Act.canStop : Act → Bool
  | lockConfig _ | advanceVirtualBlock _ | insert _ => true
  | _ => false

section Paths
variable {env : Env} {p : Proc} {l : Log}

theorem stops_of_not_canStop {s : Seen Act Act.Res} (h : s.1.canStop = false) :
    Log.stops s = false := by
  obtain ⟨a, r⟩ := s
  cases a <;> first | rfl | cases h

theorem barren_of_isClock {s : Seen Act Act.Res} (h : s.1.isClock = true) :
    Log.barren s = true := by
  obtain ⟨a, r⟩ := s
  cases a <;> first | rfl | cases h

/-! ### The plan -/

/-- The plan reads the time and draws a number, and nothing else. -/
theorem uses_resolveIngestPlan (source : String) (nlocktime : Nat) (config : Config)
    (height : Option Nat) :
    (resolveIngestPlan env source nlocktime config height).Uses
      fun a => a.isClock = true ∧ a.canStop = false := by
  have hnow : (perform .now : M DateTime).Uses fun a => a.isClock = true ∧ a.canStop = false :=
    uses_act ⟨rfl, rfl⟩
  have hplan : (resolveBroadcastPlan env config).Uses
      fun a => a.isClock = true ∧ a.canStop = false := by
    unfold resolveBroadcastPlan
    split
    · exact Prog.uses_bind hnow fun _ => Prog.uses_ret _
    · split
      · exact Prog.uses_ret _
      · refine Prog.uses_bind (Prog.uses_bind (uses_act ⟨rfl, rfl⟩) fun _ => Prog.uses_ret _)
          fun delay => Prog.uses_bind hnow fun now => Prog.uses_bind ?_ fun _ => Prog.uses_ret _
        unfold durationHours
        split
        · exact Prog.uses_ret _
        · exact Prog.uses_fail _
    · exact Prog.uses_ret _
    · exact Prog.uses_ret _
  unfold resolveIngestPlan
  split
  · split <;> exact Prog.uses_ret _
  split
  · exact Prog.uses_ret _
  split
  · exact Prog.uses_ret _
  split
  · split
    · exact Prog.uses_bind hnow fun _ => Prog.uses_ret _
    · exact Prog.uses_ret _
  · exact hplan

theorem not_drawsTooLong {config : Config} (h : l.draws = []) : ¬ l.DrawsTooLong config := by
  rintro ⟨n, hn, -⟩
  rw [h] at hn
  cases hn

theorem path_durationHours {h : Int} {o : Except Failure Int}
    (hpath : (durationHours h).Path anyAnswer l o) :
    l = [] ∧ ((∃ d, o = .ok d) ↔ HoursFit h) := by
  unfold durationHours at hpath
  split at hpath
  · rename_i hfit
    obtain ⟨rfl, rfl⟩ := Prog.path_ret_iff.1 hpath
    exact ⟨rfl, iff_of_true ⟨_, rfl⟩ hfit⟩
  · rename_i hover
    obtain ⟨rfl, rfl⟩ := Prog.path_fail_iff.1 hpath
    refine ⟨rfl, iff_of_false ?_ hover⟩
    rintro ⟨d, hd⟩
    cases hd

theorem path_genRange {lo hi : Nat} {o : Except Failure Nat}
    (h : (genRange lo hi).Path anyAnswer l o) :
    ∃ n, l = [⟨.random, n⟩] ∧ o = .ok (lo + n % (hi - lo + 1)) := by
  obtain ⟨n, l', -, hret, rfl⟩ := Prog.path_perform_bind_iff.1 h
  obtain ⟨rfl, rfl⟩ := Prog.path_ret_iff.1 hret
  exact ⟨n, rfl, rfl⟩

/-- `resolve_broadcast_plan` returns exactly if its delay is a duration. -/
theorem returns_resolveBroadcastPlan_iff {config : Config}
    {o : Except Failure (BroadcastMode × Option DateTime)}
    (h : (resolveBroadcastPlan env config).Path anyAnswer l o) :
    (∃ plan, o = .ok plan) ↔ ¬ l.DrawsTooLong config := by
  unfold resolveBroadcastPlan at h
  split at h
  · obtain ⟨now, l', -, hret, rfl⟩ := Prog.path_perform_bind_iff.1 h
    obtain ⟨rfl, rfl⟩ := Prog.path_ret_iff.1 hret
    exact iff_of_true ⟨_, rfl⟩ (not_drawsTooLong rfl)
  · split at h
    · obtain ⟨rfl, rfl⟩ := Prog.path_ret_iff.1 h
      exact iff_of_true ⟨_, rfl⟩ (not_drawsTooLong rfl)
    · -- The number is drawn, then the time is read, and then the delay is made.
      obtain ⟨delay, l₁, l₂, hdraw, hrest, rfl⟩ | ⟨e, hdraw, rfl⟩ := Prog.path_bind_iff.1 h
      · obtain ⟨n, rfl, hdelay⟩ := path_genRange hdraw
        have hover : Log.DrawsTooLong config ([⟨.random, n⟩] ++ l₂) ↔ ¬ HoursFit (asI64 delay) := by
          rw [Except.ok.inj hdelay]
          unfold Log.DrawsTooLong
          exact ⟨fun ⟨m, hm, hover⟩ => by cases hm; exact hover, fun hover => ⟨n, rfl, hover⟩⟩
        obtain ⟨now, l₃, -, hlast, rfl⟩ := Prog.path_perform_bind_iff.1 hrest
        rw [hover, not_not]
        obtain ⟨d, l₄, l₅, hd, hret, rfl⟩ | ⟨e, hd, rfl⟩ := Prog.path_bind_iff.1 hlast
        · obtain ⟨-, rfl⟩ := Prog.path_ret_iff.1 hret
          exact iff_of_true ⟨_, rfl⟩ ((path_durationHours hd).2.1 ⟨d, rfl⟩)
        · refine iff_of_false (by simp) fun hfit => ?_
          obtain ⟨d, hd⟩ := (path_durationHours hd).2.2 hfit
          cases hd
      · obtain ⟨n, -, hdelay⟩ := path_genRange hdraw
        cases hdelay
  · obtain ⟨rfl, rfl⟩ := Prog.path_ret_iff.1 h
    exact iff_of_true ⟨_, rfl⟩ (not_drawsTooLong rfl)
  · obtain ⟨rfl, rfl⟩ := Prog.path_ret_iff.1 h
    exact iff_of_true ⟨_, rfl⟩ (not_drawsTooLong rfl)

/-- So does the plan of a broadcast, which draws no other delay. -/
theorem returns_resolveIngestPlan_iff {source : String} {nlocktime : Nat} {config : Config}
    {height : Option Nat} {o : Except Failure (BroadcastMode × Option DateTime)}
    (h : (resolveIngestPlan env source nlocktime config height).Path anyAnswer l o) :
    (∃ plan, o = .ok plan) ↔ ¬ l.DrawsTooLong config := by
  have hret : ∀ {plan : BroadcastMode × Option DateTime},
      (Prog.ret plan : M (BroadcastMode × Option DateTime)).Path anyAnswer l o →
      ((∃ plan, o = .ok plan) ↔ ¬ l.DrawsTooLong config) := by
    intro plan hplan
    obtain ⟨rfl, rfl⟩ := Prog.path_ret_iff.1 hplan
    exact iff_of_true ⟨_, rfl⟩ (not_drawsTooLong rfl)
  unfold resolveIngestPlan at h
  split at h
  · split at h <;> exact hret h
  split at h
  · exact hret h
  split at h
  · exact hret h
  split at h
  · split at h
    · obtain ⟨now, l', -, hend, rfl⟩ := Prog.path_perform_bind_iff.1 h
      obtain ⟨rfl, rfl⟩ := Prog.path_ret_iff.1 hend
      exact iff_of_true ⟨_, rfl⟩ (not_drawsTooLong rfl)
    · exact hret h
  · exact returns_resolveBroadcastPlan_iff h

/-! ### The virtual block -/

/-- The capture returns a target that it was given, or is stopped. -/
theorem path_captureVirtualBlock_cases {mode : BroadcastMode} {source : String}
    {o : Except Failure (Option Nat)} (h : (captureVirtualBlock p mode source).Path anyAnswer l o) :
    (∀ s ∈ l, Log.barren s = true) ∧ l.draws = [] ∧
      ((∃ target, o = .ok target ∧
          ((∃ s ∈ l, Log.stops s = true) ↔ ∃ height, target = some height ∧ 2 ^ 63 ≤ height)) ∨
        (∃ e, o = .error e) ∧ ∃ s ∈ l, Log.stops s = true) := by
  unfold captureVirtualBlock at h
  split at h
  · obtain ⟨r, l', -, hr, rfl⟩ := Prog.path_perform_bind_iff.1 h
    cases r with
    | error e =>
      obtain ⟨rfl, rfl⟩ := Prog.path_fail_iff.1 hr
      exact ⟨by simp [Log.barren], rfl, Or.inr ⟨⟨_, rfl⟩, _, List.mem_singleton_self _, rfl⟩⟩
    | ok target =>
      obtain ⟨rfl, rfl⟩ := Prog.path_ret_iff.1 hr
      refine ⟨by simp [Log.barren], rfl, Or.inl ⟨target, rfl, ?_⟩⟩
      cases target with
      | none => simp [Log.stops]
      | some height => simp [Log.stops]
  · obtain ⟨rfl, rfl⟩ := Prog.path_ret_iff.1 h
    exact ⟨by simp, rfl, Or.inl ⟨none, rfl, by simp⟩⟩

/-! ### The insert -/

/-- The steps before an `INSERT`: they leave the stores alone and cannot stop. -/
def Log.Idle (l : Log) : Prop := ∀ s ∈ l, s.1.isClock = true ∧ s.1.canStop = false

theorem Log.Idle.barren (h : l.Idle) : ∀ s ∈ l, Log.barren s = true :=
  fun s hs => barren_of_isClock (h s hs).1

theorem Log.Idle.stops (h : l.Idle) : ∀ s ∈ l, Log.stops s = false :=
  fun s hs => stops_of_not_canStop (h s hs).2

/-- A part of such steps that returns is followed by the rest. -/
theorem path_bind_idle {α β : Type} {q : M α} {f : α → M β} {o : Except Failure β}
    (hq : q.Uses fun a => a.isClock = true ∧ a.canStop = false)
    {P : α → Prop} (hreturns : ∀ {l o}, q.Path anyAnswer l o → ∃ x, o = .ok x ∧ P x)
    (h : (q.bind f).Path anyAnswer l o) :
    ∃ x l₁ l₂, P x ∧ (f x).Path anyAnswer l₂ o ∧ l = l₁ ++ l₂ ∧ Log.Idle l₁ := by
  obtain ⟨x, l₁, l₂, h₁, h₂, rfl⟩ | ⟨e, h₁, rfl⟩ := Prog.path_bind_iff.1 h
  · obtain ⟨x', hx, hP⟩ := hreturns h₁
    cases hx
    exact ⟨x, l₁, l₂, hP, h₂, rfl, hq.path h₁⟩
  · obtain ⟨x, hx, -⟩ := hreturns h₁
    cases hx

/-- A clock action always returns. -/
theorem path_bind_act {β : Type} {a : Act} {f : a.Res → M β} {o : Except Failure β}
    (ha : a.isClock = true ∧ a.canStop = false)
    (h : ((perform a : M a.Res).bind f).Path anyAnswer l o) :
    ∃ r l₂, (f r).Path anyAnswer l₂ o ∧ l = ⟨a, r⟩ :: l₂ ∧ Log.Idle [⟨a, r⟩] := by
  obtain ⟨r, l₂, -, hf, rfl⟩ := Prog.path_perform_bind_iff.1 h
  refine ⟨r, l₂, hf, rfl, fun s hs => ?_⟩
  cases List.mem_singleton.1 hs
  exact ha

/-- `encode` draws a nonce and returns. -/
theorem path_bind_encode {β : Type} {plaintext aad : String} {f : String → M β}
    {o : Except Failure β} (h : ((encode env plaintext aad).bind f).Path anyAnswer l o) :
    ∃ x l₁ l₂, (∃ nonce, x = encodeField env nonce plaintext aad) ∧ (f x).Path anyAnswer l₂ o ∧
      l = l₁ ++ l₂ ∧ Log.Idle l₁ := by
  refine path_bind_idle (Prog.uses_bind (uses_act ⟨rfl, rfl⟩) fun _ => Prog.uses_ret _) ?_ h
  intro l o hpath
  obtain ⟨nonce, l', -, hret, rfl⟩ := Prog.path_perform_bind_iff.1 hpath
  obtain ⟨-, rfl⟩ := Prog.path_ret_iff.1 hret
  exact ⟨_, rfl, nonce, rfl⟩

theorem path_bind_encode? {β : Type} {plaintext : Option String} {aad : String}
    {f : Option String → M β} {o : Except Failure β}
    (h : ((encode? env plaintext aad).bind f).Path anyAnswer l o) :
    ∃ x l₁ l₂, (f x).Path anyAnswer l₂ o ∧ l = l₁ ++ l₂ ∧ Log.Idle l₁ := by
  cases plaintext with
  | none => exact ⟨none, [], l, h, rfl, fun s hs => by cases hs⟩
  | some text =>
    have hmap : ((encode env text aad).bind fun x => f (some x)).Path anyAnswer l o := by
      rw [← show (encode? env (some text) aad).bind f =
        (encode env text aad).bind fun x => f (some x) from Prog.bind_assoc ..]
      exact h
    obtain ⟨x, l₁, l₂, -, hf, hl, hidle⟩ := path_bind_encode hmap
    exact ⟨some x, l₁, l₂, hf, hl, hidle⟩

/-- `insert_broadcast_tx` inserts a row of the transaction, or is stopped before it or there. -/
theorem path_insertBroadcastTx (hseal : env.SealOpens) {req : NewBroadcastTx}
    {o : Except Failure BroadcastTx} (h : (insertBroadcastTx env req).Path anyAnswer l o) :
    (req.nlocktime.getD 0 < 2 ^ 63 ∧ (∀ s ∈ l, Log.stops s = false) ∧
        ∃ row, ⟨.insert row, .ok ()⟩ ∈ l ∧
          row.hexTxid env = (computeTxid env req.txHex).toOption) ∨
      (2 ^ 63 ≤ req.nlocktime.getD 0 ∨ ∃ s ∈ l, Log.stops s = true) ∧
        (∀ s ∈ l, Log.barren s = true) ∧ ∃ e, o = .error e := by
  obtain ⟨id, l₁, h₁, rfl, hid⟩ := path_bind_act ⟨rfl, rfl⟩ h
  obtain ⟨now, l₂, h₂, rfl, hnow⟩ := path_bind_act (a := .now) ⟨rfl, rfl⟩ h₁
  obtain ⟨enc, l₃, l₄, ⟨nonce, rfl⟩, h₃, rfl, henc⟩ := path_bind_encode h₂
  obtain ⟨dest, l₅, l₆, h₄, rfl, hdest⟩ := path_bind_encode? h₃
  obtain ⟨source, l₇, l₈, h₅, rfl, hsource⟩ := path_bind_encode? h₄
  -- Up to the check of the lock time, nothing is written.
  have hidle : Log.Idle ([⟨.uuid, id⟩] ++ ([⟨.now, now⟩] ++ (l₃ ++ (l₅ ++ l₇)))) := by
    intro s hs
    simp only [List.mem_append] at hs
    rcases hs with hs | hs | hs | hs | hs
    exacts [hid s hs, hnow s hs, henc s hs, hdest s hs, hsource s hs]
  rw [show (⟨.uuid, id⟩ :: ⟨.now, now⟩ :: (l₃ ++ (l₅ ++ (l₇ ++ l₈))) : Log) =
    ([⟨.uuid, id⟩] ++ ([⟨.now, now⟩] ++ (l₃ ++ (l₅ ++ l₇)))) ++ l₈ by simp]
  generalize ([⟨.uuid, id⟩] ++ ([⟨.now, now⟩] ++ (l₃ ++ (l₅ ++ l₇))) : Log) = before at hidle
  -- A lock time that SQLite has no room for fails here; otherwise the answer to the `INSERT`
  -- decides.
  rcases path_ensure_bind h₅ with ⟨hfits, h₆⟩ | ⟨hover, rfl, he⟩
  · obtain ⟨r, l₉, -, h₇, rfl⟩ := Prog.path_perform_bind_iff.1 h₆
    cases r with
    | error e =>
      obtain ⟨rfl, rfl⟩ := Prog.path_fail_iff.1 h₇
      refine Or.inr ⟨Or.inr ⟨_, List.mem_append_right _ (List.mem_singleton_self _), rfl⟩,
        fun s hs => ?_, _, rfl⟩
      rcases List.mem_append.1 hs with hs | hs
      · exact hidle.barren s hs
      · cases List.mem_singleton.1 hs
        rfl
    | ok u =>
      refine Or.inl ⟨hfits, fun s hs => ?_, _,
        List.mem_append_right _ (List.mem_cons_self ..), ?_⟩
      · rcases List.mem_append.1 hs with hs | hs
        · exact hidle.stops s hs
        · rcases List.mem_cons.1 hs with rfl | hs
          · rfl
          · have hread : (getBroadcastTxById id).Uses fun a => a.canStop = false := by
              refine Prog.uses_bind (uses_orFail _ (uses_act rfl)) fun txs => ?_
              cases txs with
              | nil => exact Prog.uses_fail _
              | cons tx txs => exact Prog.uses_ret _
            exact stops_of_not_canStop (hread.path h₇ s hs)
      · -- The stored hex reads back as the request had it, sealed or not.
        have hback := decOrRaw_encodeField hseal nonce req.txHex id
        show (computeTxid env (decOrRaw env id (encodeField env nonce req.txHex id))).toOption = _
        rw [hback]
  · refine Or.inr ⟨Or.inl (Nat.le_of_not_lt hover), ?_, he⟩
    rw [List.append_nil]
    exact hidle.barren

/-! ### The whole background work -/

/-- What `handle_broadcast` does after the row is in the table. -/
theorem uses_afterInsert (txid txHex : String) (mode : BroadcastMode) (id : String) :
    (do
      storePendingOutputs env p txid txHex
      logErrorIf (mode = .immediate) (markDue env id)
      return txid : M String).Uses fun a => a.canStop = false := by
  refine Prog.uses_bind (uses_act rfl) fun _ => Prog.uses_bind ?_ fun _ => Prog.uses_ret _
  refine uses_logErrorIf _ ?_
  refine Prog.uses_bind (Prog.uses_bind (uses_act rfl) fun _ => Prog.uses_ret _) fun now => ?_
  exact Prog.uses_bind (uses_orFail _ (uses_act rfl)) fun _ => uses_orFail _ (uses_act rfl)

/-- `handle_broadcast` from the plan on. -/
theorem inserts_or_stops (hseal : env.SealOpens) (hdecode : env.DecodesLockTimes)
    {txHex network source : String} {tx : Transaction} (htx : decodeTx env txHex = .ok tx)
    {config : Config} {height : Option Nat} {o : Except Failure String}
    (h : (do
      let plan ← resolveIngestPlan env source tx.lockTime config height
      let target ← captureVirtualBlock p plan.1 source
      let imported ← importTransaction env (ingestRequest txHex network source tx plan target)
      storePendingOutputs env p (env.electrumTxid tx) txHex
      logErrorIf (plan.1 = .immediate) (markDue env imported.id)
      return env.electrumTxid tx : M String).Path anyAnswer l o) :
    (((∀ s ∈ l, Log.stops s = false) ∧ ¬ l.DrawsTooLong config) ∧
        ∃ row, ⟨.insert row, .ok ()⟩ ∈ l ∧ row.hexTxid env = some (env.electrumTxid tx)) ∨
      ((∃ s ∈ l, Log.stops s = true) ∨ l.DrawsTooLong config) ∧
        (∀ s ∈ l, Log.barren s = true) ∧ ∃ e, o = .error e := by
  rcases Prog.path_bind_iff.1 h with ⟨plan, lp, l₁, hplan, h₁, rfl⟩ | ⟨e, hplan, rfl⟩
  · have hidle : Log.Idle lp := (uses_resolveIngestPlan _ _ _ _).path hplan
    have hfits := (returns_resolveIngestPlan_iff hplan).1 ⟨plan, rfl⟩
    rcases Prog.path_bind_iff.1 h₁ with ⟨target, lt, l₂, htarget, h₂, rfl⟩ | ⟨e, htarget, rfl⟩
    · obtain ⟨hbarren, hdraws, htarget⟩ := path_captureVirtualBlock_cases htarget
      obtain ⟨height, hheight, hstops⟩ | ⟨⟨e, he⟩, -⟩ := htarget
      · cases hheight
        have hstoring : Log.Storing l₂ := fun s hs => ((uses_storePlan p _ _).path h₂ s hs).1
        have hshort : ¬ Log.DrawsTooLong config (lp ++ (lt ++ l₂)) := by
          unfold Log.DrawsTooLong at hfits ⊢
          rw [Log.draws_append, Log.draws_append, hdraws, hstoring.draws]
          simpa using hfits
        -- The lock time of the row is the captured height, or has 32 bits.
        have hlock : (ingestRequest txHex network source tx plan target).nlocktime.getD 0 =
            target.getD tx.lockTime := ingestRequest_nlocktime
        have hlow : (2 ^ 63 ≤ target.getD tx.lockTime) ↔
            ∃ height, target = some height ∧ 2 ^ 63 ≤ height := by
          cases target with
          | some height => simp
          | none =>
            have hlt : tx.lockTime < 2 ^ 32 := lockTime_lt hdecode htx
            simp only [Option.getD_none, reduceCtorEq, false_and, exists_false, iff_false]
            omega
        have htxid : (computeTxid env txHex).toOption = some (env.electrumTxid tx) := by
          rw [computeTxid, htx]
          rfl
        have hgood : (∀ s ∈ l₂, Log.stops s = false) →
            (ingestRequest txHex network source tx plan target).nlocktime.getD 0 < 2 ^ 63 →
            ∀ s ∈ lp ++ (lt ++ l₂), Log.stops s = false := by
          intro hl₂ hfitting s hs
          rcases List.mem_append.1 hs with hs | hs
          · exact hidle.stops s hs
          · rcases List.mem_append.1 hs with hs | hs
            · by_contra hstop
              have hhigh := hstops.1 ⟨s, hs, by simpa using hstop⟩
              rw [← hlow, ← hlock] at hhigh
              omega
            · exact hl₂ s hs
        rcases Prog.path_bind_iff.1 h₂ with ⟨imported, li, lr, hi, hr, rfl⟩ | ⟨e, hi, rfl⟩
        · rcases path_insertBroadcastTx hseal hi with
            ⟨hfitting, hli, row, hrow, hhex⟩ | ⟨-, -, e, he⟩
          · refine Or.inl ⟨⟨hgood (fun s hs => ?_) hfitting, hshort⟩, row, ?_, hhex.trans htxid⟩
            · rcases List.mem_append.1 hs with hs | hs
              · exact hli s hs
              · exact stops_of_not_canStop ((uses_afterInsert _ _ _ _).path hr s hs)
            · exact List.mem_append_right _ (List.mem_append_right _ (List.mem_append_left _ hrow))
          · cases he
        · rcases path_insertBroadcastTx hseal hi with
            ⟨hfitting, hli, row, hrow, hhex⟩ | ⟨hstop, hbarrenInsert, -⟩
          · exact Or.inl ⟨⟨hgood hli hfitting, hshort⟩, row,
              List.mem_append_right _ (List.mem_append_right _ hrow), hhex.trans htxid⟩
          · refine Or.inr ⟨Or.inl ?_, fun s hs => ?_, e, rfl⟩
            · rcases hstop with hhigh | ⟨s, hs, hstop⟩
              · rw [hlock, hlow, ← hstops] at hhigh
                obtain ⟨s, hs, hstop⟩ := hhigh
                exact ⟨s, List.mem_append_right _ (List.mem_append_left _ hs), hstop⟩
              · exact ⟨s, List.mem_append_right _ (List.mem_append_right _ hs), hstop⟩
            · rcases List.mem_append.1 hs with hs | hs
              · exact hidle.barren s hs
              · rcases List.mem_append.1 hs with hs | hs
                · exact hbarren s hs
                · exact hbarrenInsert s hs
      · cases he
    · obtain ⟨hbarren, -, ⟨target, ht, -⟩ | ⟨-, s, hs, hstop⟩⟩ :=
        path_captureVirtualBlock_cases htarget
      · cases ht
      · refine Or.inr ⟨Or.inl ⟨s, List.mem_append_right _ hs, hstop⟩, fun s hs => ?_, e, rfl⟩
        rcases List.mem_append.1 hs with hs | hs
        · exact hidle.barren s hs
        · exact hbarren s hs
  · have hidle : Log.Idle l := (uses_resolveIngestPlan _ _ _ _).path hplan
    refine Or.inr ⟨Or.inr ?_, hidle.barren, e, rfl⟩
    by_contra hfits
    obtain ⟨plan, hok⟩ := (returns_resolveIngestPlan_iff hplan).2 hfits
    cases hok

/-- `handle_broadcast` inserts a row of the transaction, or is hindered and has changed neither
store. -/
theorem inserts_or_hindered (hseal : env.SealOpens) (hdecode : env.DecodesLockTimes)
    {txHex source : String} {tx : Transaction}
    (htx : decodeTx env (Text.trim txHex) = .ok tx) {o : Except Failure String}
    (h : (handleBroadcast env p txHex source).Path anyAnswer l o) :
    (¬ l.Hindered ∧ ∃ row, ⟨.insert row, .ok ()⟩ ∈ l ∧
        row.hexTxid env = some (env.electrumTxid tx)) ∨
      l.Hindered ∧ (∀ s ∈ l, Log.barren s = true) ∧ ∃ e, o = .error e := by
  unfold handleBroadcast at h
  dsimp only at h
  rw [htx] at h
  -- The network.
  obtain ⟨r₁, l₁, -, h₁, rfl⟩ := Prog.path_perform_bind_iff.1 h
  cases r₁ with
  | error e =>
    obtain ⟨rfl, rfl⟩ := Prog.path_fail_iff.1 h₁
    exact Or.inr ⟨Or.inl ⟨_, List.mem_singleton_self _, rfl⟩, by simp [Log.barren, Act.isClock],
      _, rfl⟩
  | ok c₀ =>
    -- The height of the chain, and the configuration.
    obtain ⟨health, l₂, -, h₂, rfl⟩ := Prog.path_perform_bind_iff.1 h₁
    obtain ⟨r₂, l₃, -, h₃, rfl⟩ := Prog.path_perform_bind_iff.1 h₂
    cases r₂ with
    | error e =>
      obtain ⟨rfl, rfl⟩ := Prog.path_fail_iff.1 h₃
      refine Or.inr ⟨Or.inl ⟨⟨.lockConfig p, .error e⟩, by simp, rfl⟩, ?_, _, rfl⟩
      simp [Log.barren, Act.isClock]
    | ok config =>
      have hhindered : Log.Hindered (⟨.lockConfig p, .ok c₀⟩ :: ⟨.chainHealth p, health⟩ ::
          ⟨.lockConfig p, .ok config⟩ :: l₃) ↔
            (∃ s ∈ l₃, Log.stops s = true) ∨ Log.DrawsTooLong config l₃ := by
        unfold Log.Hindered
        refine or_congr ?_ ⟨?_, fun hlong => ⟨config, rfl, hlong⟩⟩
        · simp [Log.stops]
        · rintro ⟨config', hconfig', hlong⟩
          cases hconfig'
          exact hlong
      rw [hhindered]
      rcases inserts_or_stops hseal hdecode htx h₃ with
        ⟨⟨hnone, hshort⟩, row, hrow, hhex⟩ | ⟨hstop, hbarren, he⟩
      · refine Or.inl ⟨?_, row, ?_, hhex⟩
        · rintro (⟨s, hs, hstop⟩ | hlong)
          · rw [hnone s hs] at hstop
            cases hstop
          · exact hshort hlong
        · exact List.mem_cons_of_mem _ (List.mem_cons_of_mem _ (List.mem_cons_of_mem _ hrow))
      · refine Or.inr ⟨hstop, fun s hs => ?_, he⟩
        rcases List.mem_cons.1 hs with rfl | hs
        · rfl
        rcases List.mem_cons.1 hs with rfl | hs
        · rfl
        rcases List.mem_cons.1 hs with rfl | hs
        · rfl
        · exact hbarren s hs

end Paths

/-! ### The row and the entry -/

/-- A row of the table holds the transaction. -/
def HasRow (env : Env) (w : World) (t : String) : Prop := ∃ r ∈ w.pool, r.hexTxid env = some t

/-- The transaction has a row, or no entry that the wallet could see. -/
def IsKept (env : Env) (w : World) (t : String) : Prop := HasRow env w t ∨ ¬ Holds w t

instance (env : Env) (w : World) (t : String) : Decidable (HasRow env w t) :=
  inferInstanceAs (Decidable (∃ r ∈ w.pool, r.hexTxid env = some t))

instance (env : Env) (w : World) (t : String) : Decidable (IsKept env w t) :=
  inferInstanceAs (Decidable (_ ∨ _))

/-- The action takes no row out of the table and leaves the hex texts alone. -/
def Act.keepsTexts : Act → Bool
  | delete _ | archiveRow .. | update (.encryptFields ..) => false
  | _ => true

section Stores
variable {env : Env} {w : World} {t : String}

theorem hexTxid_set {u : Update} (hu : ∀ id t d s, u ≠ .encryptFields id t d s) (r : Row) :
    (u.set env r).hexTxid env = r.hexTxid env := by
  cases u
  case encryptFields id t d s => exact absurd rfl (hu id t d s)
  all_goals rfl

theorem hasRow_map {w' : World} {f : Row → Row} (h : w'.pool = w.pool.map f)
    (hf : ∀ r, (f r).hexTxid env = r.hexTxid env) (hrow : HasRow env w t) : HasRow env w' t := by
  obtain ⟨r, hr, ht⟩ := hrow
  refine ⟨f r, ?_, (hf r).trans ht⟩
  rw [h]
  exact List.mem_map_of_mem hr

/-- A row with the transaction stays. -/
theorem hasRow_exec {a : Act} (ha : a.keepsTexts = true) (h : HasRow env w t) :
    HasRow env (World.exec env a w).2 t := by
  by_cases hw : a.writesPool = false
  · unfold HasRow
    rw [exec_pool hw]
    exact h
  · cases a <;> first | exact absurd rfl hw | skip
    -- The two actions that take a row out are excluded.
    case delete | archiveRow => cases ha
    case insert row =>
      rcases exec_insert env w row with ⟨e, hexec⟩ | ⟨pool, hins, hexec⟩
      · rw [hexec]
        exact h
      · rw [hexec]
        unfold insertRow at hins
        split at hins
        · cases hins
        · cases hins
          obtain ⟨r, hr, ht⟩ := h
          exact ⟨r, List.mem_append_left _ hr, ht⟩
    case update u =>
      rcases exec_update env w u with ⟨e, hexec⟩ | hexec
      · rw [hexec]
        exact h
      · rw [hexec]
        -- Only `encrypt_legacy_rows` writes the hex column, and its update is excluded too.
        refine hasRow_map (f := u.onRow env) rfl (fun r => ?_) h
        unfold Update.onRow
        split
        · refine hexTxid_set ?_ r
          rintro id t d s rfl
          cases ha
        · rfl
    case reseal id =>
      rcases exec_reseal env w id with ⟨-, e, hexec⟩ | hexec
      · rw [hexec]
        exact h
      · rw [hexec]
        cases hr : resealRow env id w.pool with
        | error e => exact h
        | ok rows =>
          unfold resealRow at hr
          split at hr
          · cases hr
          · split at hr
            · cases hr
            · cases hr
              refine hasRow_map (f := fun r => if r.id = id then resealed env r else r) rfl
                (fun r => ?_) h
              split
              · unfold resealed
                split <;> rfl
              · rfl
    case migrate =>
      rcases exec_migrate env w with ⟨e, hexec⟩ | hexec
      · rw [hexec]
        exact h
      · rw [hexec]
        by_cases hrefused : env.migrationRefused w.tick = true
        · simp only [hrefused, if_true]
          exact h
        · simp only [hrefused]
          refine hasRow_map (f := migration007) rfl (fun r => ?_) h
          unfold migration007
          split <;> rfl
    case backfill =>
      obtain ⟨r, hr, ht⟩ := h
      obtain ⟨r', hr', rfl | rfl⟩ := exec_backfill_mem env w r hr
      · exact ⟨r', hr', ht⟩
      · refine ⟨_, hr', Eq.trans ?_ ht⟩
        unfold backfillRow
        repeat' split
        all_goals rfl

/-- An accepted `INSERT` brings its row. -/
theorem hasRow_insert {row : Row} (hrow : row.hexTxid env = some t)
    (hok : (World.exec env (.insert row) w).1 = .ok ()) :
    HasRow env (World.exec env (.insert row) w).2 t := by
  rcases exec_insert env w row with ⟨e, hexec⟩ | ⟨pool, hins, hexec⟩
  · rw [hexec] at hok
    cases hok
  · rw [hexec]
    unfold insertRow at hins
    split at hins
    · cases hins
    · cases hins
      exact ⟨row, List.mem_append_right _ (List.mem_singleton_self row), hrow⟩

/-- A barren step changes neither store. -/
theorem exec_barren {a : Act} (h : Log.barren ⟨a, (World.exec env a w).1⟩ = true) :
    (World.exec env a w).2.pool = w.pool ∧
      (World.exec env a w).2.daemon.pendingTxs = w.daemon.pendingTxs := by
  by_cases hclock : a.isClock = true
  · obtain ⟨hpool, hpending, -⟩ := no_write_of_isQuiet (isQuiet_of_isClock hclock)
    exact ⟨exec_pool hpool, exec_pendingTxs hpending .daemon⟩
  · cases a
    case insert row =>
      rcases exec_insert env w row with ⟨e, hexec⟩ | ⟨pool, hins, hexec⟩
      · rw [hexec]
        exact ⟨rfl, rfl⟩
      · rw [hexec] at h
        cases h
    case advanceVirtualBlock p => exact ⟨exec_pool rfl, exec_pendingTxs rfl .daemon⟩
    all_goals exact absurd h hclock

end Stores

/-! ### The acknowledgement and the background task -/

/-- One broadcast of a wallet: where it starts, what is asked, and for which session. -/
structure WalletCall where
  env : Env
  libs : ElectrumLibs
  world : World
  id : Json
  txHex : String
  sourceLabel : String
  session : ClientSession

namespace WalletCall
variable (c : WalletCall)

/-- The part that answers the wallet. -/
def intercept : M ClientSession :=
  interceptAndHandleBroadcast c.env c.libs .daemon c.id c.txHex c.sourceLabel c.session

/-- The background task, with the source that the session gives the transaction. -/
def task : M Unit :=
  ingestTask c.env .daemon c.txHex (c.session.wallet.effectiveSource c.sourceLabel)

/-- `handle_broadcast` of the background task. -/
def handle : M String :=
  handleBroadcast c.env .daemon c.txHex (c.session.wallet.effectiveSource c.sourceLabel)

/-- The world when the wallet has its answer. -/
def answered : World := (c.intercept.run (World.exec c.env) c.world).2

/-- The answers that `handle_broadcast` gets in the task, after the clock has been read. -/
def log : Log := c.handle.answers (World.exec c.env) c.answered.ticked

/-- The world when the background task has finished. -/
def finished : World := (c.task.run (World.exec c.env) c.answered).2

/-- The wallet was written the txid as the result of its broadcast. -/
def Acknowledges (txid : String) : Prop :=
  previewWithin c.env c.txHex
      (c.env.instant (c.world.tick + 1) - c.env.instant c.world.tick) = .ok txid ∧
    (c.intercept.answers (World.exec c.env) c.world).any
      (Log.writes (c.libs.toText (resultResponse c.id (.str txid)) ++ "\n")) = true

end WalletCall

section Calls
variable {c : WalletCall} {txid : String}

/-- The write of the answer does not touch the stores, and neither does the start of the task. -/
theorem answered_stores (h : c.Acknowledges txid) :
    c.answered.pool = c.world.pool ∧
      c.answered.daemon.pendingTxs =
        (World.exec c.env (.storePending .daemon txid (outputsOnlyEntry c.env c.txHex))
          c.world.ticked.ticked).2.daemon.pendingTxs := by
  obtain ⟨hpreview, -⟩ := h
  have hsession : ∀ {w w' : World} {a : Act}, a.isSession = true →
      w.pool = c.world.pool ∧ w.daemon.pendingTxs = w'.daemon.pendingTxs →
      (World.exec c.env a w).2.pool = c.world.pool ∧
        (World.exec c.env a w).2.daemon.pendingTxs = w'.daemon.pendingTxs := by
    intro w w' a ha hw
    have hquiet : a.writesPool = false ∧ a.writesPending = false := by
      cases a <;> first | exact ⟨rfl, rfl⟩ | cases ha
    exact ⟨(exec_pool hquiet.1).trans hw.1, (exec_pendingTxs hquiet.2 .daemon).trans hw.2⟩
  have hpreview' : previewWithin c.env c.txHex
      ((World.exec c.env .instant c.world.ticked).1 - (World.exec c.env .instant c.world).1) =
        .ok txid := hpreview
  have hstored : (World.exec c.env (.storePending .daemon txid (outputsOnlyEntry c.env c.txHex))
      c.world.ticked.ticked).2.pool = c.world.pool := exec_pool rfl
  unfold WalletCall.answered WalletCall.intercept interceptAndHandleBroadcast storePendingOutputs
    writeLine
  simp only [Prog.bind_eq, Prog.run_bind, perform, Prog.run_perform]
  rw [show (World.exec c.env .instant c.world).2 = c.world.ticked from rfl, hpreview']
  simp only [Prog.run_bind, Prog.run_perform]
  have hwritten := hsession (a := .writeClient (c.libs.toText (resultResponse c.id (.str txid)) ++
    "\n")) rfl ⟨hstored, rfl⟩
  split
  · exact hwritten
  · exact hsession (a := .spawnIngest _ _) rfl hwritten

/-- After the answer, the wallet has an entry, unless there was none and the lock is poisoned. -/
theorem holds_answered_iff (h : c.Acknowledges txid) :
    Holds c.answered txid ↔
      Holds c.world txid ∨ c.env.pendingPoisoned (c.world.tick + 2) = false := by
  have hsame : Holds c.answered txid ↔
      Holds (World.exec c.env (.storePending .daemon txid (outputsOnlyEntry c.env c.txHex))
        c.world.ticked.ticked).2 txid := iff_of_eq (congrArg (txid ∈ ·) (answered_stores h).2)
  rw [hsame]
  constructor
  · intro hafter
    by_cases hlock : c.env.pendingPoisoned (c.world.tick + 2) = false
    · exact Or.inr hlock
    · refine Or.inl ?_
      have hpoisoned : c.env.pendingPoisoned c.world.ticked.ticked.tick = true :=
        Bool.eq_true_of_not_eq_false hlock
      simp only [World.exec, World.effect, hpoisoned, if_true] at hafter
      exact hafter
  · rintro (hbefore | hlock)
    · exact holds_storePending_of_holds (p := .daemon) hbefore
    · exact holds_storePending_self hlock

theorem keepsTexts_of_work {a : Act} (h : a.Work fun a => a.keepsTexts = true) :
    a.keepsTexts = true := by
  rcases h with h | h
  · cases a <;> first | rfl | cases h
  · exact h

theorem ticked_stores {w w' : World}
    (h : w.pool = w'.pool ∧ w.daemon.pendingTxs = w'.daemon.pendingTxs) :
    w.ticked.pool = w'.pool ∧ w.ticked.daemon.pendingTxs = w'.daemon.pendingTxs := h

theorem run_afterHandleBroadcast_error {env : Env} (txHex : String) (start : Nat) (e : Failure)
    (w : World) :
    ((afterHandleBroadcast env .daemon txHex start (.error e)).run (World.exec env) w).2 =
      w.ticked := rfl

theorem run_instant_attempt {env : Env} (q : M String)
    (f : Nat → Except Failure String → M Unit) (w : World) :
    ((perform .instant).bind fun start => q.attempt.bind (f start)).run (World.exec env) w =
      (f (env.instant w.tick) (q.run (World.exec env) w.ticked).1).run (World.exec env)
        (q.run (World.exec env) w.ticked).2 := by
  rw [Prog.run_bind, perform, Prog.run_perform]
  show (q.attempt.bind (f (env.instant w.tick))).run (World.exec env) w.ticked = _
  rw [Prog.run_bind, Prog.run_attempt]

/-- The task is `handle_broadcast` and what follows its outcome. -/
theorem finished_eq : c.finished =
    ((afterHandleBroadcast c.env .daemon c.txHex (c.env.instant c.answered.tick)
      (c.handle.run (World.exec c.env) c.answered.ticked).1).run (World.exec c.env)
        (c.handle.run (World.exec c.env) c.answered.ticked).2).2 :=
  congrArg Prod.snd
    (run_instant_attempt c.handle (afterHandleBroadcast c.env .daemon c.txHex) c.answered)

theorem keepsTexts_handle : c.handle.Uses fun a => a.keepsTexts = true :=
  Prog.Uses.mono (fun _ => keepsTexts_of_work) (work_handleBroadcast_of_import c.env .daemon
    (fun _ _ _ _ => work_importTransaction c.env _ fun _ _ => rfl) (fun _ _ => rfl)
    fun _ _ => rfl)

theorem keepsTexts_afterHandleBroadcast (start : Nat) (outcome : Except Failure String) :
    (afterHandleBroadcast c.env .daemon c.txHex start outcome).Uses fun a => a.keepsTexts = true :=
  Prog.Uses.mono (fun _ => keepsTexts_of_work)
    (work_afterHandleBroadcast c.env .daemon outcome fun _ _ _ => rfl)

/-- What the background task leaves: a row, or, if it was hindered, both stores as they were. -/
theorem finished_cases (hseal : c.env.SealOpens) (hdecode : c.env.DecodesLockTimes)
    (htxid : computeTxid c.env (Text.trim c.txHex) = .ok txid) :
    (¬ c.log.Hindered ∧ HasRow c.env c.finished txid) ∨
      c.log.Hindered ∧ c.finished.pool = c.answered.pool ∧
        c.finished.daemon.pendingTxs = c.answered.daemon.pendingTxs := by
  obtain ⟨tx, htx, rfl⟩ : ∃ tx, decodeTx c.env (Text.trim c.txHex) = .ok tx ∧
      c.env.electrumTxid tx = txid := by
    unfold computeTxid at htxid
    cases htx : decodeTx c.env (Text.trim c.txHex) with
    | error e =>
      rw [htx] at htxid
      cases htxid
    | ok tx =>
      rw [htx] at htxid
      cases htxid
      exact ⟨tx, rfl, rfl⟩
  have hpath := Prog.path_run (World.exec c.env) (anyAnswer_exec c.env) c.handle
    c.answered.ticked
  rcases inserts_or_hindered hseal hdecode htx hpath with
    ⟨hfree, row, hrow, hhex⟩ | ⟨hhindered, hbarren, e, he⟩
  · refine Or.inl ⟨hfree, ?_⟩
    -- The row that the `INSERT` brings stays to the end, for nothing after it takes a row out.
    have hkeep : ∀ a w, a.keepsTexts = true → HasRow c.env w (c.env.electrumTxid tx) →
        HasRow c.env (World.exec c.env a w).2 (c.env.electrumTxid tx) := fun _ _ => hasRow_exec
    have hinserted : HasRow c.env (c.handle.run (World.exec c.env) c.answered.ticked).2
        (c.env.electrumTxid tx) := by
      have hbring : ∀ (a : Act) w, (⟨.insert row, .ok ()⟩ : (a : Act) × a.Res) =
          ⟨a, (World.exec c.env a w).1⟩ →
            HasRow c.env (World.exec c.env a w).2 (c.env.electrumTxid tx) := fun a w ha => by
        obtain ⟨rfl, hok⟩ := Sigma.mk.inj ha
        exact hasRow_insert hhex (eq_of_heq hok).symm
      exact Prog.run_of_mem_answers (World.exec c.env) hkeep hbring keepsTexts_handle
        ⟨_, hrow, rfl⟩
    rw [finished_eq]
    exact Prog.run_of_uses _ hkeep (keepsTexts_afterHandleBroadcast _ _) hinserted
  · refine Or.inr ⟨hhindered, ?_⟩
    -- No step of `handle_broadcast` reaches either of the stores, and after its error nothing is
    -- stored.
    have hsame : (c.handle.run (World.exec c.env) c.answered.ticked).2.pool = c.answered.pool ∧
        (c.handle.run (World.exec c.env) c.answered.ticked).2.daemon.pendingTxs =
          c.answered.daemon.pendingTxs := by
      refine Prog.run_of_answers (World.exec c.env) (P := fun s => Log.barren s = true)
        (I := fun w => w.pool = c.answered.pool ∧
          w.daemon.pendingTxs = c.answered.daemon.pendingTxs)
        (fun a w ha hw => ?_) c.handle c.answered.ticked hbarren ⟨rfl, rfl⟩
      obtain ⟨hpool, hpending⟩ := exec_barren ha
      exact ⟨hpool.trans hw.1, hpending.trans hw.2⟩
    rw [finished_eq, he, run_afterHandleBroadcast_error]
    exact ticked_stores hsame

/-- Once the background task has finished, an acknowledged transaction has a row or no entry
exactly if it had a row before, or its entry was never stored, or nothing has hindered
`handle_broadcast`. -/
theorem kept_iff (hseal : c.env.SealOpens) (hdecode : c.env.DecodesLockTimes)
    (hack : c.Acknowledges txid) :
    IsKept c.env c.finished txid ↔
      HasRow c.env c.world txid ∨
        (¬ Holds c.world txid ∧ c.env.pendingPoisoned (c.world.tick + 2) = true) ∨
        ¬ c.log.Hindered := by
  have hpool : HasRow c.env c.answered txid ↔ HasRow c.env c.world txid := by
    unfold HasRow
    rw [(answered_stores hack).1]
  have htxid : computeTxid c.env (Text.trim c.txHex) = .ok txid := by
    have hpreview := hack.1
    unfold previewWithin at hpreview
    split at hpreview
    · unfold quickBroadcastPreview at hpreview
      split at hpreview
      · cases hpreview
      · exact hpreview
    · cases hpreview
  rcases finished_cases hseal hdecode htxid with ⟨hfree, hrow⟩ | ⟨hhindered, hsame⟩
  · exact iff_of_true (Or.inl hrow) (Or.inr (Or.inr hfree))
  · have hkept : IsKept c.env c.finished txid ↔ HasRow c.env c.world txid ∨
        ¬ Holds c.answered txid := by
      unfold IsKept HasRow Holds
      rw [hsame.1, hsame.2, (answered_stores hack).1]
    rw [hkept, holds_answered_iff hack, not_or, Bool.not_eq_false]
    simp only [hhindered, not_true, or_false]

/-- The daemon sends "07" as a wallet does. -/
def sampleCall (env : Env) : WalletCall where
  env := env
  libs := sampleLibs []
  world := sampleWorld
  id := .ofInt 1
  txHex := "07"
  sourceLabel := "Sparrow"
  session := {}

/-- Nothing hinders the broadcast, and the transaction has a row. -/
theorem kept_iff_sample :
    IsKept sampleEnv (sampleCall sampleEnv).finished "7" ∧
      ¬ HasRow sampleEnv (sampleCall sampleEnv).world "7" := by
  have hack : (sampleCall sampleEnv).Acknowledges "7" := ⟨by decide +kernel, by decide +kernel⟩
  refine ⟨(kept_iff sealOpens_sampleEnv (decodesLockTimes_of_sample rfl) hack).2
    (Or.inr (Or.inr ?_)), by decide +kernel⟩
  decide +kernel

/-- The outside world in which the database refuses the `INSERT`. -/
def refusingEnv : Env :=
  { sampleEnv with dbFault := fun n => if n = 14 then some "database is locked" else none }

/-- The `INSERT` is refused after the wallet has its answer: no row, and the entry stays. -/
theorem not_kept_refused :
    ¬ ∀ (c : WalletCall) (txid : String), c.env.SealOpens → c.env.DecodesLockTimes →
      c.Acknowledges txid → IsKept c.env c.finished txid := by
  intro h
  have hack : (sampleCall refusingEnv).Acknowledges "7" := ⟨by decide +kernel, by decide +kernel⟩
  have hkept := h (sampleCall refusingEnv) "7" (fun _ _ _ => rfl)
    (decodesLockTimes_of_sample rfl) hack
  exact absurd hkept (by decide +kernel)

end Calls

end BroadcastPool
