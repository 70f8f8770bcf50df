import BroadcastPool.Proofs.Content

/-!
# `BroadcastPool.Proofs.Releases`: why a transaction leaves the pool

`Activity.Releases` says for each piece of work on what grounds it hands a transaction over, in
terms of the answers that it has got. The tick needs a row that the query for due rows has shown,
whose time has come by the clock, and a chain that has reached its nLockTime. `broadcast_now` needs
the row that was asked for, waiting and final. The other two show the row and ask for less: the
rebroadcast loop needs one that is stored as broadcast, and a command line any row but a
confirmed one. No other work hands anything over.

`Earned` adds what the work stores afterwards. A row is marked as broadcast with the txid that a
backend has answered to the hand-over of this row, and as confirmed after it was read as broadcast
and Core has said that a transaction with its txid is in a block (`ConfirmShown`).
`earned_activity` shows both for every piece of work, on each of its paths.
-/

set_option autoImplicit false

namespace BroadcastPool

open Effects

/-! ### Grounds for a hand-over -/

/-- A query has shown the transaction. -/
def Shown (seen : List (Seen Act Act.Res)) (q : Query) (tx : BroadcastTx) : Prop :=
  ∃ txs, (⟨.select q, .ok txs⟩ : Seen Act Act.Res) ∈ seen ∧ tx ∈ txs

/-- A backend has answered with this height. -/
def HeightShown (seen : List (Seen Act Act.Res)) (height : Nat) : Prop :=
  (⟨.indexerHeight, .ok height⟩ : Seen Act Act.Res) ∈ seen ∨
    (⟨.rpcHeight, .ok height⟩ : Seen Act Act.Res) ∈ seen

/-- A backend has answered with this median time, or the cache had it. -/
def MedianTimeShown (seen : List (Seen Act Act.Res)) (mtp : Nat) : Prop :=
  (⟨.rpcMtp, .ok mtp⟩ : Seen Act Act.Res) ∈ seen ∨
    (⟨.indexerMtp, .ok mtp⟩ : Seen Act Act.Res) ∈ seen ∨
    ∃ p fetchedAt, (⟨.readMtpCache p, some (fetchedAt, mtp)⟩ : Seen Act Act.Res) ∈ seen

/-- The chain has reached the nLockTime, by the answers. -/
def FinalShown (seen : List (Seen Act Act.Res)) (nlocktime : Option Nat) : Prop :=
  ∀ n ∈ nlocktime, n ≠ 0 →
    if 500000000 < n then ∃ mtp, MedianTimeShown seen mtp ∧ n ≤ mtp
    else ∃ height, HeightShown seen height ∧ n ≤ height

/-- The user's own time has come. A price that has not been reached has no time. -/
def BroadcastTx.TimeCome (tx : BroadcastTx) (now : DateTime) : Prop :=
  ¬ (tx.scheduleTrigger = some "price" ∧ tx.status = .pending) ∧
    match tx.deferUntil with
    | some deferUntil => deferUntil ≤ now
    | none => ∃ scheduledTime ∈ tx.scheduledTime, scheduledTime ≤ now

/-- The grounds of the tick. -/
structure DueShown (seen : List (Seen Act Act.Res)) (tx : BroadcastTx) : Prop where
  shown : ∃ network, Shown seen (.due network) tx
  time : ∃ now, (⟨.now, now⟩ : Seen Act Act.Res) ∈ seen ∧ tx.TimeCome now
  final : FinalShown seen tx.nlocktime
  verified : tx.tampered ≠ some true

/-- The grounds of `broadcast_now`. -/
structure RequestShown (id : String) (seen : List (Seen Act Act.Res)) (tx : BroadcastTx) :
    Prop where
  shown : Shown seen (.byId id) tx
  waits : tx.status ≠ .broadcast ∧ tx.status ≠ .confirmed
  final : FinalShown seen tx.nlocktime
  verified : tx.tampered ≠ some true

/-- The grounds of a command line. -/
def CommandShown (seen : List (Seen Act Act.Res)) (tx : BroadcastTx) : Prop :=
  (∃ id, Shown seen (.byId id) tx) ∧ tx.status ≠ .confirmed

/-- The last that a program has seen is that Core has the transaction in a block, then the height
of Core's tip, and then the time. -/
def MinedThenHeight (seen : List (Seen Act Act.Res)) (txid : String) (height : Nat) : Prop :=
  ∃ earlier block now, seen = earlier ++ [⟨.rpcTransaction txid, .ok (some block)⟩,
    ⟨.rpcHeight, .ok height⟩, ⟨.now, now⟩]

/-- The grounds of a confirmation. The height is the one of the tip, not the one of the block. -/
structure ConfirmShown (seen : List (Seen Act Act.Res)) (tx : BroadcastTx) (height : Int) :
    Prop where
  shown : ∃ network limit, Shown seen (.list (some "broadcast") network limit) tx
  mined : ∃ txid ∈ tx.txid, ∃ n : Nat, height = n ∧ MinedThenHeight seen txid n

/-- On what grounds a piece of work hands a transaction over. -/
def Activity.Releases : Activity → List (Seen Act Act.Res) → BroadcastTx → Prop
  | broadcastLoop, seen, tx => DueShown seen tx
  | broadcastNow id, seen, tx => RequestShown id seen tx
  | rebroadcastLoop, seen, tx =>
      ∃ cutoff network, Shown seen (.pendingRebroadcast cutoff network) tx
  | command _ _ _ c, seen, tx => c.broadcasts = true ∧ CommandShown seen tx
  | _, _, _ => False

section
variable {seen seen' : List (Seen Act Act.Res)} {q : Query} {tx : BroadcastTx}

theorem Shown.mono (h : Shown seen q tx) (hsub : seen ⊆ seen') : Shown seen' q tx := by
  obtain ⟨txs, hmem, htx⟩ := h
  exact ⟨txs, hsub hmem, htx⟩

theorem MedianTimeShown.mono {mtp : Nat} (h : MedianTimeShown seen mtp) (hsub : seen ⊆ seen') :
    MedianTimeShown seen' mtp := by
  rcases h with h | h | ⟨p, fetchedAt, h⟩
  · exact Or.inl (hsub h)
  · exact Or.inr (Or.inl (hsub h))
  · exact Or.inr (Or.inr ⟨p, fetchedAt, hsub h⟩)

theorem HeightShown.mono {height : Nat} (h : HeightShown seen height) (hsub : seen ⊆ seen') :
    HeightShown seen' height :=
  h.imp (fun h => hsub h) fun h => hsub h

theorem FinalShown.mono {nlocktime : Option Nat} (h : FinalShown seen nlocktime)
    (hsub : seen ⊆ seen') : FinalShown seen' nlocktime := by
  intro n hn hzero
  have hfinal := h n hn hzero
  split at hfinal
  · rename_i htime
    rw [if_pos htime]
    obtain ⟨mtp, hmtp, hle⟩ := hfinal
    exact ⟨mtp, hmtp.mono hsub, hle⟩
  · rename_i hheight
    rw [if_neg hheight]
    obtain ⟨height, hshown, hle⟩ := hfinal
    exact ⟨height, hshown.mono hsub, hle⟩

/-- Who hands a transaction over has read it. -/
theorem Activity.Releases.shown {a : Activity} (h : a.Releases seen tx) :
    ∃ q, Shown seen q tx := by
  cases a
  case broadcastLoop =>
    obtain ⟨network, h⟩ := DueShown.shown h
    exact ⟨_, h⟩
  case broadcastNow => exact ⟨_, RequestShown.shown h⟩
  case rebroadcastLoop =>
    obtain ⟨cutoff, network, h⟩ := h
    exact ⟨_, h⟩
  case command =>
    obtain ⟨id, h⟩ := h.2.1
    exact ⟨_, h⟩
  all_goals cases h

theorem Shown.read {env : Env} (h : Shown seen q tx) : (tx.id, tx.txHex) ∈ readsOf env seen := by
  obtain ⟨txs, hmem, htx⟩ := h
  exact List.mem_flatMap.2 ⟨_, hmem, List.mem_map_of_mem htx⟩

end

/-! ### What is stored after a hand-over -/

/-- A backend has taken the transaction and answered with this txid. -/
def Taken (seen : List (Seen Act Act.Res)) (tx : BroadcastTx) (txid : String) : Prop :=
  (⟨.indexerBroadcast tx, .ok txid⟩ : Seen Act Act.Res) ∈ seen ∨
    (⟨.rpcBroadcast tx, .ok txid⟩ : Seen Act Act.Res) ∈ seen

/-- A transaction is handed over on the grounds `R`. A row is marked as broadcast when a backend
has taken what was read under its id, and as confirmed on the grounds `ConfirmShown`. No other
status than `failed` is stored otherwise. -/
structure Earned (R : List (Seen Act Act.Res) → BroadcastTx → Prop)
    (seen : List (Seen Act Act.Res)) (a : Act) : Prop where
  release : ∀ tx, a.handsOver = some tx → R seen tx
  mark : ∀ id txid fee now, a = .update (.broadcast id txid fee now) →
    ∃ q tx, Shown seen q tx ∧ tx.id = id ∧ Taken seen tx txid
  confirm : ∀ id height now, a = .update (.confirmed id height now) →
    ∃ tx, tx.id = id ∧ ConfirmShown seen tx height
  failed : ∀ id status error now, a = .update (.txStatus id status error now) → status = .failed

/-- The action neither hands over nor stores what follows a hand-over. -/
def Act.emits : Act → Bool
  | indexerBroadcast _ | rpcBroadcast _ => true
  | update (.broadcast ..) | update (.confirmed ..) | update (.txStatus ..) => true
  | _ => false

section
variable {α : Type} {env : Env} {R : List (Seen Act Act.Res) → BroadcastTx → Prop}
  {l₀ : List (Seen Act Act.Res)} {p : Proc} {tx : BroadcastTx}

theorem earned_of_not_emits {a : Act} (h : a.emits = false) (seen : List (Seen Act Act.Res)) :
    Earned R seen a where
  release tx ha := by
    cases a
    case indexerBroadcast | rpcBroadcast => cases h
    all_goals cases ha
  mark id txid fee now ha := by rw [ha] at h; cases h
  confirm id height now ha := by rw [ha] at h; cases h
  failed id status error now ha := by rw [ha] at h; cases h

/-- A row that is read by its id has this id. -/
def ReadsById : (a : Act) → a.Res → Prop
  | .select (.byId id), answer => ∀ txs, answer = .ok txs → ∀ tx ∈ txs, tx.id = id
  | _, _ => True

theorem readsById_exec (env : Env) (a : Act) (w : World) :
    ReadsById a (World.exec env a w).1 := by
  cases a
  case select q =>
    cases q with
    | byId id =>
      intro txs hok tx htx
      rcases exec_select env w (.byId id) with ⟨e, hexec⟩ | ⟨txs', hmap, hexec⟩
      · rw [hexec] at hok
        cases hok
      · rw [hexec] at hok
        cases hok
        obtain ⟨r, hr, hreads⟩ := mem_of_mapM_eq_ok hmap tx htx
        have hselects := (mem_selectRows hr).2
        rw [(mapBroadcastRow_spec hreads).id]
        simpa [Query.selects] using hselects
    | _ => trivial
  all_goals trivial

/-- What a program returns goes with the answers it has got, and it hands over on the grounds
`R`. -/
abbrev Earns (R : List (Seen Act Act.Res) → BroadcastTx → Prop) (l₀ : List (Seen Act Act.Res))
    (Q : α → List (Seen Act Act.Res) → Prop) (prog : M α) : Prop :=
  prog.Learns ReadsById (Earned R) l₀ Q

theorem earns_of_work {prog : M α} (h : IsWork (fun a => a.emits = false) prog) :
    Earns R l₀ (fun _ _ => True) prog := by
  refine Prog.learns_of_uses h fun a ha l => earned_of_not_emits ?_ l
  rcases ha with ha | ha
  · cases a <;> first | rfl | cases ha
  · exact ha

/-- The answer of an action that only reads. -/
theorem earns_act {a : Act} (h : a.emits = false) :
    Earns R l₀ (fun r l => (⟨a, r⟩ : Seen Act Act.Res) ∈ l) (perform a) :=
  Prog.learns_perform (fun l _ => earned_of_not_emits h l) fun _ _ _ _ hmem => hmem

/-- The rows of a query are shown. -/
theorem earns_select (context : String) (q : Query) :
    Earns R l₀ (fun txs l => ∀ tx ∈ txs, Shown l q tx)
      (orFail context (perform (.select q))) := by
  refine learns_orFail _ ((earns_act rfl).mono fun r l _ hmem txs htxs tx htx => ?_)
  subst htxs
  exact ⟨txs, hmem, htx⟩

theorem earns_getBroadcastTxById (id : String) :
    Earns R l₀ (fun tx l => Shown l (.byId id) tx ∧ tx.id = id) (getBroadcastTxById id) := by
  have hselect : Earns R l₀ (fun txs l => ∀ tx ∈ txs, Shown l (.byId id) tx ∧ tx.id = id)
      (orFail "Failed to get broadcast tx" (perform (.select (.byId id)))) := by
    refine learns_orFail _ (Prog.learns_perform (fun l _ => earned_of_not_emits rfl l)
      fun r l _ hanswer hmem txs htxs tx htx => ?_)
    subst htxs
    exact ⟨⟨txs, hmem, htx⟩, hanswer txs rfl tx htx⟩
  refine Prog.learns_bind hselect fun txs l₁ _ htxs => ?_
  cases txs with
  | nil => exact Prog.learns_fail _
  | cons tx txs =>
    obtain ⟨hshown, hid⟩ := htxs tx (List.mem_cons_self ..)
    exact Prog.learns_ret fun l hl => ⟨hshown.mono hl, hid⟩

/-! ### The chain clock -/

theorem earns_indexerBlockHeight :
    Earns R l₀ (fun o l => ∀ height ∈ o, HeightShown l height) (indexerBlockHeight p) := by
  have hnone : ∀ l₁, Earns R l₁ (fun o l => ∀ height ∈ o, HeightShown l height)
      (.ret none) := fun l₁ => Prog.learns_ret fun l _ height h => by cases h
  refine Prog.learns_bind (earns_act rfl) fun health l₁ _ _ => ?_
  split
  · refine Prog.learns_bind (earns_act rfl) fun has l₂ _ _ => ?_
    split
    · refine Prog.learns_bind (earns_act rfl) fun answer l₃ _ hanswer => ?_
      cases answer with
      | ok height =>
        refine Prog.learns_bind (earns_act rfl) fun _ l₄ hl₄ _ => ?_
        refine Prog.learns_ret fun l hl height' h => ?_
        cases h
        exact Or.inl (hl (hl₄ hanswer))
      | error e => exact Prog.learns_bind (earns_act rfl) fun _ l₄ _ _ => hnone l₄
    · exact hnone l₂
  · exact hnone l₁

theorem earns_checkBlockHeight :
    Earns R l₀ (fun o l => ∀ height ∈ o, HeightShown l height) (checkBlockHeight p) := by
  have hnone : ∀ l₁, Earns R l₁ (fun o l => ∀ height ∈ o, HeightShown l height)
      (.ret none) := fun l₁ => Prog.learns_ret fun l _ height h => by cases h
  refine Prog.learns_bind earns_indexerBlockHeight fun o l₁ _ ho => ?_
  cases o with
  | some height =>
    refine Prog.learns_ret fun l hl height' h => ?_
    cases h
    exact (ho height rfl).mono hl
  | none =>
    refine Prog.learns_bind (earns_act rfl) fun has l₂ _ _ => ?_
    split
    · refine Prog.learns_bind (earns_act rfl) fun answer l₃ _ hanswer => ?_
      cases answer with
      | ok height =>
        refine Prog.learns_ret fun l hl height' h => ?_
        cases h
        exact Or.inr (hl hanswer)
      | error e => exact hnone l₃
    · exact hnone l₂

theorem earns_rpcMedianTime :
    Earns R l₀ (fun o l => ∀ mtp ∈ o, MedianTimeShown l mtp) (rpcMedianTime p) := by
  refine Prog.learns_bind (earns_act rfl) fun has l₁ _ _ => ?_
  split
  · refine Prog.learns_bind (earns_act rfl) fun answer l₂ _ hanswer => ?_
    cases answer with
    | ok mtp =>
      refine Prog.learns_ret fun l hl mtp' h => ?_
      cases h
      exact Or.inl (hl hanswer)
    | error e => exact Prog.learns_ret fun l _ mtp h => by cases h
  · exact Prog.learns_ret fun l _ mtp h => by cases h

theorem earns_getMedianTimePast :
    Earns R l₀ (fun mtp l => MedianTimeShown l mtp) (getMedianTimePast p) := by
  refine Prog.learns_bind earns_rpcMedianTime fun o l₁ _ ho => ?_
  cases o with
  | some mtp => exact Prog.learns_ret fun l hl => (ho mtp rfl).mono hl
  | none =>
    refine Prog.learns_bind (earns_act rfl) fun health l₂ _ _ => ?_
    split
    · refine Prog.learns_bind (earns_act rfl) fun has l₃ _ _ => ?_
      split
      · refine Prog.learns_bind (earns_act rfl) fun answer l₄ _ hanswer => ?_
        cases answer with
        | ok mtp => exact Prog.learns_ret fun l hl => Or.inr (Or.inl (hl hanswer))
        | error e =>
          exact Prog.learns_bind (earns_act rfl) fun _ _ _ _ => Prog.learns_fail _
      · exact Prog.learns_fail _
    · exact Prog.learns_fail _

theorem earns_refreshMtpCache :
    Earns R l₀ (fun mtp l => MedianTimeShown l mtp) (refreshMtpCache p) := by
  refine Prog.learns_bind earns_getMedianTimePast fun mtp l₁ _ hmtp => ?_
  refine Prog.learns_bind (earns_act rfl) fun fetchedAt l₂ hl₂ _ => ?_
  refine Prog.learns_bind (earns_act rfl) fun _ l₃ hl₃ _ => ?_
  exact Prog.learns_ret fun l hl => hmtp.mono fun _ h => hl (hl₃ (hl₂ h))

theorem earns_getMedianTimePastCached :
    Earns R l₀ (fun mtp l => MedianTimeShown l mtp) (getMedianTimePastCached p) := by
  refine Prog.learns_bind (earns_act rfl) fun cached l₁ _ hcached => ?_
  cases cached with
  | none => exact earns_refreshMtpCache
  | some entry =>
    obtain ⟨fetchedAt, mtp⟩ := entry
    refine Prog.learns_bind (earns_act rfl) fun now l₂ hl₂ _ => ?_
    split
    · exact Prog.learns_ret fun l hl => Or.inr (Or.inr ⟨p, fetchedAt, hl (hl₂ hcached)⟩)
    · exact earns_refreshMtpCache

theorem earns_isLocktimeSatisfied (nlocktime : Option Nat) :
    Earns R l₀ (fun ok l => ok = true → FinalShown l nlocktime)
      (isLocktimeSatisfied p nlocktime) := by
  unfold isLocktimeSatisfied
  split
  · exact Prog.learns_ret fun l _ _ n hn => by cases hn
  · refine Prog.learns_ret fun l _ _ n hn hzero => ?_
    cases hn
    exact absurd rfl hzero
  · rename_i n hzero
    split
    · rename_i htime
      refine Prog.learns_bind earns_getMedianTimePastCached fun mtp l₁ _ hmtp => ?_
      refine Prog.learns_ret fun l hl hle n' hn _ => ?_
      cases hn
      rw [if_pos htime]
      exact ⟨mtp, hmtp.mono hl, of_decide_eq_true hle⟩
    · rename_i hheight
      refine Prog.learns_bind earns_checkBlockHeight fun o l₁ _ ho => ?_
      cases o with
      | none => exact Prog.learns_ret fun l _ h => by cases h
      | some height =>
        refine Prog.learns_ret fun l hl hle n' hn _ => ?_
        cases hn
        rw [if_neg hheight]
        exact ⟨height, (ho height rfl).mono hl, of_decide_eq_true hle⟩

theorem earns_locktimeOrRefuse (nlocktime : Option Nat) :
    Earns R l₀ (fun ok l => ok = true → FinalShown l nlocktime)
      (locktimeOrRefuse p nlocktime) := by
  refine Prog.learns_bind (learns_catchErr (earns_isLocktimeSatisfied nlocktime))
    fun o l₁ _ ho => ?_
  cases o with
  | ok ok => exact Prog.learns_ret fun l hl htrue => (ho ok rfl htrue).mono hl
  | error e => exact Prog.learns_fail _

theorem earns_isTxDueForBroadcast (now : DateTime) :
    Earns R l₀ (fun ok _ => ok = true → tx.TimeCome now) (isTxDueForBroadcast p tx now) := by
  unfold isTxDueForBroadcast
  split
  · exact Prog.learns_ret fun l _ h => by cases h
  · rename_i hprice
    refine Prog.learns_bind (earns_isLocktimeSatisfied _) fun ok l₁ _ _ => ?_
    unfold BroadcastTx.TimeCome
    cases htx : tx.deferUntil with
    | some deferUntil =>
      dsimp only
      split
      · exact Prog.learns_ret fun l _ h => by cases h
      · rename_i hreached
        exact Prog.learns_ret fun l _ _ => ⟨hprice, Int.not_lt.1 hreached⟩
    | none =>
      dsimp only
      split
      · rename_i hreached
        refine Prog.learns_ret fun l _ _ => ⟨hprice, ?_⟩
        cases htime : tx.scheduledTime with
        | none =>
          rw [htime] at hreached
          cases hreached
        | some time =>
          rw [htime] at hreached
          exact ⟨time, rfl, of_decide_eq_true hreached⟩
      · exact Prog.learns_ret fun l _ h => by cases h

theorem earns_dueTxs (now : DateTime) (txs : List BroadcastTx) :
    Earns R l₀ (fun due _ => ∀ tx ∈ due, tx ∈ txs ∧ tx.TimeCome now) (dueTxs p now txs) := by
  induction txs generalizing l₀ with
  | nil => exact Prog.learns_ret fun l _ tx h => by cases h
  | cons tx txs ih =>
    refine Prog.learns_bind (learns_catchErr (earns_isTxDueForBroadcast now))
      fun due l₁ _ hdue => ?_
    refine Prog.learns_bind ih fun rest l₂ _ hrest => ?_
    have hlater : ∀ tx' ∈ rest, tx' ∈ tx :: txs ∧ tx'.TimeCome now := fun tx' h =>
      ⟨List.mem_cons_of_mem _ (hrest tx' h).1, (hrest tx' h).2⟩
    refine Prog.learns_ret fun l _ => ?_
    split
    · rename_i hok
      intro tx' htx'
      rcases List.mem_cons.1 htx' with rfl | htx'
      · exact ⟨List.mem_cons_self .., hdue true hok rfl⟩
      · exact hlater tx' htx'
    · exact hlater

/-! ### The hand-over and the mark -/

theorem Taken.mono {seen seen' : List (Seen Act Act.Res)} {txid : String}
    (h : Taken seen tx txid) (hsub : seen ⊆ seen') : Taken seen' tx txid :=
  h.imp (fun h => hsub h) fun h => hsub h

/-- A hand-over on the grounds `R`. -/
theorem earns_handOver {a : Act} (ha : a = .indexerBroadcast tx ∨ a = .rpcBroadcast tx)
    (hR : ∀ l, l₀ ⊆ l → R l tx) :
    Earns R l₀ (fun r l => (⟨a, r⟩ : Seen Act Act.Res) ∈ l) (perform a) := by
  refine Prog.learns_perform (fun l hl => ?_) fun _ _ _ _ hmem => hmem
  refine ⟨fun tx' h => ?_, fun _ _ _ _ h => ?_, fun _ _ _ h => ?_, fun _ _ _ _ h => ?_⟩
  · rcases ha with rfl | rfl
    all_goals
      cases h
      exact hR l hl
  all_goals
    rcases ha with rfl | rfl
    all_goals cases h

theorem earns_broadcastTransaction (hR : ∀ l, l₀ ⊆ l → R l tx) :
    Earns R l₀ (fun txid l => Taken l tx txid) (broadcastTransaction p tx) := by
  have hnone : ∀ l₁, Earns R l₁ (fun (v : Option (Except String String)) l =>
      ∀ txid, v = some (.ok txid) → Taken l tx txid) (.ret none) := fun l₁ =>
    Prog.learns_ret fun l _ txid h => by cases h
  have hverdict : Earns R l₀ (fun v l => ∀ txid, v = some (.ok txid) → Taken l tx txid)
      (indexerVerdict p tx) := by
    refine Prog.learns_bind (earns_act rfl) fun health l₁ hl₁ _ => ?_
    split
    · refine Prog.learns_bind (earns_act rfl) fun has l₂ hl₂ _ => ?_
      split
      · refine Prog.learns_bind (earns_handOver (Or.inl rfl) fun l hl =>
          hR l fun _ h => hl (hl₂ (hl₁ h))) fun verdict l₃ _ hverdict => ?_
        refine Prog.learns_ret fun l hl txid h => ?_
        cases h
        exact Or.inl (hl hverdict)
      · exact hnone l₂
    · exact hnone l₁
  refine Prog.learns_bind hverdict fun verdict l₁ hl₁ hv => ?_
  split
  · exact Prog.learns_ret fun l hl => (hv _ rfl).mono hl
  · refine Prog.learns_bind (earns_act rfl) fun has l₂ hl₂ _ => ?_
    split
    · refine learns_orRaise ((earns_handOver (Or.inr rfl) fun l hl =>
        hR l fun _ h => hl (hl₂ (hl₁ h))).mono fun r l _ hmem txid h => ?_)
      subst h
      exact Or.inr hmem
    · split <;> exact Prog.learns_fail _

theorem earns_broadcastRaw (hR : ∀ l, l₀ ⊆ l → R l tx) :
    Earns R l₀ (fun txid l => Taken l tx txid) (broadcastRaw tx) := by
  have hverdict : Earns R l₀ (fun v l => ∀ txid, v = some (.ok txid) → Taken l tx txid)
      (rawIndexerVerdict tx) := by
    refine Prog.learns_bind (earns_act rfl) fun has l₁ hl₁ _ => ?_
    split
    · refine Prog.learns_bind (earns_handOver (Or.inl rfl) fun l hl =>
        hR l fun _ h => hl (hl₁ h)) fun verdict l₂ _ hverdict => ?_
      refine Prog.learns_ret fun l hl txid h => ?_
      cases h
      exact Or.inl (hl hverdict)
    · exact Prog.learns_ret fun l _ txid h => by cases h
  refine Prog.learns_bind hverdict fun verdict l₁ hl₁ hv => ?_
  split
  · exact Prog.learns_ret fun l hl => (hv _ rfl).mono hl
  · refine Prog.learns_bind (earns_act rfl) fun has l₂ hl₂ _ => ?_
    split
    · refine learns_orRaise ((earns_handOver (Or.inr rfl) fun l hl =>
        hR l fun _ h => hl (hl₂ (hl₁ h))).mono fun r l _ hmem txid h => ?_)
      subst h
      exact Or.inr hmem
    · exact Prog.learns_fail _

/-- One statement with a time stamp, and the seal of its row. -/
theorem earns_clocked (context : String) {u : String → Update}
    (hu : ∀ now l, l₀ ⊆ l → Earned R l (.update (u now))) :
    Earns R l₀ (fun _ _ => True)
      ((nowText env).bind fun now => updateAndReseal context (u now)) := by
  refine Prog.learns_bind (earns_of_work (clock_nowText env).work) fun now l₁ hl₁ _ => ?_
  refine Prog.learns_bind (learns_orFail context (Q := fun _ _ => True) (Prog.learns_perform
    (fun l hl => hu now l fun _ h => hl (hl₁ h)) fun _ _ _ _ _ _ _ => trivial)) fun _ l₂ _ _ => ?_
  exact earns_of_work (work_resealRowMac _)

theorem earns_dbMarkBroadcast {q : Query} {txid : String} (hshown : Shown l₀ q tx)
    (htaken : Taken l₀ tx txid) (fee : F64) :
    Earns R l₀ (fun _ _ => True) (dbMarkBroadcast env tx.id txid fee) := by
  refine earns_clocked _ fun now l hl => ⟨fun _ h => ?_, fun id txid' _ _ h => ?_,
    fun _ _ _ h => ?_, fun _ _ _ _ h => ?_⟩
  · cases h
  · cases h
    exact ⟨q, tx, hshown.mono hl, rfl, htaken.mono hl⟩
  · cases h
  · cases h

theorem earns_markBroadcast {q : Query} {txid : String} (hshown : Shown l₀ q tx)
    (htaken : Taken l₀ tx txid) (fee : F64) :
    Earns R l₀ (fun _ _ => True) (markBroadcast env p tx.id txid fee) := by
  refine Prog.learns_bind (earns_dbMarkBroadcast hshown htaken fee) fun _ _ _ _ => ?_
  exact Prog.learns_bind (earns_act rfl) fun _ _ _ _ => Prog.learns_ret fun _ _ => trivial

/-- A confirmation is stored right after the time is read. -/
theorem wp_markConfirmed {height : Nat} {l : List (Seen Act Act.Res)}
    (hshown : ∀ now, ConfirmShown (l ++ [⟨.now, now⟩]) tx height) :
    (markConfirmed env tx.id height).wp (pathContract ReadsById (Earned R)) (fun _ l' => l ⊆ l')
      l := by
  refine (Prog.wp_bind _ _ _ _).2 ((Prog.wp_bind _ _ _ _).2 (Prog.wp_perform_path _ _ _
    (earned_of_not_emits rfl _) fun now _ => (Prog.wp_ret _ _ _).mpr ?_))
  have hnow : l ⊆ l ++ [⟨.now, now⟩] := List.subset_append_left ..
  refine (Prog.wp_bind _ _ _ _).2 ((Prog.wp_ensure _ _ _ _).2 ⟨fun _ => ?_, fun _ => hnow⟩)
  have hconfirm : Earned R (l ++ [⟨.now, now⟩])
      (.update (.confirmed tx.id height (env.toRfc3339 now))) := by
    refine ⟨fun _ h => ?_, fun _ _ _ _ h => ?_, fun id _ _ h => ?_, fun _ _ _ _ h => ?_⟩
    · cases h
    · cases h
    · cases h
      exact ⟨tx, rfl, hshown now⟩
    · cases h
  refine (Prog.wp_bind _ _ _ _).2 ((wp_orFail _ _ _ _).2 (Prog.wp_perform_path _ _ _
    hconfirm fun r _ => ?_))
  have hstored : l ⊆ l ++ [⟨.now, now⟩] ++ [⟨.update (.confirmed tx.id height
      (env.toRfc3339 now)), r⟩] := fun _ h => List.mem_append_left _ (hnow h)
  cases r with
  | error e => exact hstored
  | ok u =>
    have hreseal : Earns R l (fun _ _ => True) (resealRowMac tx.id) :=
      earns_of_work (work_resealRowMac _)
    exact Prog.wp_mono (fun _ _ h => List.Subset.trans hstored h.1) _ _ (hreseal _ hstored)

theorem earns_updateTxStatus (id : String) (error : Option String) :
    Earns R l₀ (fun _ _ => True) (updateTxStatus env id .failed error) := by
  refine earns_clocked _ fun now l hl => ⟨fun _ h => ?_, fun _ _ _ _ h => ?_,
    fun _ _ _ h => ?_, fun _ _ _ _ h => ?_⟩
  all_goals
    cases h
  rfl

/-! ### The work that hands transactions over -/

theorem earns_broadcastIfFinal {q : Query} (now : DateTime) (hshown : Shown l₀ q tx)
    (hR : ∀ l, l₀ ⊆ l → FinalShown l tx.nlocktime → R l tx) :
    Earns R l₀ (fun _ _ => True) (broadcastIfFinal env p tx now) := by
  refine Prog.learns_bind (earns_locktimeOrRefuse _) fun ok l₁ hl₁ hfinal => ?_
  split
  · rename_i hok
    refine Prog.learns_bind (learns_catchErr (earns_broadcastTransaction fun l hl =>
      hR l (fun _ h => hl (hl₁ h)) ((hfinal hok).mono hl))) fun verdict l₂ hl₂ htaken => ?_
    cases verdict with
    | ok txid =>
      exact earns_markBroadcast (hshown.mono fun _ h => hl₂ (hl₁ h)) (htaken txid rfl) _
    | error e =>
      show Earns R l₂ _ (if _ then _ else _)
      split
      · exact Prog.learns_ret fun _ _ => trivial
      · exact earns_updateTxStatus tx.id (some e)
  · exact earns_of_work (work_recordMiss env p tx now fun _ _ _ => rfl)

theorem earns_broadcastDueLoop (now : DateTime) {txs : List BroadcastTx}
    (hshown : ∀ tx ∈ txs, ∃ q, Shown l₀ q tx)
    (hR : ∀ tx ∈ txs, tx.tampered ≠ some true → ∀ l, l₀ ⊆ l → FinalShown l tx.nlocktime → R l tx) :
    Earns R l₀ (fun _ _ => True) (broadcastDueLoop env p now txs) := by
  induction txs generalizing l₀ with
  | nil => exact Prog.learns_ret fun _ _ => trivial
  | cons tx txs ih =>
    refine Prog.learns_bind (earns_act rfl) fun halted l₁ hl₁ _ => ?_
    split
    · exact Prog.learns_ret fun _ _ => trivial
    · split
      · exact (earns_act rfl).mono fun _ _ _ _ => trivial
      · rename_i hverified
        obtain ⟨q, hq⟩ := hshown tx (List.mem_cons_self ..)
        refine Prog.learns_bind (earns_broadcastIfFinal now (hq.mono hl₁) fun l hl =>
          hR tx (List.mem_cons_self ..) hverified l fun _ h => hl (hl₁ h)) fun _ l₂ hl₂ _ => ?_
        refine ih (fun tx' h => ?_) fun tx' h hverified' l hl => ?_
        · obtain ⟨q', hq'⟩ := hshown tx' (List.mem_cons_of_mem _ h)
          exact ⟨q', hq'.mono fun _ h => hl₂ (hl₁ h)⟩
        · exact hR tx' (List.mem_cons_of_mem _ h) hverified' l fun _ h => hl (hl₂ (hl₁ h))

theorem earns_broadcastDueTransactions :
    Earns DueShown l₀ (fun _ _ => True) (broadcastDueTransactions env p) := by
  refine Prog.learns_bind (earns_act rfl) fun halted l₁ _ _ => ?_
  split
  · exact Prog.learns_ret fun _ _ => trivial
  · refine Prog.learns_bind (earns_of_work (clock_configNetwork p).work) fun network l₂ _ _ => ?_
    refine Prog.learns_bind (earns_act rfl) fun now l₃ _ hnow => ?_
    refine Prog.learns_bind (earns_select _ _) fun candidates l₄ hl₄ hshown => ?_
    refine Prog.learns_bind (earns_dueTxs now candidates) fun due l₅ hl₅ hdue => ?_
    refine earns_broadcastDueLoop now (fun tx htx => ?_) fun tx htx hverified l hl hfinal => ?_
    · exact ⟨_, (hshown tx (hdue tx htx).1).mono hl₅⟩
    · exact ⟨⟨network, (hshown tx (hdue tx htx).1).mono fun _ h => hl (hl₅ h)⟩,
        ⟨now, hl (hl₅ (hl₄ hnow)), (hdue tx htx).2⟩, hfinal, hverified⟩

theorem earns_broadcastLoopPass :
    Earns DueShown l₀ (fun _ _ => True) (broadcastLoopPass env p) := by
  refine Prog.learns_bind (earns_act rfl) fun halted _ _ _ => ?_
  split
  · exact Prog.learns_ret fun _ _ => trivial
  · rw [runSchedulerTick_eq]
    refine Prog.learns_bind (earns_of_work (work_pendingDuePart env p rfl (fun _ => rfl)
      fun _ _ => rfl)) fun goesOn _ _ _ => ?_
    split
    · refine Prog.learns_bind (earns_of_work (uses_catchErr (work_requeueRetriableFailures env p
        fun _ _ => rfl))) fun _ _ _ _ => ?_
      exact earns_broadcastDueTransactions
    · exact Prog.learns_ret fun _ _ => trivial

theorem earns_broadcastNow (id : String) :
    Earns (RequestShown id) l₀ (fun _ _ => True) (broadcastNow env p id) := by
  refine Prog.learns_bind (earns_act rfl) fun halted _ _ _ => ?_
  refine Prog.learns_bind (earns_of_work (uses_ensure _ _)) fun _ _ _ _ => ?_
  refine Prog.learns_bind (earns_getBroadcastTxById id) fun tx l₁ _ hread => ?_
  have hshown := hread.1
  split
  · exact Prog.learns_bind (earns_act rfl) fun _ _ _ _ => Prog.learns_fail _
  · rename_i hverified
    have hrefuse : Earns (RequestShown id) l₁
        (fun _ _ => tx.status ≠ .broadcast ∧ tx.status ≠ .confirmed) (refuseEmitted tx.status) := by
      unfold refuseEmitted
      split
      · exact Prog.learns_fail _
      · exact Prog.learns_fail _
      · rename_i hbroadcast hconfirmed
        exact Prog.learns_ret fun _ _ => ⟨hbroadcast, hconfirmed⟩
    refine Prog.learns_bind hrefuse fun _ l₂ hl₂ hwaits => ?_
    refine Prog.learns_bind (earns_locktimeOrRefuse _) fun ok l₃ hl₃ hfinal => ?_
    split
    · rename_i hok
      refine Prog.learns_bind (earns_broadcastTransaction fun l hl =>
        ⟨hshown.mono fun _ h => hl (hl₃ (hl₂ h)), hwaits, (hfinal hok).mono hl, hverified⟩)
        fun txid l₄ hl₄ htaken => ?_
      refine Prog.learns_bind (earns_markBroadcast (hshown.mono fun _ h => hl₄ (hl₃ (hl₂ h)))
        htaken _) fun _ _ _ _ => ?_
      exact Prog.learns_ret fun _ _ => trivial
    · exact (earns_of_work (clock_refuseNonFinal p _).work).mono fun _ _ _ _ => trivial

/-- The rebroadcast stores its own time only. -/
theorem earns_rebroadcastTx (hR : ∀ l, l₀ ⊆ l → R l tx) :
    Earns R l₀ (fun _ _ => True) (rebroadcastTx env p tx) := by
  refine Prog.learns_bind (learns_catchErr (earns_broadcastTransaction hR)) fun o _ _ _ => ?_
  cases o with
  | error e => exact Prog.learns_ret fun _ _ => trivial
  | ok txid =>
    refine earns_of_work (Prog.uses_bind (clock_nowText env).work fun now => ?_)
    exact Prog.uses_bind (uses_orFail _ (work_act rfl)) fun _ => Prog.uses_ret _

theorem earns_getPendingRebroadcast (interval : Int) (network : String) :
    Earns R l₀ (fun txs l => ∀ tx ∈ txs, ∃ cutoff, Shown l (.pendingRebroadcast cutoff network) tx)
      (getPendingRebroadcast env interval network) := by
  refine Prog.learns_bind (earns_act rfl) fun now _ _ _ => ?_
  exact (earns_select _ _).mono fun txs l _ hshown tx htx => ⟨_, hshown tx htx⟩

theorem earns_rebroadcastLoopPass :
    Earns (fun seen tx => ∃ cutoff network, Shown seen (.pendingRebroadcast cutoff network) tx) l₀
      (fun _ _ => True) (rebroadcastLoopPass env p) := by
  refine Prog.learns_bind (earns_act rfl) fun health _ _ _ => ?_
  split
  · refine Prog.learns_bind (earns_of_work (uses_orRaise (work_basic rfl))) fun config _ _ _ => ?_
    refine Prog.learns_bind (earns_getPendingRebroadcast _ _) fun txs l₁ _ hshown => ?_
    refine Prog.learns_forEach txs fun tx htx l₂ hl₂ => ?_
    obtain ⟨cutoff, htx⟩ := hshown tx htx
    exact earns_rebroadcastTx fun l hl => ⟨cutoff, _, htx.mono fun _ h => hl (hl₂ h)⟩
  · exact Prog.learns_ret fun _ _ => trivial

theorem earns_ensure (g : Prop) [Decidable g] (text : String) :
    Earns R l₀ (fun _ _ => g) (ensure g text) := by
  unfold ensure Prog.ensure
  split
  · rename_i hg
    exact Prog.learns_ret fun _ _ => hg
  · exact Prog.learns_fail _

theorem earns_broadcastSingle (hR : ∀ l tx, CommandShown l tx → R l tx) (id : String) :
    Earns R l₀ (fun _ _ => True) (broadcastSingle env id) := by
  refine Prog.learns_bind (earns_getBroadcastTxById id) fun tx l₁ _ hread => ?_
  obtain ⟨hshown, rfl⟩ := hread
  refine Prog.learns_bind (earns_ensure _ _) fun _ l₂ hl₂ hwaits => ?_
  have hsend : Earns R l₂ (fun txid l => Taken l tx txid) (broadcastRaw tx) :=
    earns_broadcastRaw fun l hl => hR l tx ⟨⟨_, hshown.mono fun _ h => hl (hl₂ h)⟩, hwaits⟩
  refine Prog.learns_bind (learns_orFail _ (learns_catchErr hsend)) fun txid l₃ hl₃ htaken => ?_
  refine Prog.learns_bind (earns_dbMarkBroadcast (hshown.mono fun _ h => hl₃ (hl₂ h)) htaken _)
    fun _ _ _ _ => ?_
  exact Prog.learns_ret fun _ _ => trivial

theorem earns_broadcastAllPending (hR : ∀ l tx, CommandShown l tx → R l tx) (network : String) :
    Earns R l₀ (fun _ _ => True) (broadcastAllPending env network) := by
  refine Prog.learns_bind (earns_of_work (quiet_select _ _).work) fun txs _ _ _ => ?_
  refine Prog.learns_forEach txs fun tx _ _ _ => ?_
  refine Prog.learns_bind (learns_catchErr (earns_broadcastSingle hR tx.id)) fun _ _ _ _ => ?_
  exact Prog.learns_ret fun _ _ => trivial

/-! ### The other work -/

/-- A row is confirmed when Core has its transaction in a block and then tells the height. -/
theorem earns_checkConfirmation {network : String} {limit : Int}
    (hshown : Shown l₀ (.list (some "broadcast") network limit) tx) :
    Earns R l₀ (fun _ _ => True) (checkConfirmation env tx) := by
  unfold checkConfirmation
  cases htxid : tx.txid with
  | none => exact Prog.learns_ret fun _ _ => trivial
  | some txid =>
    intro l hl
    refine (Prog.wp_bind _ _ _ _).2 (Prog.wp_perform_path _ _ _ (earned_of_not_emits rfl _)
      fun found _ => ?_)
    have hfound : l ⊆ l ++ [⟨.rpcTransaction txid, found⟩] := List.subset_append_left ..
    dsimp only
    split
    · rename_i block _
      refine (Prog.wp_bind _ _ _ _).2 (Prog.wp_perform_path _ _ _ (earned_of_not_emits rfl _)
        fun answer _ => ?_)
      have hanswer : l ⊆ l ++ [⟨.rpcTransaction txid, .ok (some block)⟩] ++
          [⟨.rpcHeight, answer⟩] := fun _ h => List.mem_append_left _ (hfound h)
      cases answer with
      | error e => exact (Prog.wp_ret _ _ _).mpr ⟨hanswer, fun _ _ => trivial⟩
      | ok height =>
        -- What is stored comes right after these two answers.
        have hconfirm : ∀ now, ConfirmShown (l ++ [⟨.rpcTransaction txid, .ok (some block)⟩] ++
            [⟨.rpcHeight, .ok height⟩] ++ [⟨.now, now⟩]) tx height := fun now =>
          ⟨⟨network, limit, hshown.mono fun _ h => List.mem_append_left _ (hanswer (hl h))⟩,
            ⟨txid, htxid, height, rfl, l, block, now, by simp⟩⟩
        refine (Prog.wp_bind _ _ _ _).2 ((Prog.wp_bind _ _ _ _).2 ((Prog.wp_attempt _ _ _).2
          (Prog.wp_mono (fun o l' hsub => ?_) _ _ (wp_markConfirmed hconfirm))))
        have hend : l ⊆ l' := fun _ h => hsub (hanswer h)
        rcases o with (e | e) | u
        · exact (Prog.wp_ret _ _ _).mpr ((Prog.wp_ret _ _ _).mpr ⟨hend, fun _ _ => trivial⟩)
        · exact (Prog.wp_fail _ _ _).mpr ⟨hend, fun _ _ => trivial⟩
        · exact (Prog.wp_ret _ _ _).mpr ((Prog.wp_ret _ _ _).mpr ⟨hend, fun _ _ => trivial⟩)
    · exact (Prog.wp_ret _ _ _).mpr ⟨hfound, fun _ _ => trivial⟩

theorem earns_confirmationCheckerPass :
    Earns R l₀ (fun _ _ => True) (confirmationCheckerPass env p) := by
  refine Prog.learns_bind (earns_act rfl) fun health _ _ _ => ?_
  split
  · refine Prog.learns_bind (earns_of_work (clock_configNetwork p).work) fun network _ _ _ => ?_
    refine Prog.learns_bind (earns_select _ _) fun txs l₁ _ hshown => ?_
    refine Prog.learns_bind (earns_act rfl) fun has l₂ hl₂ _ => ?_
    split
    · refine Prog.learns_bind (earns_act rfl) fun up l₃ hl₃ _ => ?_
      split
      · refine Prog.learns_forEach txs fun tx htx l₄ hl₄ => ?_
        exact earns_checkConfirmation ((hshown tx htx).mono fun _ h => hl₄ (hl₃ (hl₂ h)))
      · exact Prog.learns_ret fun _ _ => trivial
    · exact Prog.learns_ret fun _ _ => trivial
  · exact Prog.learns_ret fun _ _ => trivial

theorem earns_startUp (rpc indexer : Bool) (config : Config) :
    Earns R l₀ (fun _ _ => True) (startUp env p rpc indexer config) :=
  earns_of_work (work_startUp env p rfl (fun _ _ _ _ => rfl) (fun _ _ _ => rfl)
    (fun _ _ _ => rfl) fun _ _ => rfl)

/-- A command line that broadcasts nothing. -/
theorem work_command_silent (network : String) {c : Command} (hc : c.broadcasts = false) :
    IsWork (fun a => a.emits = false) (c.prog env network) := by
  cases c with
  | broadcast id => cases hc
  | broadcastAll => cases hc
  | importTxs txs =>
    refine Prog.uses_forEach txs fun newTx _ => ?_
    refine Prog.uses_bind (work_importTransaction env newTx fun _ _ => rfl) fun tx => ?_
    split
    · exact Prog.uses_bind (work_scheduleTransaction env .cli fun _ _ _ => rfl)
        fun _ => Prog.uses_ret _
    · exact Prog.uses_ret _
  | schedule id minDelay maxDelay minFee maxFee =>
    exact Prog.uses_bind (work_scheduleTransaction env .cli fun _ _ _ => rfl)
      fun _ => Prog.uses_ret _
  | scheduleAll => exact work_scheduleAllPending env .cli fun _ _ _ _ => rfl
  | remove id => exact work_removeTransaction env .cli rfl
  | display => exact Prog.uses_ret _

theorem earns_command (hR : ∀ l tx, CommandShown l tx → R l tx) (network : String) {c : Command}
    (hc : c.broadcasts = true) : Earns R l₀ (fun _ _ => True) (c.prog env network) := by
  cases c with
  | broadcast id =>
    exact Prog.learns_bind (earns_broadcastSingle hR id) fun _ _ _ _ =>
      Prog.learns_ret fun _ _ => trivial
  | broadcastAll => exact earns_broadcastAllPending hR network
  | _ => cases hc

/-- The work that hands over or confirms. -/
def Activity.emits : Activity → Bool
  | broadcastLoop | broadcastNow _ | rebroadcastLoop | confirmationChecker | command .. => true
  | _ => false

/-- The other work. -/
theorem work_silent {a : Activity} (h : a.emits = false) :
    IsWork (fun act => act.emits = false) (a.prog env) := by
  cases a with
  | broadcastLoop | broadcastNow | rebroadcastLoop | confirmationChecker | command => cases h
  | blockHeightMonitor => exact work_blockHeightMonitorPass env .daemon fun _ _ => rfl
  | priceMonitor prices => exact work_checkPriceTriggers env .daemon fun _ _ => rfl
  | retention key => exact work_retentionPass env .daemon key fun _ _ => rfl
  | chainHealthPoll => exact (clock_refreshChainHealth .daemon).work
  | importTx newTx =>
    exact Prog.uses_bind (work_importTransaction env newTx fun _ _ => rfl)
      fun _ => Prog.uses_ret _
  | scheduleAt id time fee =>
    exact Prog.uses_bind (work_scheduleAt env .daemon fun _ _ _ _ => rfl) fun _ => Prog.uses_ret _
  | scheduleByPrice id target currency condition fee =>
    exact Prog.uses_bind (work_scheduleByPrice env .daemon fun _ _ _ => rfl)
      fun _ => Prog.uses_ret _
  | scheduleTransaction id minDelay maxDelay minFee maxFee fixedFee =>
    exact Prog.uses_bind (work_scheduleTransaction env .daemon fun _ _ _ => rfl)
      fun _ => Prog.uses_ret _
  | retry id =>
    exact Prog.uses_bind (work_retryFailedTransaction env .daemon fun _ => rfl)
      fun _ => Prog.uses_ret _
  | remove id => exact work_removeTransaction env .daemon rfl
  | acknowledge => exact work_act rfl
  | archiveFlush key => exact work_archiveFlush env .daemon key fun _ _ => rfl
  | saveConfig request => exact work_saveConfig .daemon request
  | preAck txHex => exact work_preAckStore env .daemon txHex fun _ _ => rfl
  | ingest txHex source =>
    exact work_ingestTask env .daemon (fun _ _ _ => rfl) (fun _ _ => rfl) (fun _ _ _ => rfl)
      fun _ _ => rfl
  | restart rpc indexer config =>
    exact work_startUp env .daemon rfl (fun _ _ _ _ => rfl) (fun _ _ _ => rfl)
      (fun _ _ _ => rfl) fun _ _ => rfl

/-- Every piece of work, on each of its paths. -/
theorem earned_activity (a : Activity) :
    (a.prog env).OnPaths ReadsById (Earned a.Releases) [] := by
  suffices hearns : Earns a.Releases [] (fun _ _ => True) (a.prog env) from hearns.onPaths
  by_cases hemits : a.emits = true
  · cases a with
    | broadcastLoop => exact earns_broadcastLoopPass
    | broadcastNow id =>
      exact Prog.learns_bind (earns_broadcastNow id) fun _ _ _ _ =>
        Prog.learns_ret fun _ _ => trivial
    | rebroadcastLoop => exact earns_rebroadcastLoopPass
    | confirmationChecker => exact earns_confirmationCheckerPass
    | command rpc indexer config c =>
      refine Prog.learns_bind (earns_startUp rpc indexer config) fun _ _ _ _ => ?_
      by_cases hc : c.broadcasts = true
      · exact earns_command (fun l tx h => ⟨hc, h⟩) config.network hc
      · exact earns_of_work (work_command_silent config.network (by simpa using hc))
    | _ => cases hemits
  · exact earns_of_work (work_silent (by simpa using hemits))

end

end BroadcastPool
