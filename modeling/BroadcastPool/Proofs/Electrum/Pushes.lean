import BroadcastPool.Lib.Machine
import BroadcastPool.Proofs.Electrum.Subscriptions
import BroadcastPool.Proofs.Electrum.Writes
import BroadcastPool.Sample

/-!
# `BroadcastPool.Proofs.Electrum.Pushes`: which changes reach a wallet

`PushSystem` is one connection and everything that is sent on the two channels it listens to. The
other tasks send what they like at any moment, and the turns of the connection come in any order
that `select!` allows. What a turn reads from the world is left open, so that nothing is assumed
about it. A turn looks at a channel only when it starts, so it is one step.

`Progress` is the invariant of a run: what the connection has taken from the channel, how much it
was told it has missed, and how often it has pushed the status of a scripthash that it was
subscribed to all along. So a connection that waits for the next message has taken all of them,
and pushed a status for each, exactly when it was never told that it missed some
(`delivered_iff`). That depends on the capacity of the channel alone: a burst reaches a waiting
connection under every schedule if and only if the channel can keep all of it
(`burst_delivered_iff`). A push is a text that the connection writes: if the socket does not take
it, that is only logged, and the connection goes on.
-/

set_option autoImplicit false

namespace BroadcastPool

open Effects
open Effects.Channel

/-! ### The system -/

/-- What a connection is started with, and its receivers of the two channels. -/
structure Listener where
  settings : SessionSettings
  env : Env
  libs : ElectrumLibs
  headers : HeaderLibs
  p : Proc
  sourceLabel : String
  scripthashRx : Receiver scripthashCapacity String
  chainTipRx : Receiver chainTipCapacity (Nat × String)

/-- The two channels and one connection. -/
structure PushSystem where
  scripthashes : List String := []
  tips : List (Nat × String) := []
  connection : Connection := {}
  /-- What the connection has taken from the first channel. -/
  heard : List String := []
  /-- How much of it the connection was told it has missed. -/
  missed : Nat := 0
  /-- The texts that were written for it, each with its scripthash. The socket need not have taken
  them. -/
  pushed : List (String × String) := []

inductive PushLabel
  -- the other tasks
  | announce (scripthash : String)
  | announceTip (tip : Nat × String)
  -- the turns of the connection
  | read (bytes : List UInt8)
  | tip (tip : Nat × String)
  | tipsMissed (count : Nat)
  | notification (scripthash : String)
  | missed (count : Nat)

/-- One step of the system. -/
inductive PushStep (x : Listener) : PushSystem → PushLabel → PushSystem → Prop
  | announce {s : PushSystem} (scripthash : String) :
      PushStep x s (.announce scripthash)
        { s with scripthashes := s.scripthashes ++ [scripthash] }
  | announceTip {s : PushSystem} (tip : Nat × String) :
      PushStep x s (.announceTip tip) { s with tips := s.tips ++ [tip] }
  | read {s : PushSystem} {bytes : List UInt8} {l : List (Seen Act Act.Res)} {c : Connection}
      (hbytes : bytes ≠ [])
      (hpath : (s.connection.readArm x.settings x.env x.libs x.headers x.p x.sourceLabel
        bytes).Path anyAnswer l (.ok c)) :
      PushStep x s (.read bytes) { s with connection := c }
  | tip {s : PushSystem} {tip : Nat × String} {l : List (Seen Act Act.Res)} {c c' : Connection}
      (hpoll : s.connection.pollChainTip x.chainTipRx s.tips = (.value tip, c))
      (hpath : (c.tipArm x.libs x.headers x.p x.sourceLabel tip).Path anyAnswer l (.ok c')) :
      PushStep x s (.tip tip) { s with connection := c' }
  | tipsMissed {s : PushSystem} {count : Nat} {c : Connection}
      (hpoll : s.connection.pollChainTip x.chainTipRx s.tips = (.lagged count, c)) :
      PushStep x s (.tipsMissed count) { s with connection := c }
  | notification {s : PushSystem} {scripthash : String} {l : List (Seen Act Act.Res)}
      {c c' : Connection}
      (hpoll : s.connection.pollScripthash x.scripthashRx s.scripthashes = (.value scripthash, c))
      (hpath : (c.notificationArm x.libs x.p scripthash).Path anyAnswer l (.ok c')) :
      PushStep x s (.notification scripthash)
        { s with
          connection := c'
          heard := s.heard ++ [scripthash]
          pushed := s.pushed ++ (writtenTexts l).map (scripthash, ·) }
  | missed {s : PushSystem} {count : Nat} {c : Connection}
      (hpoll : s.connection.pollScripthash x.scripthashRx s.scripthashes = (.lagged count, c)) :
      PushStep x s (.missed count) { s with connection := c, missed := s.missed + count }

/-- A connection is opened at any moment. -/
def pushMachine (x : Listener) : Machine PushSystem PushLabel where
  init s := ∃ scripthashes tips, s =
    { scripthashes, tips, connection := .opened scripthashes tips }
  step := PushStep x

namespace PushSystem

/-- The scripthashes the wallet has subscribed to. -/
def subscribed (s : PushSystem) : List String :=
  s.connection.session.scripthashes.subscribedScripthashes

/-- The turn waits for the next message about a scripthash, or does not wait for one. -/
def Resting (x : Listener) (s : PushSystem) : Prop :=
  (s.connection.pollScripthash x.scripthashRx s.scripthashes).1 = .empty

/-- The messages about scripthashes that the connection has not taken. -/
def waiting (s : PushSystem) : Nat := backlog s.scripthashes s.connection.scripthashRx

end PushSystem

/-! ### A poll of a channel -/

section
variable {c c' : Connection} {sent : List String} {rx : Receiver scripthashCapacity String}

theorem pollScripthash_value {scripthash : String}
    (h : c.pollScripthash rx sent = (.value scripthash, c')) :
    ∃ next, rx.receive sent c.scripthashRx = (.value scripthash, next) ∧
      c' = { c with scripthashRx := next, scripthashArm := true } := by
  unfold Connection.pollScripthash at h
  split at h
  · generalize hreceive : rx.receive sent c.scripthashRx = result at h
    obtain ⟨received, next⟩ := result
    cases h
    exact ⟨next, rfl, rfl⟩
  · cases h

theorem pollScripthash_lagged {count : Nat}
    (h : c.pollScripthash rx sent = (.lagged count, c')) :
    c.scripthashArm = true ∧
      ∃ next, rx.receive sent c.scripthashRx = (.lagged count, next) ∧
        c' = { c with scripthashRx := next, scripthashArm := false } := by
  unfold Connection.pollScripthash at h
  split at h
  · rename_i harm
    generalize hreceive : rx.receive sent c.scripthashRx = result at h
    obtain ⟨received, next⟩ := result
    cases h
    exact ⟨harm, next, rfl, rfl⟩
  · cases h

/-- An open arm that is too far behind is told so. -/
theorem pollScripthash_of_lags (hopen : c.scripthashArm = true)
    (h : scripthashCapacity < backlog sent c.scripthashRx) :
    c.pollScripthash rx sent =
      (.lagged (backlog sent c.scripthashRx - scripthashCapacity),
        { c with scripthashRx := sent.length - scripthashCapacity, scripthashArm := false }) := by
  unfold Connection.pollScripthash
  rw [if_pos hopen, rx.lags sent _ h]
  rfl

/-- An open arm with nothing to receive is at the end of the channel. -/
theorem pollScripthash_empty (hopen : c.scripthashArm = true)
    (h : (c.pollScripthash rx sent).1 = .empty) : sent.length ≤ c.scripthashRx := by
  unfold Connection.pollScripthash at h
  rw [if_pos hopen] at h
  exact rx.receive_empty_iff.1 h

theorem pollScripthash_closed (hclosed : c.scripthashArm = false) :
    c.pollScripthash rx sent = (.empty, c) := by
  unfold Connection.pollScripthash
  rw [hclosed]
  rfl

/-- The other channel does not matter to this one. -/
theorem pollChainTip_scripthash {rx : Receiver chainTipCapacity (Nat × String)}
    {tips : List (Nat × String)} {received : Receipt (Nat × String)}
    (h : c.pollChainTip rx tips = (received, c')) :
    c'.scripthashRx = c.scripthashRx ∧ c'.scripthashArm = c.scripthashArm ∧
      c'.session = c.session := by
  unfold Connection.pollChainTip at h
  split at h
  · cases h
    exact ⟨rfl, rfl, rfl⟩
  · cases h
    exact ⟨rfl, rfl, rfl⟩

end

/-! ### A turn -/

/-- What every turn does with what concerns the scripthashes. -/
structure Turned (c c' : Connection) : Prop where
  rx : c'.scripthashRx = c.scripthashRx
  arm : c'.scripthashArm = true
  subscribed : c.session.scripthashes.subscribedScripthashes ⊆
    c'.session.scripthashes.subscribedScripthashes

section
variable {x : Listener}

theorem turned_readArm {bytes : List UInt8} {c c' : Connection} {l : List (Seen Act Act.Res)}
    (h : (c.readArm x.settings x.env x.libs x.headers x.p x.sourceLabel bytes).Path anyAnswer l
      (.ok c')) : Turned c c' := by
  obtain ⟨⟨buf, session⟩, l₁, l₂, hserve, hret, -⟩ := Prog.path_bind_ok h
  cases (Prog.path_ret_iff.1 hret).2
  exact ⟨rfl, rfl, keepsSession_serveLines _ _ _ _ _ _ hserve⟩

theorem turned_tipArm {tip : Nat × String} {c c' : Connection} {l : List (Seen Act Act.Res)}
    (h : (c.tipArm x.libs x.headers x.p x.sourceLabel tip).Path anyAnswer l (.ok c')) :
    Turned c c' := by
  obtain ⟨u, l₁, l₂, -, hret, -⟩ := Prog.path_bind_ok h
  cases (Prog.path_ret_iff.1 hret).2
  exact ⟨rfl, rfl, List.Subset.refl _⟩

/-- A push writes one text, the status of the scripthash. -/
theorem writes_pushStatus (libs : ElectrumLibs) (p : Proc) (scripthash : String) :
    Writes anyAnswer (fun texts _ => ∃ status, texts =
      [libs.toText (statusNotification scripthash status) ++ "\n"])
      (pushStatus libs p scripthash) := by
  refine writes_seq silent_resolveLiveIndexerUrl fun indexerUrl => ?_
  refine writes_seq (silent_getPendingTxids scripthash) fun pending => ?_
  refine writes_seq (silent_fetchScripthashHistory indexerUrl scripthash) fun history => ?_
  refine writes_bind (writes_writeClient _) fun texts written htexts => writes_ret ?_
  exact ⟨_, by rw [htexts, List.append_nil]⟩

/-- Forgetting the last broadcast is silent and changes no subscription. -/
theorem writes_clearRecentBroadcast (p : Proc) (session : SessionState) :
    Writes anyAnswer (fun texts after => texts = [] ∧
      after.subscribedScripthashes = session.subscribedScripthashes)
      (clearRecentBroadcast p session) := by
  unfold clearRecentBroadcast
  split
  · exact writes_ret ⟨rfl, rfl⟩
  · refine writes_seq (silent_hasPendingTx _) fun held => ?_
    cases held <;> exact writes_ret ⟨rfl, rfl⟩

/-- A message about a scripthash writes one status if the wallet has subscribed to it, and nothing
otherwise. -/
theorem writes_handleScripthashNotification (libs : ElectrumLibs) (p : Proc)
    (session : SessionState) (scripthash : String) :
    Writes anyAnswer (fun texts after =>
      after.subscribedScripthashes = session.subscribedScripthashes ∧
      (scripthash ∉ session.subscribedScripthashes → texts = []) ∧
      (scripthash ∈ session.subscribedScripthashes → ∃ status, texts =
        [libs.toText (statusNotification scripthash status) ++ "\n"]))
      (handleScripthashNotification libs p session scripthash) := by
  refine writes_bind (writes_clearRecentBroadcast p session) fun texts after hafter => ?_
  obtain ⟨rfl, hsame⟩ := hafter
  split
  · rename_i hmem
    rw [hsame, List.contains_iff_mem] at hmem
    refine writes_bind (writes_pushStatus libs p scripthash) fun texts u htexts => ?_
    refine writes_ret ⟨hsame, fun hnot => absurd hmem hnot, fun _ => ?_⟩
    simpa using htexts
  · rename_i hmem
    rw [hsame, List.contains_iff_mem] at hmem
    exact writes_ret ⟨hsame, fun _ => rfl, fun h => absurd h hmem⟩

theorem turned_notificationArm {scripthash : String} {c c' : Connection}
    {l : List (Seen Act Act.Res)}
    (h : (c.notificationArm x.libs x.p scripthash).Path anyAnswer l (.ok c')) :
    Turned c c' ∧
      (scripthash ∉ c.session.scripthashes.subscribedScripthashes → writtenTexts l = []) ∧
      (scripthash ∈ c.session.scripthashes.subscribedScripthashes → ∃ status, writtenTexts l =
        [x.libs.toText (statusNotification scripthash status) ++ "\n"]) := by
  obtain ⟨after, l₁, l₂, hhandle, hret, rfl⟩ := Prog.path_bind_ok h
  obtain ⟨rfl, hc'⟩ := Prog.path_ret_iff.1 hret
  cases hc'
  obtain ⟨hsame, hother, hown⟩ := writes_handleScripthashNotification x.libs x.p _ scripthash
    l₁ after hhandle
  rw [List.append_nil]
  refine ⟨⟨rfl, rfl, ?_⟩, hother, hown⟩
  show _ ⊆ after.subscribedScripthashes
  rw [hsame]
  exact List.Subset.refl _

/-! ### What a run adds up to -/

/-- What has happened since an earlier state: the messages taken, the number of those missed, and
the texts pushed. -/
structure Progress (x : Listener) (s₀ s : PushSystem) (heard : List String) (missed : Nat)
    (pushed : List (String × String)) : Prop where
  messages : s.heard = s₀.heard ++ heard
  lost : s.missed = s₀.missed + missed
  texts : s.pushed = s₀.pushed ++ pushed
  accounted : Heard s.scripthashes s₀.connection.scripthashRx s.connection.scripthashRx heard
    missed
  subscribed : s₀.subscribed ⊆ s.subscribed
  once : ∀ scripthash ∈ s₀.subscribed,
    (pushed.map Prod.fst).count scripthash = heard.count scripthash
  statuses : ∀ push ∈ pushed, ∃ status,
    push.2 = x.libs.toText (statusNotification push.1 status) ++ "\n"

/-- Something has happened since an earlier state. -/
def Since (x : Listener) (s₀ s : PushSystem) : Prop :=
  ∃ heard missed pushed, Progress x s₀ s heard missed pushed

variable {s₀ s s' s₁ : PushSystem} {heard : List String} {missed : Nat}
variable {pushed : List (String × String)}

theorem Progress.init (h : s₀.connection.scripthashRx ≤ s₀.scripthashes.length) :
    Progress x s₀ s₀ [] 0 [] where
  messages := (List.append_nil _).symm
  lost := rfl
  texts := (List.append_nil _).symm
  accounted := .init h
  subscribed := List.Subset.refl _
  once := fun _ _ => rfl
  statuses := fun _ h => absurd h List.not_mem_nil

/-- A turn for something else changes nothing here. -/
theorem Progress.turned (h : Progress x s₀ s heard missed pushed) {c : Connection}
    (hrx : c.scripthashRx = s.connection.scripthashRx)
    (hsubscribed : s.subscribed ⊆ c.session.scripthashes.subscribedScripthashes) :
    Progress x s₀ { s with connection := c } heard missed pushed := by
  refine { h with accounted := ?_, subscribed := List.Subset.trans h.subscribed hsubscribed }
  show Heard s.scripthashes _ c.scripthashRx heard missed
  rw [hrx]
  exact h.accounted

theorem Progress.missedSome (h : Progress x s₀ s heard missed pushed) {count : Nat}
    {c : Connection}
    (hpoll : s.connection.pollScripthash x.scripthashRx s.scripthashes = (.lagged count, c)) :
    Progress x s₀ { s with connection := c, missed := s.missed + count } heard
      (missed + count) pushed := by
  obtain ⟨-, next, hreceive, rfl⟩ := pollScripthash_lagged hpoll
  refine { h with lost := ?_, accounted := h.accounted.lagged hreceive }
  show s.missed + count = _
  rw [h.lost, Nat.add_assoc]

theorem Progress.notification (h : Progress x s₀ s heard missed pushed) {scripthash : String}
    {c c' : Connection} {l : List (Seen Act Act.Res)}
    (hpoll : s.connection.pollScripthash x.scripthashRx s.scripthashes = (.value scripthash, c))
    (hpath : (c.notificationArm x.libs x.p scripthash).Path anyAnswer l (.ok c')) :
    Progress x s₀
      { s with
        connection := c'
        heard := s.heard ++ [scripthash]
        pushed := s.pushed ++ (writtenTexts l).map (scripthash, ·) }
      (heard ++ [scripthash]) missed (pushed ++ (writtenTexts l).map (scripthash, ·)) := by
  obtain ⟨next, hreceive, rfl⟩ := pollScripthash_value hpoll
  obtain ⟨hturned, hother, hown⟩ := turned_notificationArm hpath
  -- A scripthash of the start is still subscribed, so its message is pushed, once.
  have hwritten : scripthash ∈ s₀.subscribed → ∃ status, writtenTexts l =
      [x.libs.toText (statusNotification scripthash status) ++ "\n"] :=
    fun hmem => hown (h.subscribed hmem)
  constructor
  · show s.heard ++ _ = _
    rw [h.messages, List.append_assoc]
  · exact h.lost
  · show s.pushed ++ _ = _
    rw [h.texts, List.append_assoc]
  · show Heard s.scripthashes _ c'.scripthashRx _ _
    rw [hturned.rx]
    exact h.accounted.value hreceive
  · exact List.Subset.trans h.subscribed hturned.subscribed
  · intro sh hsh
    rw [List.map_append, List.count_append, List.count_append, h.once sh hsh]
    by_cases hsame : sh = scripthash
    · obtain ⟨status, htexts⟩ := hwritten (hsame ▸ hsh)
      rw [htexts, hsame]
      rfl
    · -- A message about another scripthash is no push for this one.
      have hnone : sh ∉ ((writtenTexts l).map (scripthash, ·)).map Prod.fst := by
        intro hmem
        obtain ⟨push, hpush, rfl⟩ := List.mem_map.1 hmem
        obtain ⟨text, -, rfl⟩ := List.mem_map.1 hpush
        exact hsame rfl
      have hother : sh ∉ [scripthash] := by simpa using hsame
      rw [List.count_eq_zero_of_not_mem hnone, List.count_eq_zero_of_not_mem hother]
  · intro push hpush
    rcases List.mem_append.1 hpush with hpush | hpush
    · exact h.statuses push hpush
    · obtain ⟨text, htext, rfl⟩ := List.mem_map.1 hpush
      by_cases hmem : scripthash ∈ s.subscribed
      · obtain ⟨status, htexts⟩ := hown hmem
        rw [htexts] at htext
        exact ⟨status, List.mem_singleton.1 htext⟩
      · rw [hother hmem] at htext
        cases htext

/-- Every step adds to what has happened. -/
theorem since_step (h : Since x s₀ s) {label : PushLabel} (hstep : PushStep x s label s') :
    Since x s₀ s' := by
  obtain ⟨heard, missed, pushed, h⟩ := h
  cases hstep with
  | announce scripthash =>
    exact ⟨heard, missed, pushed, { h with accounted := h.accounted.send _ }⟩
  | announceTip tip => exact ⟨heard, missed, pushed, { h with }⟩
  | read hbytes hpath =>
    have hturned := turned_readArm hpath
    exact ⟨heard, missed, pushed, h.turned hturned.rx hturned.subscribed⟩
  | tip hpoll hpath =>
    obtain ⟨hrx, -, hsession⟩ := pollChainTip_scripthash hpoll
    have hturned := turned_tipArm hpath
    refine ⟨heard, missed, pushed, h.turned (hturned.rx.trans hrx) ?_⟩
    have hsubscribed := hturned.subscribed
    rw [hsession] at hsubscribed
    exact hsubscribed
  | tipsMissed hpoll =>
    obtain ⟨hrx, -, hsession⟩ := pollChainTip_scripthash hpoll
    refine ⟨heard, missed, pushed, h.turned hrx ?_⟩
    rw [hsession]
    exact List.Subset.refl _
  | notification hpoll hpath => exact ⟨_, _, _, h.notification hpoll hpath⟩
  | missed hpoll => exact ⟨_, _, _, h.missedSome hpoll⟩

/-- A connection is never ahead of the channel. -/
theorem rx_le_of_reachable (h : (pushMachine x).Reachable s) :
    s.connection.scripthashRx ≤ s.scripthashes.length := by
  obtain ⟨s₀, hinit, hsince⟩ : ∃ s₀, (pushMachine x).init s₀ ∧ Since x s₀ s := by
    induction h with
    | init hs =>
      obtain ⟨scripthashes, tips, rfl⟩ := hs
      exact ⟨_, ⟨scripthashes, tips, rfl⟩, [], 0, [], .init le_rfl⟩
    | step _ hstep ih =>
      obtain ⟨s₀, hinit, hsince⟩ := ih
      exact ⟨s₀, hinit, since_step hsince hstep⟩
  obtain ⟨heard, missed, pushed, h⟩ := hsince
  exact h.accounted.bounded

theorem since_run (h : (pushMachine x).Reachable s₀) {labels : List PushLabel}
    (hrun : (pushMachine x).Run s₀ labels s₁) : Since x s₀ s₁ :=
  hrun.invariant (I := Since x s₀) (A := fun _ => True)
    (fun _ _ _ hstep _ hsince => since_step hsince hstep) (fun _ _ => trivial)
    ⟨[], 0, [], .init (rx_le_of_reachable h)⟩

/-! ### Exactly which runs deliver everything -/

/-- Since an earlier state, the connection has taken every message in order, and has tried to push a
status for each one about a scripthash that the wallet had subscribed to. -/
structure Delivered (libs : ElectrumLibs) (s₀ s : PushSystem) : Prop where
  heard : s.heard = s₀.heard ++ s.scripthashes.drop s₀.connection.scripthashRx
  pushed : ∃ pushed, s.pushed = s₀.pushed ++ pushed ∧
    (∀ scripthash ∈ s₀.subscribed, (pushed.map Prod.fst).count scripthash =
      (s.scripthashes.drop s₀.connection.scripthashRx).count scripthash) ∧
    ∀ push ∈ pushed, ∃ status,
      push.2 = libs.toText (statusNotification push.1 status) ++ "\n"

/-- The connection is told that it missed some exactly when it is. -/
theorem missed_run {labels : List PushLabel} (hrun : (pushMachine x).Run s labels s') :
    s.missed ≤ s'.missed ∧ (s'.missed = s.missed ↔ ∀ count, .missed count ∉ labels) := by
  induction hrun with
  | nil s => simp
  | @cons s s₁ s₂ label labels hstep hrun ih =>
    obtain ⟨hle, hiff⟩ := ih
    cases hstep with
    | missed hpoll =>
      obtain ⟨-, next, hreceive, rfl⟩ := pollScripthash_lagged hpoll
      have hpos := (x.scripthashRx.receive_lagged hreceive).2.1
      dsimp only at hle
      refine ⟨by omega, ⟨fun heq => by omega, fun hnone => ?_⟩⟩
      exact absurd (List.mem_cons_self ..) (hnone _)
    | announce | announceTip | read | tip | tipsMissed | notification =>
      refine ⟨hle, hiff.trans (forall_congr' fun count => ?_)⟩
      simp

/-- The arm stays open in a run in which nothing is missed. -/
theorem arm_run {labels : List PushLabel} (hrun : (pushMachine x).Run s labels s')
    (hnone : ∀ count, .missed count ∉ labels) (hopen : s.connection.scripthashArm = true) :
    s'.connection.scripthashArm = true := by
  refine hrun.invariant (I := fun s => s.connection.scripthashArm = true)
    (A := fun label => ∀ count, label ≠ .missed count) (fun s label s' hstep hlabel h => ?_)
    (fun label hlabel count hmissed => hnone count (hmissed ▸ hlabel)) hopen
  cases hstep with
  | announce | announceTip => exact h
  | read hbytes hpath => exact (turned_readArm hpath).arm
  | tip hpoll hpath => exact (turned_tipArm hpath).arm
  | tipsMissed hpoll => exact (pollChainTip_scripthash hpoll).2.1.trans h
  | notification hpoll hpath => exact (turned_notificationArm hpath).1.arm
  | missed hpoll => exact absurd rfl (hlabel _)

/-- Without a loss, a connection that waits again has taken every message, and pushed a status for
each. -/
theorem delivered_of_unmissed (h₀ : (pushMachine x).Reachable s₀)
    (hopen : s₀.connection.scripthashArm = true) {labels : List PushLabel}
    (hrun : (pushMachine x).Run s₀ labels s₁) (hrest : s₁.Resting x)
    (hlabels : ∀ count, .missed count ∉ labels) : Delivered x.libs s₀ s₁ := by
  obtain ⟨heard, missed, pushed, h⟩ := since_run h₀ hrun
  have hnone : missed = 0 := by
    have hmissed := (missed_run hrun).2.2 hlabels
    rw [h.lost] at hmissed
    omega
  have hend : s₁.scripthashes.length = s₁.connection.scripthashRx := by
    refine le_antisymm ?_ h.accounted.bounded
    exact pollScripthash_empty (arm_run hrun hlabels hopen) hrest
  have hheard : heard = s₁.scripthashes.drop s₀.connection.scripthashRx := by
    have hcomplete := h.accounted.complete_iff.2 hnone
    rw [← hend, List.take_length] at hcomplete
    exact hcomplete
  refine ⟨hheard ▸ h.messages, pushed, h.texts, ?_, h.statuses⟩
  rw [← hheard]
  exact h.once

/-- A connection that waits for a message again has delivered everything if and only if it was not
told meanwhile that it missed some. -/
theorem delivered_iff (h₀ : (pushMachine x).Reachable s₀)
    (hopen : s₀.connection.scripthashArm = true) {labels : List PushLabel}
    (hrun : (pushMachine x).Run s₀ labels s₁) (hrest : s₁.Resting x) :
    Delivered x.libs s₀ s₁ ↔ ∀ count, .missed count ∉ labels := by
  obtain ⟨heard, missed, pushed, h⟩ := since_run h₀ hrun
  obtain ⟨-, hmissed⟩ := missed_run hrun
  have hnone : missed = 0 ↔ ∀ count, .missed count ∉ labels := by
    rw [← hmissed, h.lost]
    omega
  constructor
  · intro hdelivered
    refine hnone.1 ?_
    -- What was taken is no longer than what was sent, and what was passed is no more.
    have hheard : heard = s₁.scripthashes.drop s₀.connection.scripthashRx :=
      List.append_cancel_left (h.messages.symm.trans hdelivered.heard)
    have hlength := congrArg List.length hheard
    have hcount := h.accounted.count
    have hbounded := h.accounted.bounded
    rw [List.length_drop] at hlength
    omega
  · exact delivered_of_unmissed h₀ hopen hrun hrest

/-! ### A burst -/

/-- Something is sent on the channel of the scripthashes. -/
def PushLabel.isAnnouncement : PushLabel → Bool
  | announce _ => true
  | _ => false

/-- The backlog grows with the messages sent and with nothing else. -/
theorem waiting_step {label : PushLabel} (hstep : PushStep x s label s') :
    s'.waiting ≤ s.waiting + [label].countP (·.isAnnouncement) := by
  unfold PushSystem.waiting backlog
  cases hstep with
  | announce scripthash =>
    rw [List.length_append]
    simp [PushLabel.isAnnouncement]
    omega
  | announceTip => simp
  | read hbytes hpath => simp [(turned_readArm hpath).rx]
  | tip hpoll hpath =>
    simp [(turned_tipArm hpath).rx, (pollChainTip_scripthash hpoll).1]
  | tipsMissed hpoll => simp [(pollChainTip_scripthash hpoll).1]
  | notification hpoll hpath =>
    obtain ⟨next, hreceive, rfl⟩ := pollScripthash_value hpoll
    obtain ⟨-, rfl, -⟩ := x.scripthashRx.receive_value hreceive
    rw [(turned_notificationArm hpath).1.rx]
    dsimp only
    omega
  | missed hpoll =>
    obtain ⟨-, next, hreceive, rfl⟩ := pollScripthash_lagged hpoll
    obtain ⟨-, -, rfl, -⟩ := x.scripthashRx.receive_lagged hreceive
    dsimp only
    omega

/-- While the channel can keep all that waits and is still sent, nothing is missed. -/
theorem not_missed_of_waiting {labels : List PushLabel}
    (hrun : (pushMachine x).Run s labels s')
    (hfits : s.waiting + labels.countP (·.isAnnouncement) ≤ scripthashCapacity) :
    ∀ count, .missed count ∉ labels := by
  induction hrun with
  | nil s => exact fun _ => List.not_mem_nil
  | @cons s s₁ s₂ label labels hstep hrun ih =>
    have hwaiting := waiting_step hstep
    rw [← List.singleton_append, List.countP_append] at hfits
    intro count hmem
    rcases List.mem_cons.1 hmem with rfl | hmem
    · cases hstep with
      | missed hpoll =>
        obtain ⟨-, next, hreceive, -⟩ := pollScripthash_lagged hpoll
        have hover := (x.scripthashRx.receive_lagged hreceive).1
        unfold PushSystem.waiting at hfits
        omega
    · exact ih (by omega) count hmem

/-- Some messages in a row, before any turn of the connection. -/
theorem run_announcements (k : Nat) (scripthash : String) (s : PushSystem) :
    (pushMachine x).Run s (List.replicate k (.announce scripthash))
      { s with scripthashes := s.scripthashes ++ List.replicate k scripthash } := by
  induction k generalizing s with
  | zero =>
    rw [List.replicate_zero, List.replicate_zero, List.append_nil]
    exact .nil s
  | succ k ih =>
    have hrest := ih { s with scripthashes := s.scripthashes ++ [scripthash] }
    rw [List.replicate_succ, List.replicate_succ]
    dsimp only at hrest
    rw [List.append_assoc, List.singleton_append] at hrest
    exact .cons (.announce scripthash) hrest

/-- Every burst of `k` messages reaches a connection that waits for one, whatever else the
connection is given to do meanwhile, if and only if the channel keeps `k` messages. -/
theorem burst_delivered_iff (x : Listener) (k : Nat) :
    (∀ s₀ s₁ labels, (pushMachine x).Reachable s₀ → s₀.connection.scripthashArm = true →
      s₀.Resting x → (pushMachine x).Run s₀ labels s₁ → labels.countP (·.isAnnouncement) = k →
      s₁.Resting x → Delivered x.libs s₀ s₁) ↔ k ≤ scripthashCapacity := by
  constructor
  · intro hdelivers
    by_contra hover
    -- The burst comes before the connection runs, so that its next receive has to skip a part.
    let burst := List.replicate k "ab"
    let sent : PushSystem := { scripthashes := burst }
    have hlength : burst.length = k := List.length_replicate
    have hlags : scripthashCapacity < backlog burst 0 := by
      unfold backlog
      omega
    have hpoll : sent.connection.pollScripthash x.scripthashRx burst = _ :=
      pollScripthash_of_lags rfl hlags
    have hinit : (pushMachine x).Reachable ({} : PushSystem) := .init ⟨[], [], rfl⟩
    have hburst : (pushMachine x).Run ({} : PushSystem)
        (List.replicate k (.announce "ab")) sent := run_announcements k "ab" {}
    let count := backlog burst 0 - scripthashCapacity
    have hmissed : PushStep x sent (.missed count) _ := .missed hpoll
    have hrun := hburst.append (.cons hmissed (.nil _))
    have hcount : List.countP (·.isAnnouncement)
        (List.replicate k (PushLabel.announce "ab") ++ [PushLabel.missed count]) = k := by
      rw [List.countP_append, List.countP_replicate]
      rfl
    have hrest : ∀ missed next, PushSystem.Resting x
        { sent with connection := { scripthashRx := next, scripthashArm := false }, missed } := by
      intro missed next
      unfold PushSystem.Resting
      rw [pollScripthash_closed rfl]
    have hwaits : PushSystem.Resting x {} :=
      congrArg Prod.fst (x.scripthashRx.waits [] 0 le_rfl)
    have hall := hdelivers _ _ _ hinit rfl hwaits hrun hcount (hrest _ _)
    have hnone : ([] : List String) = [] ++ burst := hall.heard
    have hempty := congrArg List.length hnone
    rw [List.nil_append, hlength] at hempty
    rw [← hempty] at hover
    exact hover (Nat.zero_le _)
  · intro hfits s₀ s₁ labels h₀ hopen hrest₀ hrun hcount hrest₁
    refine delivered_of_unmissed h₀ hopen hrun hrest₁ (not_missed_of_waiting hrun ?_)
    have hend := pollScripthash_empty hopen hrest₀
    unfold PushSystem.waiting backlog
    omega

end

/-! ### A payment, and too many messages -/

/-- Libraries that read a subscription to the scripthash "ab". -/
def subscribeLibs : ElectrumLibs :=
  sampleLibs [(sampleRequest "blockchain.scripthash.subscribe").toJson]

/-- A connection with these libraries. -/
def sampleListener : Listener where
  settings := ⟨fun _ => true, none⟩
  env := sampleEnv
  libs := subscribeLibs
  headers := sampleHeaders
  p := .daemon
  sourceLabel := "sparrow"
  scripthashRx := .standard _ _
  chainTipRx := .standard _ _

/-- The bytes of the subscription. -/
def subscribeBytes : List UInt8 :=
  (sampleText (sampleRequest "blockchain.scripthash.subscribe").toJson ++ "\n").toUTF8.data.toList

/-- What a turn of the connection does. -/
def Listener.turn (x : Listener) (w : World) (prog : M Connection) : Connection :=
  (prog.run (World.exec x.env) w).1.toOption.getD {}

/-- A turn that returns is a path. -/
theorem Listener.path_turn (x : Listener) (w : World) (prog : M Connection)
    (h : (prog.run (World.exec x.env) w).1.toOption.isSome = true) :
    prog.Path anyAnswer (prog.answers (World.exec x.env) w) (.ok (x.turn w prog)) := by
  have hpath := Prog.path_run (World.exec x.env) (anyAnswer_exec x.env) prog w
  unfold turn
  cases hrun : (prog.run (World.exec x.env) w).1 with
  | error e =>
    rw [hrun] at h
    cases h
  | ok c =>
    rw [hrun] at hpath
    exact hpath

/-- The turn in which the wallet subscribes. -/
def subscribeTurn : M Connection :=
  Connection.readArm sampleListener.settings sampleEnv subscribeLibs sampleHeaders .daemon "sparrow"
    subscribeBytes {}

/-- A wallet that has subscribed to "ab". -/
def subscribedSystem : PushSystem where
  connection := sampleListener.turn sampleWorld subscribeTurn

theorem reachable_subscribedSystem : (pushMachine sampleListener).Reachable subscribedSystem := by
  have hinit : (pushMachine sampleListener).Reachable {} := .init ⟨[], [], rfl⟩
  have hpath := sampleListener.path_turn sampleWorld subscribeTurn (by decide +kernel)
  have hread : PushStep sampleListener {} (.read subscribeBytes) subscribedSystem :=
    .read (by decide +kernel) hpath
  exact hinit.step hread

/-- The connection after it has taken so many messages. -/
def takenAt (next : Nat) : Connection := { subscribedSystem.connection with scripthashRx := next }

/-- The turn for a message. -/
def messageTurn (scripthash : String) (next : Nat) : M Connection :=
  (takenAt next).notificationArm subscribeLibs .daemon scripthash

/-- What a turn for the scripthash "ab" writes. -/
def pushedTexts (next : Nat) : List (String × String) :=
  (writtenTexts ((messageTurn "ab" next).answers (World.exec sampleEnv) sampleWorld)).map
    ("ab", ·)

/-- After messages about "ab", about a scripthash of another wallet, and about "ab" again. -/
def deliveredSystem : PushSystem where
  scripthashes := ["ab", "cd", "ab"]
  connection := sampleListener.turn sampleWorld (messageTurn "ab" 3)
  heard := ["ab", "cd", "ab"]
  pushed := pushedTexts 1 ++ pushedTexts 3

/-- The turn for a message, at the place of the message. -/
theorem step_messageTurn {s : PushSystem} {scripthash : String} (next : Nat)
    (hpoll : s.connection.pollScripthash (.standard _ _) s.scripthashes =
      (.value scripthash, takenAt next))
    (hreturns : ((messageTurn scripthash next).run (World.exec sampleEnv)
      sampleWorld).1.toOption.isSome = true) :
    PushStep sampleListener s (.notification scripthash)
      { s with
        connection := sampleListener.turn sampleWorld (messageTurn scripthash next)
        heard := s.heard ++ [scripthash]
        pushed := s.pushed ++ (writtenTexts ((messageTurn scripthash next).answers
          (World.exec sampleEnv) sampleWorld)).map (scripthash, ·) } :=
  .notification hpoll (sampleListener.path_turn sampleWorld _ hreturns)

/-- Two messages come in before the first one is taken, and one while the connection is at work. -/
theorem run_deliveredSystem :
    (pushMachine sampleListener).Run subscribedSystem
      [.announce "ab", .announce "cd", .notification "ab", .announce "ab", .notification "cd",
        .notification "ab"] deliveredSystem := by
  refine .cons (.announce "ab") (.cons (.announce "cd") (.cons (step_messageTurn 1 rfl rfl)
    (.cons (.announce "ab") (.cons (step_messageTurn 2 rfl rfl)
      (.cons (step_messageTurn 3 rfl rfl) ?_)))))
  exact .nil deliveredSystem

/-- After a burst of 257 messages, of which the connection was told that it missed one. -/
def overrunSystem : PushSystem where
  scripthashes := List.replicate 257 "ab"
  connection := { takenAt 1 with scripthashArm := false }
  missed := 1

theorem run_overrunSystem :
    (pushMachine sampleListener).Run subscribedSystem
      (List.replicate 257 (.announce "ab") ++ [.missed 1]) overrunSystem := by
  have hburst := run_announcements (x := sampleListener) 257 "ab" subscribedSystem
  have hbacklog : backlog (List.replicate 257 "ab") 0 = 257 := by
    unfold backlog
    rw [List.length_replicate]
  have hpoll : subscribedSystem.connection.pollScripthash sampleListener.scripthashRx
      (List.replicate 257 "ab") = (.lagged 1, overrunSystem.connection) := by
    have hrx : subscribedSystem.connection.scripthashRx = 0 := rfl
    rw [pollScripthash_of_lags rfl (by rw [hrx, hbacklog]; decide), hrx, hbacklog,
      List.length_replicate]
    rfl
  have hmissed : PushStep sampleListener
      { subscribedSystem with scripthashes := List.replicate 257 "ab" } (.missed 1)
      overrunSystem := .missed hpoll
  exact hburst.append (.cons hmissed (.nil _))

/-- All three messages are taken, and two of them pushed. Of the burst, nothing is. -/
theorem delivered_iff_payments :
    (deliveredSystem.pushed.length = 2 ∧
      (Delivered subscribeLibs subscribedSystem deliveredSystem ↔
        ∀ count, PushLabel.missed count ∉
          [PushLabel.announce "ab", .announce "cd", .notification "ab", .announce "ab",
            .notification "cd", .notification "ab"])) ∧
      (Delivered subscribeLibs subscribedSystem overrunSystem ↔
        ∀ count, PushLabel.missed count ∉
          List.replicate 257 (PushLabel.announce "ab") ++ [.missed 1]) :=
  ⟨⟨rfl, delivered_iff reachable_subscribedSystem rfl run_deliveredSystem rfl⟩,
    delivered_iff reachable_subscribedSystem rfl run_overrunSystem rfl⟩

end BroadcastPool
