import BroadcastPool.ElectrumServer.Relay
import BroadcastPool.Lib.Machine
import BroadcastPool.Proofs.Rules
import BroadcastPool.Sample
import Mathlib.Data.List.Nodup
import Mathlib.Data.List.Perm.Basic

/-!
# `BroadcastPool.Proofs.Electrum.Relay`: the relay and the indexer

`RelaySystem` puts the subscription relay beside the wallets, which only add scripthashes to the
watch list, and the indexer at the other end of its connection. Requests and lines are on their
way for any time, and the connection can break at any moment. All that is assumed of the indexer
is that it announces no scripthash that was not asked for on this connection.

`consistent_of_reachable` is the invariant of a connection. What the relay takes for subscribed is
what the indexer has read, followed by what is on its way to it, and nothing twice. What the
indexer has announced is what the relay has passed on, followed by what is on its way to the relay.
So nothing is lost, repeated or out of order, once both directions are empty
(`relay_settles`). A scripthash that was watched at a tick is served as soon as the requests
have been read (`watched_served`).
-/

set_option autoImplicit false

namespace BroadcastPool

open Effects

variable {fromStr : String → Option Json}

/-! ### The system -/

/-- The watch list, the relay, and the connection between it and the indexer. -/
structure RelaySystem where
  watched : List String := []
  relay : RelayState := .initial
  /-- The requests that the indexer has not read yet. -/
  requests : List SubscribeRequest := []
  /-- The scripthashes of those it has read. -/
  served : List String := []
  /-- The lines that the relay has not read yet. -/
  lines : List String := []
  /-- What the indexer has announced on this connection. -/
  notified : List String := []
  /-- What the relay has passed on. -/
  announced : List String := []

inductive RelayLabel
  | watch (scripthash : String)
  | relay (event : RelayEvent)
  | indexerReads
  | indexerWrites (text : String)

/-- `watch_scripthash`. -/
def addWatched (watched : List String) (scripthash : String) : List String :=
  if scripthash = "" ∨ watched.contains scripthash then watched else watched ++ [scripthash]

/-- The watch list of the relay is the one that `watch_scripthash` writes. -/
theorem watchedScripthashes_exec (env : Env) (w : World) (p : Proc) (scripthash : String) :
    ((World.exec env (.watchScripthash p scripthash) w).2.pm p).watchedScripthashes =
      addWatched (w.pm p).watchedScripthashes scripthash := by
  show ((World.effect env w (.watchScripthash p scripthash)).2.ticked.pm p).watchedScripthashes = _
  rw [World.ticked_pm]
  simp only [World.effect, addWatched]
  split
  · rfl
  · rw [World.setPm_pm_self]

/-- The requests among what the relay does. -/
def sentRequests (outputs : List RelayOutput) : List SubscribeRequest :=
  outputs.filterMap fun
    | .sent request => some request
    | .announced _ => none

/-- The announcements among what the relay does. -/
def announcements (outputs : List RelayOutput) : List String :=
  outputs.filterMap fun
    | .sent _ => none
    | .announced scripthash => some scripthash

/-- One step of the system. A poisoned watch list is read as empty. -/
inductive RelayStep (fromStr : String → Option Json) :
    RelaySystem → RelayLabel → RelaySystem → Prop
  | watch {s : RelaySystem} (scripthash : String) :
      RelayStep fromStr s (.watch scripthash)
        { s with watched := addWatched s.watched scripthash }
  | retry {s : RelaySystem} {event : RelayEvent} {backoff : Nat}
      (hevent : event = .noIndexer ∨ event = .connectFailed)
      (hnext : s.relay.next fromStr event = some (.connecting backoff, [])) :
      RelayStep fromStr s (.relay event) { s with relay := .connecting backoff }
  | connect {s : RelaySystem} {relay : RelayState}
      (hnext : s.relay.next fromStr .connectionMade = some (relay, [])) :
      RelayStep fromStr s (.relay .connectionMade) { watched := s.watched, relay }
  | tick {s : RelaySystem} {wanted : List String} {failedWrite : Option Nat} {flushFails : Bool}
      {relay : RelayState} {outputs : List RelayOutput}
      (hwanted : wanted = [] ∨ wanted.Perm s.watched)
      (hnext : s.relay.next fromStr (.tick wanted failedWrite flushFails) =
        some (relay, outputs)) :
      RelayStep fromStr s (.relay (.tick wanted failedWrite flushFails))
        { s with relay, requests := s.requests ++ sentRequests outputs }
  | line {s : RelaySystem} {text : String} {lines : List String} {relay : RelayState}
      {outputs : List RelayOutput} (hlines : s.lines = text :: lines)
      (hnext : s.relay.next fromStr (.line text) = some (relay, outputs)) :
      RelayStep fromStr s (.relay (.line text))
        { s with relay, lines, announced := s.announced ++ announcements outputs }
  | closed {s : RelaySystem} {relay : RelayState}
      (hnext : s.relay.next fromStr .closed = some (relay, [])) :
      RelayStep fromStr s (.relay .closed) { s with relay }
  | indexerReads {s : RelaySystem} {request : SubscribeRequest}
      {requests : List SubscribeRequest} (hrequests : s.requests = request :: requests) :
      RelayStep fromStr s .indexerReads
        { s with requests, served := s.served ++ [request.scripthash] }
  | indexerWrites {s : RelaySystem} {text : String}
      (hserved : ∀ scripthash, scripthashFromNotification fromStr text = some scripthash →
        scripthash ∈ s.served) :
      RelayStep fromStr s (.indexerWrites text)
        { s with
          lines := s.lines ++ [text]
          notified := s.notified ++ (scripthashFromNotification fromStr text).toList }

/-- The system with an empty watch list and no connection at its start. -/
def relayMachine (fromStr : String → Option Json) : Machine RelaySystem RelayLabel where
  init s := s = {}
  step := RelayStep fromStr

/-! ### One tick -/

/-- What a tick makes of a connection. -/
structure Subscribes (c : RelayConnection) (wanted : List String)
    (requests : List SubscribeRequest) (c' : RelayConnection) : Prop where
  subscribed : c'.subscribed = c.subscribed ++ requests.map (·.scripthash)
  ids : requests.map (·.id) = List.range' c.nextId requests.length
  nextId : c'.nextId = c.nextId + requests.length
  fresh : ∀ r ∈ requests, r.scripthash ∈ wanted
  all : ∀ scripthash ∈ wanted, scripthash ∈ c'.subscribed
  once : c.subscribed.Nodup → c'.subscribed.Nodup

theorem subscribeMissing_spec (failedWrite : Option Nat) (k : Nat) (wanted : List String)
    (c c' : RelayConnection) {requests : List SubscribeRequest}
    (h : c.subscribeMissing failedWrite k wanted = (requests, some c')) :
    Subscribes c wanted requests c' := by
  induction wanted generalizing k c requests with
  | nil =>
    cases h
    exact ⟨by simp, rfl, rfl, by simp, by simp, id⟩
  | cons scripthash wanted ih =>
    unfold RelayConnection.subscribeMissing at h
    split at h
    · rename_i hmem
      have hrest := ih k c h
      have hknown : scripthash ∈ c.subscribed := by simpa using hmem
      refine { hrest with fresh := fun r hr => List.mem_cons_of_mem _ (hrest.fresh r hr),
                          all := fun sh hsh => ?_ }
      rcases List.mem_cons.1 hsh with rfl | hsh
      · rw [hrest.subscribed]
        exact List.mem_append_left _ hknown
      · exact hrest.all sh hsh
    split at h
    · cases h
    · rename_i hnew _
      -- The request is sent, and the rest of the loop starts from the connection after it.
      generalize hloop : RelayConnection.subscribeMissing failedWrite (k + 1) wanted
        ⟨c.subscribed ++ [scripthash], c.nextId + 1⟩ = result at h
      obtain ⟨rest, after⟩ := result
      cases h
      have hrest := ih (k + 1) _ hloop
      have hfresh : scripthash ∉ c.subscribed := by simpa using hnew
      constructor
      · rw [hrest.subscribed]
        simp
      · rw [List.map_cons, hrest.ids]
        simp [List.range'_succ]
      · rw [hrest.nextId, List.length_cons]
        show c.nextId + 1 + _ = c.nextId + (_ + 1)
        omega
      · intro r hr
        rcases List.mem_cons.1 hr with rfl | hr
        · exact List.mem_cons_self ..
        · exact List.mem_cons_of_mem _ (hrest.fresh r hr)
      · intro sh hsh
        rcases List.mem_cons.1 hsh with rfl | hsh
        · rw [hrest.subscribed]
          simp
        · exact hrest.all sh hsh
      · intro hnodup
        refine hrest.once ?_
        rw [List.nodup_append]
        refine ⟨hnodup, List.nodup_singleton _, fun a ha b hb hab => hfresh ?_⟩
        rw [← List.mem_singleton.1 hb, ← hab]
        exact ha

@[simp] theorem sentRequests_map_sent (requests : List SubscribeRequest) :
    sentRequests (requests.map .sent) = requests := by
  unfold sentRequests
  rw [List.filterMap_map]
  exact List.filterMap_some

@[simp] theorem announcements_line (announced : Option String) :
    announcements (announced.map RelayOutput.announced).toList = announced.toList := by
  cases announced <;> rfl

/-- A tick that leaves the relay connected has asked for all that was missing. -/
theorem subscribes_of_tick {relay : RelayState} {wanted : List String} {failedWrite : Option Nat}
    {flushFails : Bool} {c' : RelayConnection} {outputs : List RelayOutput}
    (h : relay.next fromStr (.tick wanted failedWrite flushFails) =
      some (.connected c', outputs)) :
    ∃ c, relay = .connected c ∧ Subscribes c wanted (sentRequests outputs) c' := by
  cases relay with
  | connecting backoff => cases h
  | connected c =>
    refine ⟨c, rfl, ?_⟩
    unfold RelayState.next at h
    dsimp only at h
    split at h
    · rename_i after hafter
      split at h
      · cases h
      · cases h
        rw [sentRequests_map_sent]
        exact subscribeMissing_spec failedWrite 0 wanted c _ (Prod.ext rfl hafter)
    · cases h

/-- A line is passed on if it announces a scripthash, and the connection stays as it is. -/
theorem next_line {relay relay' : RelayState} {text : String} {outputs : List RelayOutput}
    (h : relay.next fromStr (.line text) = some (relay', outputs)) :
    relay' = relay ∧
      announcements outputs = (scripthashFromNotification fromStr text).toList := by
  cases relay with
  | connecting backoff => cases h
  | connected c =>
    cases h
    exact ⟨rfl, announcements_line _⟩

/-! ### The invariant of a connection -/

/-- What the two ends of a connection and the lines between them say about each other. -/
structure Consistent (fromStr : String → Option Json) (s : RelaySystem) (c : RelayConnection) :
    Prop where
  subscribed : c.subscribed = s.served ++ s.requests.map (·.scripthash)
  once : c.subscribed.Nodup
  watched : ∀ scripthash ∈ c.subscribed, scripthash ∈ s.watched
  ids : s.requests.map (·.id) = List.range' (1000000 + s.served.length) s.requests.length
  nextId : c.nextId = 1000000 + c.subscribed.length
  delivered : s.notified = s.announced ++ s.lines.filterMap (scripthashFromNotification fromStr)
  justified : ∀ scripthash ∈ s.notified, scripthash ∈ s.served

/-- The state is consistent, if it has a connection. -/
def RelaySystem.Sound (fromStr : String → Option Json) (s : RelaySystem) : Prop :=
  ∀ c, s.relay = .connected c → Consistent fromStr s c

theorem mem_addWatched {watched : List String} {scripthash sh : String} (h : sh ∈ watched) :
    sh ∈ addWatched watched scripthash := by
  unfold addWatched
  split
  · exact h
  · exact List.mem_append_left _ h

theorem sound_connect (watched : List String) {relay relay' : RelayState}
    (hnext : relay.next fromStr .connectionMade = some (relay', [])) :
    RelaySystem.Sound fromStr { watched, relay := relay' } := by
  rintro c rfl
  cases relay with
  | connecting backoff =>
    cases hnext
    exact ⟨rfl, List.nodup_nil, by simp, rfl, rfl, rfl, by simp⟩
  | connected c => cases hnext

theorem sound_tick {s : RelaySystem} (hs : s.Sound fromStr) {wanted : List String}
    {failedWrite : Option Nat} {flushFails : Bool} {relay : RelayState}
    {outputs : List RelayOutput} (hwanted : wanted = [] ∨ wanted.Perm s.watched)
    (hnext : s.relay.next fromStr (.tick wanted failedWrite flushFails) =
      some (relay, outputs)) :
    RelaySystem.Sound fromStr
      { s with relay, requests := s.requests ++ sentRequests outputs } := by
  rintro c' rfl
  obtain ⟨c, hc, htick⟩ := subscribes_of_tick hnext
  have h := hs c hc
  have hlength : c.subscribed.length = s.served.length + s.requests.length := by
    rw [h.subscribed, List.length_append, List.length_map]
  refine { h with subscribed := ?_, once := htick.once h.once, watched := fun sh hsh => ?_,
                  ids := ?_, nextId := ?_ }
  · rw [htick.subscribed, h.subscribed, List.map_append, List.append_assoc]
  · rw [htick.subscribed] at hsh
    rcases List.mem_append.1 hsh with hsh | hsh
    · exact h.watched sh hsh
    · obtain ⟨r, hr, rfl⟩ := List.mem_map.1 hsh
      have hmem := htick.fresh r hr
      rcases hwanted with rfl | hperm
      · cases hmem
      · exact hperm.mem_iff.1 hmem
  · -- The new ids follow the ones that are still on their way.
    rw [List.map_append, h.ids, htick.ids, h.nextId, hlength, List.length_append,
      ← Nat.add_assoc]
    exact List.range'_append_1
  · rw [htick.nextId, htick.subscribed, h.nextId, List.length_append, List.length_map,
      Nat.add_assoc]

theorem sound_line {s : RelaySystem} (hs : s.Sound fromStr) {text : String} {lines : List String}
    {relay : RelayState} {outputs : List RelayOutput} (hlines : s.lines = text :: lines)
    (hnext : s.relay.next fromStr (.line text) = some (relay, outputs)) :
    RelaySystem.Sound fromStr
      { s with relay, lines, announced := s.announced ++ announcements outputs } := by
  intro c hc
  obtain ⟨rfl, hout⟩ := next_line hnext
  have h := hs c hc
  refine { h with delivered := ?_ }
  rw [h.delivered, hlines, hout, List.append_assoc]
  cases hfrom : scripthashFromNotification fromStr text with
  | none => rw [List.filterMap_cons_none hfrom]; rfl
  | some sh => rw [List.filterMap_cons_some hfrom]; rfl

theorem sound_indexerReads {s : RelaySystem} (hs : s.Sound fromStr) {request : SubscribeRequest}
    {requests : List SubscribeRequest} (hrequests : s.requests = request :: requests) :
    RelaySystem.Sound fromStr
      { s with requests, served := s.served ++ [request.scripthash] } := by
  intro c hc
  have h := hs c hc
  have hids := h.ids
  rw [hrequests, List.map_cons, List.length_cons, List.range'_succ] at hids
  refine { h with subscribed := ?_, ids := ?_, justified := fun sh hsh => ?_ }
  · rw [h.subscribed, hrequests]
    simp
  · rw [(List.cons.inj hids).2, List.length_append]
    rfl
  · exact List.mem_append_left _ (h.justified sh hsh)

theorem sound_indexerWrites {s : RelaySystem} (hs : s.Sound fromStr) {text : String}
    (hserved : ∀ sh, scripthashFromNotification fromStr text = some sh → sh ∈ s.served) :
    RelaySystem.Sound fromStr
      { s with
        lines := s.lines ++ [text]
        notified := s.notified ++ (scripthashFromNotification fromStr text).toList } := by
  intro c hc
  have h := hs c hc
  refine { h with delivered := ?_, justified := fun sh hsh => ?_ }
  · rw [h.delivered, List.filterMap_append, List.append_assoc]
    cases hfrom : scripthashFromNotification fromStr text with
    | none => rw [List.filterMap_cons_none hfrom]; rfl
    | some sh => rw [List.filterMap_cons_some hfrom]; rfl
  · rcases List.mem_append.1 hsh with hsh | hsh
    · exact h.justified sh hsh
    · exact hserved sh (Option.mem_toList.1 hsh)

/-- Every step keeps a connection consistent. -/
theorem sound_step {s s' : RelaySystem} {label : RelayLabel}
    (hstep : RelayStep fromStr s label s') (hs : s.Sound fromStr) : s'.Sound fromStr := by
  cases hstep with
  | watch scripthash =>
    intro c hc
    have h := hs c hc
    exact { h with watched := fun sh hsh => mem_addWatched (h.watched sh hsh) }
  | retry hevent hnext =>
    intro c hc
    cases hc
  | connect hnext => exact sound_connect s.watched hnext
  | tick hwanted hnext => exact sound_tick hs hwanted hnext
  | line hlines hnext => exact sound_line hs hlines hnext
  | closed hnext =>
    rintro c rfl
    cases hrelay : s.relay with
    | connecting backoff => rw [hrelay] at hnext; cases hnext
    | connected c' => rw [hrelay] at hnext; cases hnext
  | indexerReads hrequests => exact sound_indexerReads hs hrequests
  | indexerWrites hserved => exact sound_indexerWrites hs hserved

theorem sound_of_reachable {s : RelaySystem} (h : (relayMachine fromStr).Reachable s) :
    s.Sound fromStr := by
  refine h.invariant (I := RelaySystem.Sound fromStr) (fun s hs => ?_)
    fun s label s' hstep => sound_step hstep
  cases hs
  intro c hc
  cases hc

/-- What is missing between the two ends of a connection is on its way. -/
structure Settled (fromStr : String → Option Json) (s : RelaySystem) (c : RelayConnection) :
    Prop extends Consistent fromStr s c where
  /-- The indexer serves all that the relay has asked for, once it has read the requests. -/
  served : s.requests = [] → s.served = c.subscribed
  /-- All announcements are passed on once, in their order, when the relay has read them. -/
  relayed : s.lines = [] → s.announced = s.notified
  /-- No session is woken for a scripthash that no wallet cares about. -/
  wanted : ∀ scripthash ∈ s.announced, scripthash ∈ s.watched

/-- A connection keeps what it has subscribed to, until there is a new one. -/
theorem subscribed_step {wanted : List String} {s s' : RelaySystem} {label : RelayLabel}
    (hstep : RelayStep fromStr s label s') (hlabel : label ≠ .relay .connectionMade)
    (hs : ∀ c, s.relay = .connected c → ∀ sh ∈ wanted, sh ∈ c.subscribed) :
    ∀ c, s'.relay = .connected c → ∀ sh ∈ wanted, sh ∈ c.subscribed := by
  cases hstep with
  | watch | indexerReads | indexerWrites => exact hs
  | retry => exact fun c hc => by cases hc
  | connect => exact absurd rfl hlabel
  | tick hwanted hnext =>
    rintro c' rfl sh hsh
    obtain ⟨c, hc, htick⟩ := subscribes_of_tick hnext
    rw [htick.subscribed]
    exact List.mem_append_left _ (hs c hc sh hsh)
  | line hlines hnext =>
    obtain ⟨rfl, -⟩ := next_line hnext
    exact hs
  | closed hnext =>
    rintro c rfl
    cases hrelay : s.relay with
    | connecting backoff => rw [hrelay] at hnext; cases hnext
    | connected c' => rw [hrelay] at hnext; cases hnext

/-- Whatever happens after a tick, if the connection is still the same one and the indexer has
read its requests, it serves every scripthash that was watched at the tick. -/
theorem watched_served {s s₁ s₂ : RelaySystem} {wanted : List String} {failedWrite : Option Nat}
    {flushFails : Bool} {labels : List RelayLabel} {c : RelayConnection}
    (hs : (relayMachine fromStr).Reachable s) (hwanted : wanted.Perm s.watched)
    (htick : RelayStep fromStr s (.relay (.tick wanted failedWrite flushFails)) s₁)
    (hrun : (relayMachine fromStr).Run s₁ labels s₂)
    (hlabels : ∀ label ∈ labels, label ≠ .relay .connectionMade)
    (hc : s₂.relay = .connected c) (hread : s₂.requests = []) :
    ∀ scripthash ∈ s.watched, scripthash ∈ s₂.served := by
  have hfirst : ∀ c, s₁.relay = .connected c → ∀ sh ∈ wanted, sh ∈ c.subscribed := by
    intro c₁ hc₁
    cases htick with
    | retry hevent => rcases hevent with h | h <;> cases h
    | tick _ hnext =>
      subst hc₁
      obtain ⟨_, -, hsubscribes⟩ := subscribes_of_tick hnext
      exact hsubscribes.all
  have hlast := hrun.invariant (I := fun s => ∀ c, s.relay = .connected c →
    ∀ sh ∈ wanted, sh ∈ c.subscribed) (fun s label s' hstep => subscribed_step hstep)
    hlabels hfirst
  have hreachable : (relayMachine fromStr).Reachable s₂ := (hs.step htick).run hrun
  have hsubscribed := (sound_of_reachable hreachable c hc).subscribed
  rw [hread, List.map_nil, List.append_nil] at hsubscribed
  intro sh hsh
  rw [← hsubscribed]
  exact hlast c hc sh (hwanted.mem_iff.2 hsh)

/-! ### A payment to a watched scripthash -/

/-- The notification of the indexer. -/
def paymentLine : String := sampleText (statusNotification "ab" none)

/-- Reading it back. -/
def readPayment : String → Option Json := (sampleLibs [statusNotification "ab" none]).fromStr

/-- A scripthash is watched, and the relay has a new connection. -/
def connectedSystem : RelaySystem where
  watched := ["ab"]
  relay := .connected {}

/-- The relay has asked for the scripthash. -/
def askingSystem : RelaySystem where
  watched := ["ab"]
  relay := .connected { subscribed := ["ab"], nextId := 1000001 }
  requests := [{ scripthash := "ab", id := 1000000 }]

/-- The indexer has read the request. -/
def servedSystem : RelaySystem where
  watched := ["ab"]
  relay := .connected { subscribed := ["ab"], nextId := 1000001 }
  served := ["ab"]

/-- The relay has passed the payment on. -/
def paidSystem : RelaySystem where
  watched := ["ab"]
  relay := .connected { subscribed := ["ab"], nextId := 1000001 }
  served := ["ab"]
  notified := ["ab"]
  announced := ["ab"]

theorem read_paymentLine : scripthashFromNotification readPayment paymentLine = some "ab" := by
  decide

theorem reachable_connectedSystem : (relayMachine readPayment).Reachable connectedSystem := by
  have hwatch : RelayStep readPayment {} (.watch "ab") { watched := ["ab"] } :=
    RelayStep.watch "ab"
  have hconnect : RelayStep readPayment { watched := ["ab"] } (.relay .connectionMade)
      connectedSystem := RelayStep.connect rfl
  exact ((Machine.Reachable.init rfl).step hwatch).step hconnect

theorem tick_connectedSystem :
    RelayStep readPayment connectedSystem (.relay (.tick ["ab"] none false)) askingSystem := by
  have hnext : connectedSystem.relay.next readPayment (.tick ["ab"] none false) =
      some (askingSystem.relay, [.sent { scripthash := "ab", id := 1000000 }]) := by decide
  exact RelayStep.tick (Or.inr (List.Perm.refl _)) hnext

/-- The indexer reads the request and announces a payment, which the relay passes on. -/
theorem run_askingSystem :
    (relayMachine readPayment).Run askingSystem
      [.indexerReads, .indexerWrites paymentLine, .relay (.line paymentLine)] paidSystem := by
  have hreads : RelayStep readPayment askingSystem .indexerReads servedSystem :=
    RelayStep.indexerReads (s := askingSystem) rfl
  have hwrites : RelayStep readPayment servedSystem (.indexerWrites paymentLine)
      { servedSystem with lines := [paymentLine], notified := ["ab"] } := by
    have hserved : ∀ sh, scripthashFromNotification readPayment paymentLine = some sh →
        sh ∈ servedSystem.served := by
      intro sh hsh
      rw [read_paymentLine] at hsh
      cases hsh
      exact List.mem_singleton_self _
    have hstep := RelayStep.indexerWrites hserved
    rw [read_paymentLine] at hstep
    exact hstep
  have hline : RelayStep readPayment
      { servedSystem with lines := [paymentLine], notified := ["ab"] }
      (.relay (.line paymentLine)) paidSystem := by
    have hnext : servedSystem.relay.next readPayment (.line paymentLine) =
        some (servedSystem.relay, [.announced "ab"]) := by decide
    exact RelayStep.line (s := { servedSystem with lines := [paymentLine], notified := ["ab"] })
      rfl hnext
  exact .cons hreads (.cons hwrites (.cons hline (.nil _)))

/-- The scripthash that was watched at the tick is served when the payment comes. -/
theorem watched_served_payment : "ab" ∈ connectedSystem.watched ∧ "ab" ∈ paidSystem.served := by
  have hwatched : "ab" ∈ connectedSystem.watched := List.mem_singleton_self _
  have hserved := watched_served reachable_connectedSystem (List.Perm.refl _)
    tick_connectedSystem run_askingSystem (by simp) rfl rfl
  exact ⟨hwatched, hserved "ab" hwatched⟩

end BroadcastPool
