import BroadcastPool.Lib.Yields
import BroadcastPool.Notify.Nostr

/-!
# `BroadcastPool.Proofs.Notify.Attempts`: what is sent for a notification

`Tried` says what the attempts to send one notification do, on every path: at most three messages,
each to the configured recipient, with the text of the notification and right after all relays were
added (`ProperMsg`). No message follows one that a relay has taken, and the pauses between the
attempts are the configured ones. A client without a proxy is built only if no relay URL ends in
`.onion` (`ProperClient`). So a URL that goes on after the name of the hidden service, with a port
for example, does not ask for the proxy.

A notification whose txid cannot be cut has no text. The attempt that comes to its message panics,
and with it the dispatcher (`Crashed`). `dispatch_path` shows that there is no other way to fail.
-/

set_option autoImplicit false

namespace BroadcastPool

open Effects
open BroadcastPool.Api (NotificationsConfig NostrNotificationConfig)

abbrev NotifySeen : Type := List (Seen NotifyAct NotifyAct.Res)

/-! ### One notification -/

/-- A message that was sent, and what became of it. -/
structure SentMsg where
  client : NostrClient
  recipient : String
  text : String
  outcome : SendOutcome

/-- A relay has taken the message. -/
def SentMsg.accepted (m : SentMsg) : Bool :=
  match m.outcome with
  | .published success _ => success ≠ []
  | _ => false

def sentIn : Seen NotifyAct NotifyAct.Res → Option SentMsg
  | ⟨.sendPrivateMsg client _ recipient text, outcome⟩ => some ⟨client, recipient, text, outcome⟩
  | _ => none

/-- The messages that were sent. -/
def sentMsgs (l : NotifySeen) : List SentMsg := l.filterMap sentIn

def pauseIn : Seen NotifyAct NotifyAct.Res → Option Nat
  | ⟨.sleep seconds, _⟩ => some seconds
  | _ => none

/-- The pauses that were made. -/
def pauses (l : NotifySeen) : List Nat := l.filterMap pauseIn

/-- The client of a call. -/
def NotifyAct.client? : NotifyAct → Option NostrClient
  | addRelay client _ | tryConnect client _ | sendPrivateMsg client .. | disconnect client =>
      some client
  | _ => none

/-- The client has the configured identity, and a proxy if a relay URL ends in `.onion`. -/
structure ProperClient (libs : NotifyLibs) (cfg : NostrNotificationConfig) (client : NostrClient) :
    Prop where
  keys : libs.parseKeys (Text.trim cfg.appNsec) = .ok client.keys
  proxy : hasOnionRelay cfg = true → client.proxy.isSome = true

/-- A relay was added to the client. -/
def addedTo (client : NostrClient) (relay : String) : Seen NotifyAct NotifyAct.Res :=
  ⟨.addRelay client relay, .ok ()⟩

/-- The message that is sent after the calls `before` is the one that was asked for. Right before
it, each of the relays was added to its client, one after the other, and the client connected. -/
structure ProperMsg (libs : NotifyLibs) (cfg : NostrNotificationConfig) (text : Option String)
    (before : NotifySeen) (m : SentMsg) : Prop where
  text : text = some m.text
  recipient : libs.parseRecipient (Text.trim cfg.recipientNpub) = .ok m.recipient
  relays : ∃ earlier timeout failed, before = earlier ++
    (relaysToTry cfg).map (addedTo m.client) ++ [⟨.tryConnect m.client timeout, failed⟩]

/-- What is never wrong in the calls of an attempt. -/
structure ProperCalls (libs : NotifyLibs) (cfg : NostrNotificationConfig) (text : Option String)
    (l : NotifySeen) : Prop where
  clients : ∀ s ∈ l, ∀ client ∈ s.1.client?, ProperClient libs cfg client
  msgs : ∀ before s after, l = before ++ s :: after → ∀ m ∈ sentIn s,
    ProperMsg libs cfg text before m

/-- What one attempt does. -/
structure Attempted (libs : NotifyLibs) (cfg : NostrNotificationConfig) (text : Option String)
    (l : NotifySeen) (accepted : Bool) : Prop extends ProperCalls libs cfg text l where
  sent : sentMsgs l = [] ∧ accepted = false ∨ ∃ m, sentMsgs l = [m] ∧ m.accepted = accepted
  unpaused : pauses l = []

/-- What the attempts from the one with the number `n` do. -/
structure Tried (libs : NotifyLibs) (cfg : NostrNotificationConfig) (text : Option String)
    (n left : Nat) (l : NotifySeen) (accepted : Bool) : Prop
    extends ProperCalls libs cfg text l where
  bounded : (sentMsgs l).length ≤ left
  -- Only the last message can be one that a relay has taken.
  ended : if accepted then ∃ before m, sentMsgs l = before ++ [m] ∧ m.accepted = true ∧
      ∀ m' ∈ before, m'.accepted = false
    else (∀ m ∈ sentMsgs l, m.accepted = false) ∧
      pauses l = (retryBackoff.drop n).take left

section
variable {libs : NotifyLibs} {cfg : NostrNotificationConfig} {text : Option String}
  {answers : (a : NotifyAct) → a.Res → Prop} {l : NotifySeen}

/-- What came earlier does not matter for a message. -/
theorem ProperMsg.prepend {before : NotifySeen} {m : SentMsg}
    (h : ProperMsg libs cfg text before m) (first : NotifySeen) :
    ProperMsg libs cfg text (first ++ before) m := by
  obtain ⟨earlier, timeout, failed, rfl⟩ := h.relays
  exact { h with relays := ⟨first ++ earlier, timeout, failed, by simp only [List.append_assoc]⟩ }

theorem properCalls_nil : ProperCalls libs cfg text [] where
  clients _ hs := absurd hs List.not_mem_nil
  msgs before s after h := by simp at h

/-- One part of the calls after another. -/
theorem ProperCalls.append {l' : NotifySeen} (h : ProperCalls libs cfg text l)
    (h' : ProperCalls libs cfg text l') : ProperCalls libs cfg text (l ++ l') := by
  constructor
  · intro s hs
    rcases List.mem_append.1 hs with hs | hs
    · exact h.clients s hs
    · exact h'.clients s hs
  · intro before s after hsplit m hm
    rcases List.append_eq_append_iff.1 hsplit with ⟨first, rfl, hrest⟩ | ⟨last, hl, hrest⟩
    · exact (h'.msgs first s after hrest m hm).prepend l
    · cases last with
      | nil =>
        rw [List.append_nil] at hl
        rw [← hl]
        have hproper := (h'.msgs [] s after hrest.symm m hm).prepend l
        rwa [List.append_nil] at hproper
      | cons s' last =>
        obtain ⟨rfl, -⟩ := List.cons.inj hrest
        exact h.msgs before s last hl m hm

theorem sentIn_of_sentMsgs_nil (h : sentMsgs l = []) {s : Seen NotifyAct NotifyAct.Res}
    (hs : s ∈ l) : sentIn s = none := by
  by_contra hsome
  obtain ⟨m, hm⟩ := Option.ne_none_iff_exists'.1 hsome
  have hmem : m ∈ sentMsgs l := List.mem_filterMap.2 ⟨s, hs, hm⟩
  rw [h] at hmem
  cases hmem

/-- Calls of which none is a message. -/
theorem properCalls_of_unsent
    (hclients : ∀ s ∈ l, ∀ client ∈ s.1.client?, ProperClient libs cfg client)
    (hsent : sentMsgs l = []) : ProperCalls libs cfg text l := by
  refine ⟨hclients, fun before s after hl m hm => ?_⟩
  have hs : s ∈ l := hl ▸ List.mem_append_right _ (List.mem_cons_self ..)
  rw [sentIn_of_sentMsgs_nil hsent hs] at hm
  cases hm

theorem sentMsgs_append (l l' : NotifySeen) : sentMsgs (l ++ l') = sentMsgs l ++ sentMsgs l' :=
  List.filterMap_append

theorem pauses_append (l l' : NotifySeen) : pauses (l ++ l') = pauses l ++ pauses l' :=
  List.filterMap_append

/-- An attempt that ends before it has a client. -/
theorem attempted_nil : Attempted libs cfg text [] false where
  toProperCalls := properCalls_nil
  sent := Or.inl ⟨rfl, rfl⟩
  unpaused := rfl

/-- The client that `build_client` gives. It does not panic. -/
theorem buildClient_path {keys : String} {o : Except Failure Transport}
    (hkeys : libs.parseKeys (Text.trim cfg.appNsec) = .ok keys)
    (h : (buildClient libs keys cfg).Path answers l o) :
    (∀ s ∈ l, s.1.client? = none) ∧ sentMsgs l = [] ∧ pauses l = [] ∧
      (∀ transport, o = .ok transport → ProperClient libs cfg transport.client) ∧
      ∀ e, o ≠ .error (.panic e) := by
  unfold buildClient at h
  split at h
  · split at h
    · obtain ⟨rfl, rfl⟩ := Prog.path_fail_iff.1 h
      exact ⟨fun _ hs => absurd hs List.not_mem_nil, rfl, rfl, fun _ h => (by cases h),
        fun _ h => by cases h⟩
    · rename_i hdirect
      obtain ⟨rfl, rfl⟩ := Prog.path_ret_iff.1 h
      refine ⟨fun _ hs => absurd hs List.not_mem_nil, rfl, rfl, fun _ h => ?_,
        fun _ h => by cases h⟩
      cases h
      exact ⟨hkeys, fun honion => absurd honion hdirect⟩
  · -- A SOCKS proxy: its address is looked up first, and only that lookup can fail.
    obtain ⟨addr, l', -, hrest, rfl⟩ := Prog.path_perform_bind_iff.1 h
    cases addr with
    | error e =>
      obtain ⟨rfl, rfl⟩ := Prog.path_fail_iff.1 hrest
      refine ⟨fun s hs => ?_, rfl, rfl, fun _ h => (by cases h), fun _ h => (by cases h)⟩
      cases List.mem_singleton.1 hs
      rfl
    | ok addr =>
      change (if _ then _ else _ : NotifyM Transport).Path answers l' o at hrest
      split at hrest
      all_goals
        obtain ⟨rfl, rfl⟩ := Prog.path_ret_iff.1 hrest
        refine ⟨fun s hs => ?_, rfl, rfl, fun _ h => ?_, fun _ h => (by cases h)⟩
        · cases List.mem_singleton.1 hs
          rfl
        · cases h
          exact ⟨hkeys, fun _ => rfl⟩

/-- One relay is added, and what follows goes on only if it was not refused. -/
theorem addRelay_path {client : NostrClient} {relay : String}
    {next : Except String Unit → NotifyM Unit} (hok : ∀ u, next (.ok u) = .ret ())
    (herror : ∀ e, ∃ text, next (.error e) = .fail (.error text)) {o : Except Failure Unit}
    (h : (Prog.bind (notify (.addRelay client relay)) next).Path answers l o) :
    ∃ answer, l = [⟨.addRelay client relay, answer⟩] ∧
      ((o = .ok () ∧ answer = .ok ()) ∨ ∃ text, o = .error (.error text)) := by
  obtain ⟨answer, rest, -, hrest, rfl⟩ := Prog.path_perform_bind_iff.1 h
  refine ⟨answer, ?_⟩
  cases answer with
  | error e =>
    obtain ⟨text, hfail⟩ := herror e
    rw [hfail] at hrest
    obtain ⟨rfl, rfl⟩ := Prog.path_fail_iff.1 hrest
    exact ⟨rfl, Or.inr ⟨text, rfl⟩⟩
  | ok u =>
    rw [hok] at hrest
    obtain ⟨rfl, rfl⟩ := Prog.path_ret_iff.1 hrest
    exact ⟨rfl, Or.inl ⟨rfl, rfl⟩⟩

/-- The relays are added one after the other, up to the first one that is refused. -/
theorem addRelays_path {client : NostrClient} (relays : List String) {o : Except Failure Unit}
    (h : (addRelays client relays).Path answers l o) :
    (∀ s ∈ l, s.1.client? = some client) ∧ sentMsgs l = [] ∧ pauses l = [] ∧
      ((o = .ok () ∧ l = relays.map (addedTo client)) ∨ ∃ text, o = .error (.error text)) := by
  induction relays generalizing l o with
  | nil =>
    obtain ⟨rfl, rfl⟩ := Prog.path_ret_iff.1 h
    exact ⟨fun _ hs => absurd hs List.not_mem_nil, rfl, rfl, Or.inl ⟨rfl, rfl⟩⟩
  | cons relay relays ih =>
    rcases Prog.path_bind_iff.1 h with ⟨u, l₁, l₂, hfirst, hrest, rfl⟩ | ⟨e, hfail, rfl⟩
    · obtain ⟨answer, rfl, hadded⟩ := addRelay_path (fun _ => rfl) (fun _ => ⟨_, rfl⟩) hfirst
      obtain rfl : answer = .ok () := by
        rcases hadded with ⟨-, hadded⟩ | ⟨text, hrefused⟩
        · exact hadded
        · cases hrefused
      obtain ⟨hclients, hsent, hpauses, hall⟩ := ih hrest
      refine ⟨fun s hs => ?_, hsent, hpauses, ?_⟩
      · rcases List.mem_cons.1 hs with rfl | hs
        · rfl
        · exact hclients s hs
      · rcases hall with ⟨rfl, rfl⟩ | hrefused
        · exact Or.inl ⟨rfl, rfl⟩
        · exact Or.inr hrefused
    · obtain ⟨answer, rfl, hrefused⟩ := addRelay_path (fun _ => rfl) (fun _ => ⟨_, rfl⟩) hfail
      refine ⟨fun s hs => ?_, rfl, rfl, ?_⟩
      · cases List.mem_singleton.1 hs
        rfl
      · rcases hrefused with ⟨hok, -⟩ | ⟨text, htext⟩
        · cases hok
        · cases htext
          exact Or.inr ⟨text, rfl⟩

/-- The place of the only message. -/
theorem split_of_only_sent {first rest before after : NotifySeen}
    {s s₀ : Seen NotifyAct NotifyAct.Res} {m : SentMsg} (hfirst : sentMsgs first = [])
    (hrest : sentMsgs rest = []) (hsplit : first ++ s₀ :: rest = before ++ s :: after)
    (hm : m ∈ sentIn s) : before = first ∧ s = s₀ := by
  rcases List.append_eq_append_iff.1 hsplit with ⟨more, rfl, htail⟩ | ⟨last, rfl, htail⟩
  · cases more with
    | nil =>
      obtain ⟨rfl, -⟩ := List.cons.inj htail
      exact ⟨List.append_nil _, rfl⟩
    | cons s' more =>
      obtain ⟨-, hrest'⟩ := List.cons.inj htail
      have hs : s ∈ rest := hrest' ▸ List.mem_append_right _ (List.mem_cons_self ..)
      rw [sentIn_of_sentMsgs_nil hrest hs] at hm
      cases hm
  · cases last with
    | nil =>
      obtain ⟨rfl, -⟩ := List.cons.inj htail
      exact ⟨(List.append_nil _).symm, rfl⟩
    | cons s' last =>
      obtain ⟨rfl, -⟩ := List.cons.inj htail
      have hs : s ∈ before ++ s :: last := List.mem_append_right _ (List.mem_cons_self ..)
      rw [sentIn_of_sentMsgs_nil hfirst hs] at hm
      cases hm

/-- The message of an attempt, and what follows it. -/
theorem message_path {transport : Transport} {recipient text : String}
    {connectFailed : List (String × String)} {o : Except Failure Unit}
    (h : Prog.Path answers (Prog.bind (notify (.sendPrivateMsg transport.client
        transport.sendTimeout recipient text)) (afterMessage transport.client connectFailed)) l o) :
    ∃ outcome rest, l = ⟨.sendPrivateMsg transport.client transport.sendTimeout recipient text,
        outcome⟩ :: rest ∧
      (∀ s ∈ rest, s.1.client? = some transport.client) ∧ sentMsgs rest = [] ∧ pauses rest = [] ∧
      ((SentMsg.accepted ⟨transport.client, recipient, text, outcome⟩ = true ∧ o = .ok ()) ∨
        SentMsg.accepted ⟨transport.client, recipient, text, outcome⟩ = false ∧
          ∃ e, o = .error (.error e)) := by
  obtain ⟨outcome, rest, -, hrest, rfl⟩ := Prog.path_perform_bind_iff.1 h
  refine ⟨outcome, rest, rfl, ?_⟩
  have hclient : ∀ u : Unit, ∀ s ∈ ([⟨.disconnect transport.client, u⟩] : NotifySeen),
      s.1.client? = some transport.client := by
    intro u s hs
    cases List.mem_singleton.1 hs
    rfl
  -- The three outcomes of `send_private_msg`. A published message that no relay has taken counts as
  -- a failure in the source too.
  cases outcome with
  | timedOut =>
    obtain ⟨rfl, rfl⟩ := Prog.path_fail_iff.1 hrest
    exact ⟨fun _ hs => absurd hs List.not_mem_nil, rfl, rfl, Or.inr ⟨rfl, _, rfl⟩⟩
  | failed error =>
    obtain ⟨u, rest, -, hfail, rfl⟩ := Prog.path_perform_bind_iff.1 hrest
    obtain ⟨rfl, rfl⟩ := Prog.path_fail_iff.1 hfail
    exact ⟨hclient u, rfl, rfl, Or.inr ⟨rfl, _, rfl⟩⟩
  | published success failed =>
    obtain ⟨u, rest, -, hend, rfl⟩ := Prog.path_perform_bind_iff.1 hrest
    change (if success = [] then _ else _ : NotifyM Unit).Path answers rest o at hend
    split at hend
    · rename_i hnone
      have hfails : rest = [] ∧ ∃ e, o = .error (.error e) := by
        change (if _ then _ else _ : NotifyM Unit).Path answers rest o at hend
        split at hend
        all_goals
          obtain ⟨rfl, rfl⟩ := Prog.path_fail_iff.1 hend
          exact ⟨rfl, _, rfl⟩
      obtain ⟨rfl, hfails⟩ := hfails
      exact ⟨hclient u, rfl, rfl, Or.inr ⟨by simp [SentMsg.accepted, hnone], hfails⟩⟩
    · rename_i hsome
      obtain ⟨rfl, rfl⟩ := Prog.path_ret_iff.1 hend
      exact ⟨hclient u, rfl, rfl, Or.inl ⟨by simp [SentMsg.accepted, hsome], rfl⟩⟩

/-- What an attempt does before it has a client does not count. -/
theorem Attempted.prepend {l₁ : NotifySeen} {accepted : Bool}
    (h : Attempted libs cfg text l accepted) (hclients : ∀ s ∈ l₁, s.1.client? = none)
    (hsent : sentMsgs l₁ = []) (hpauses : pauses l₁ = []) :
    Attempted libs cfg text (l₁ ++ l) accepted := by
  refine ⟨(properCalls_of_unsent (fun s hs client hmem => ?_) hsent).append h.toProperCalls,
    ?_, ?_⟩
  · rw [hclients s hs] at hmem
    cases hmem
  · rw [sentMsgs_append, hsent, List.nil_append]
    exact h.sent
  · rw [pauses_append, hpauses, h.unpaused]
    rfl

/-- The outcome of an attempt: `accepted` says whether a relay has taken the message, and a panic
comes of a notification without a text. -/
structure Ends (text : Option String) (accepted : Bool) (o : Except Failure Unit) : Prop where
  accepted : accepted = true ↔ o = .ok ()
  panic : ∀ e, o = .error (.panic e) → text = none

theorem ends_error {e : String} : Ends text false (.error (.error e)) where
  accepted := by simp
  panic _ h := by cases h

section
variable {notification : BroadcastNotification} {lang : Language} {o : Except Failure Unit}

/-- The part of `send` that has a client. -/
theorem useClient_path {transport : Transport} {recipient : String}
    (hclient : ProperClient libs cfg transport.client)
    (hrecipient : libs.parseRecipient (Text.trim cfg.recipientNpub) = .ok recipient)
    (h : (useClient libs cfg transport recipient notification lang).Path answers l o) :
    ∃ accepted, Attempted libs cfg (notification.message libs.toMessageLibs lang) l accepted ∧
      Ends (notification.message libs.toMessageLibs lang) accepted o := by
  have hclients : ∀ {l : NotifySeen}, (∀ s ∈ l, s.1.client? = some transport.client) →
      ∀ s ∈ l, ∀ client ∈ s.1.client?, ProperClient libs cfg client := by
    intro l hl s hs client hmem
    rw [hl s hs] at hmem
    cases hmem
    exact hclient
  rcases Prog.path_bind_iff.1 h with ⟨u, l₁, l₂, hadd, hrest, rfl⟩ | ⟨e, hfail, rfl⟩
  · obtain ⟨hclients₁, hsent₁, hpauses₁, hadded⟩ := addRelays_path _ hadd
    obtain rfl : l₁ = (relaysToTry cfg).map (addedTo transport.client) := by
      rcases hadded with ⟨-, hadded⟩ | ⟨text, hrefused⟩
      · exact hadded
      · cases hrefused
    obtain ⟨connectFailed, l₃, -, hmessage, rfl⟩ := Prog.path_perform_bind_iff.1 hrest
    unfold messageText at hmessage
    cases htext : notification.message libs.toMessageLibs lang with
    | none =>
      -- There is no text, so the task panics where it makes it.
      rw [htext] at hmessage
      obtain ⟨rfl, rfl⟩ := Prog.path_fail_iff.1 hmessage
      have hunsent : sentMsgs ((relaysToTry cfg).map (addedTo transport.client) ++
          [⟨.tryConnect transport.client transport.connectTimeout, connectFailed⟩]) = [] := by
        rw [sentMsgs_append, hsent₁]
        rfl
      refine ⟨false, ⟨properCalls_of_unsent (hclients fun s hs => ?_) hunsent,
        Or.inl ⟨hunsent, rfl⟩, ?_⟩, by simp, fun _ _ => rfl⟩
      · rcases List.mem_append.1 hs with hs | hs
        · exact hclients₁ s hs
        · cases List.mem_singleton.1 hs
          rfl
      · rw [pauses_append, hpauses₁]
        rfl
    | some text =>
      rw [htext] at hmessage
      obtain ⟨outcome, rest, rfl, hclients₃, hsent₃, hpauses₃, hend⟩ := message_path hmessage
      have hsent : sentMsgs ((relaysToTry cfg).map (addedTo transport.client) ++
          ⟨.tryConnect transport.client transport.connectTimeout, connectFailed⟩ ::
          ⟨.sendPrivateMsg transport.client transport.sendTimeout recipient text, outcome⟩ ::
          rest) = [⟨transport.client, recipient, text, outcome⟩] := by
        rw [sentMsgs_append, hsent₁]
        show _ :: sentMsgs rest = _
        rw [hsent₃]
      refine ⟨SentMsg.accepted ⟨transport.client, recipient, text, outcome⟩,
        ⟨⟨hclients fun s hs => ?_, ?_⟩, Or.inr ⟨_, hsent, rfl⟩, ?_⟩, ?_⟩
      · rcases List.mem_append.1 hs with hs | hs
        · exact hclients₁ s hs
        · rcases List.mem_cons.1 hs with rfl | hs
          · rfl
          · rcases List.mem_cons.1 hs with rfl | hs
            · rfl
            · exact hclients₃ s hs
      · intro before s after hsplit m hm
        have hunsent : sentMsgs ((relaysToTry cfg).map (addedTo transport.client) ++
            [⟨.tryConnect transport.client transport.connectTimeout, connectFailed⟩]) = [] := by
          rw [sentMsgs_append, hsent₁]
          rfl
        rw [List.append_cons] at hsplit
        obtain ⟨hbefore, rfl⟩ := split_of_only_sent hunsent hsent₃ hsplit hm
        cases hm
        exact ⟨rfl, hrecipient, [], transport.connectTimeout, connectFailed, hbefore⟩
      · rw [pauses_append, hpauses₁]
        exact hpauses₃
      · rcases hend with ⟨haccepted, rfl⟩ | ⟨hnot, e, rfl⟩
        · rw [haccepted]
          exact ⟨by simp, fun _ h => (by cases h)⟩
        · rw [hnot]
          exact ends_error
  · obtain ⟨hclients₁, hsent₁, hpauses₁, hrefused⟩ := addRelays_path _ hfail
    refine ⟨false, ⟨properCalls_of_unsent (hclients hclients₁) hsent₁, Or.inl ⟨hsent₁, rfl⟩,
      hpauses₁⟩, ?_⟩
    rcases hrefused with ⟨hok, -⟩ | ⟨text, htext⟩
    · cases hok
    · cases htext
      exact ends_error

/-- One call of `send`. -/
theorem send_path (h : (send libs cfg notification lang).Path answers l o) :
    ∃ accepted, Attempted libs cfg (notification.message libs.toMessageLibs lang) l accepted ∧
      Ends (notification.message libs.toMessageLibs lang) accepted o := by
  -- The checks before the first relay fail without a call.
  have hearly : ∀ {e : String}, (Prog.fail (.error e) : NotifyM Unit).Path answers l o →
      ∃ accepted, Attempted libs cfg (notification.message libs.toMessageLibs lang) l accepted ∧
        Ends (notification.message libs.toMessageLibs lang) accepted o := by
    intro e hfail
    obtain ⟨rfl, rfl⟩ := Prog.path_fail_iff.1 hfail
    exact ⟨false, attempted_nil, ends_error⟩
  unfold send at h
  cases hkeys : libs.parseKeys (Text.trim cfg.appNsec) with
  | error e =>
    rw [hkeys] at h
    exact hearly h
  | ok keys =>
    cases hrecipient : libs.parseRecipient (Text.trim cfg.recipientNpub) with
    | error e =>
      rw [hkeys, hrecipient] at h
      exact hearly h
    | ok recipient =>
      rw [hkeys, hrecipient] at h
      -- The keys, the recipient and the relays are there: a client is built and used.
      change (if relaysToTry cfg = [] then _ else _ : NotifyM Unit).Path answers l o at h
      split at h
      · exact hearly h
      · rcases Prog.path_bind_iff.1 h with ⟨transport, l₁, l₂, hbuild, hrest, rfl⟩ | ⟨e, hfail, rfl⟩
        · obtain ⟨hnone, hsent, hpauses, hproper, -⟩ := buildClient_path hkeys hbuild
          obtain ⟨accepted, hattempted, hends⟩ :=
            useClient_path (hproper transport rfl) hrecipient hrest
          exact ⟨accepted, hattempted.prepend hnone hsent hpauses, hends⟩
        · obtain ⟨hnone, hsent, hpauses, -, hnopanic⟩ := buildClient_path hkeys hfail
          have hended : Attempted libs cfg (notification.message libs.toMessageLibs lang) (l ++ [])
              false := attempted_nil.prepend hnone hsent hpauses
          rw [List.append_nil] at hended
          cases e with
          | error e => exact ⟨false, hended, ends_error⟩
          | panic e => exact absurd rfl (hnopanic e)

end

/-! ### The attempts -/

/-- An attempt that no relay has taken, a pause, and what follows. -/
theorem Attempted.again {n left : Nat} {pause rest : NotifySeen} {accepted : Bool}
    (h : Attempted libs cfg text l false) (hpause : ProperCalls libs cfg text pause)
    (hsent : sentMsgs pause = []) (hlength : pauses pause = (retryBackoff.drop n).take 1)
    (hrest : Tried libs cfg text (n + 1) left rest accepted) :
    Tried libs cfg text n (left + 1) (l ++ (pause ++ rest)) accepted := by
  have hmsgs : sentMsgs (l ++ (pause ++ rest)) = sentMsgs l ++ sentMsgs rest := by
    rw [sentMsgs_append, sentMsgs_append, hsent, List.nil_append]
  -- The failed attempt has sent at most one message, and no relay took it.
  have hfailed : (sentMsgs l).length ≤ 1 ∧ ∀ m ∈ sentMsgs l, m.accepted = false := by
    rcases h.sent with ⟨hnone, -⟩ | ⟨m, hm, haccepted⟩
    · rw [hnone]
      exact ⟨Nat.zero_le _, fun _ hm => absurd hm List.not_mem_nil⟩
    · rw [hm]
      refine ⟨le_rfl, fun m' hm' => ?_⟩
      cases List.mem_singleton.1 hm'
      exact haccepted
  refine ⟨h.toProperCalls.append (hpause.append hrest.toProperCalls), ?_, ?_⟩
  · rw [hmsgs, List.length_append]
    have hbounded := hrest.bounded
    omega
  · have hended := hrest.ended
    rw [hmsgs]
    cases accepted with
    | true =>
      -- The accepted message is one of the later attempts; all before it failed, these of now
      -- included.
      obtain ⟨before, m, hm, haccepted, hbefore⟩ := hended
      refine ⟨sentMsgs l ++ before, m, by rw [hm, List.append_assoc], haccepted,
        fun m' hm' => ?_⟩
      rcases List.mem_append.1 hm' with hm' | hm'
      · exact hfailed.2 m' hm'
      · exact hbefore m' hm'
    | false =>
      -- None was taken: the pauses are the first `left + 1` of the backoffs from `n` on.
      obtain ⟨hnone, hpauses⟩ := hended
      refine ⟨fun m hm => ?_, ?_⟩
      · rcases List.mem_append.1 hm with hm | hm
        · exact hfailed.2 m hm
        · exact hnone m hm
      · rw [pauses_append, pauses_append, h.unpaused, hlength, hpauses, List.nil_append,
          Nat.add_comm left 1, List.take_add, List.drop_drop]

/-- A pause after the attempt with the number `n`. -/
theorem properCalls_pause (seconds : Nat) (u : Unit) :
    ProperCalls libs cfg text [⟨.sleep seconds, u⟩] := by
  refine properCalls_of_unsent (fun s hs client hmem => ?_) rfl
  cases List.mem_singleton.1 hs
  cases hmem

/-- The attempts of `with_retries`, from the one with the number `n`. -/
theorem retriesFrom_path {attempt : NotifyM Unit}
    (hattempt : ∀ {l : NotifySeen} {o : Except Failure Unit}, attempt.Path answers l o →
      ∃ accepted, Attempted libs cfg text l accepted ∧ Ends text accepted o)
    (left n : Nat) {o : Except Failure Bool} (h : (retriesFrom attempt n left).Path answers l o) :
    (∃ accepted, o = .ok accepted ∧ Tried libs cfg text n left l accepted) ∨
      (∃ e, o = .error (.panic e)) ∧ text = none ∧ ProperCalls libs cfg text l := by
  -- By the number of attempts that are left. The outcome of the first one decides: a message taken
  -- ends the loop, a panic ends the task, and an error pauses and goes on.
  induction left generalizing n l o with
  | zero =>
    obtain ⟨rfl, rfl⟩ := Prog.path_ret_iff.1 h
    exact Or.inl ⟨false, rfl, properCalls_nil, le_rfl, fun _ hm => absurd hm List.not_mem_nil,
      List.take_zero.symm⟩
  | succ left ih =>
    rcases Prog.path_bind_iff.1 h with ⟨x, l₁, l₂, hfirst, hrest, rfl⟩ | ⟨e, hfail, rfl⟩
    · obtain ⟨o₁, hx, hpath⟩ := Prog.path_attempt_iff.1 hfirst
      cases hx
      obtain ⟨accepted, hattempted, hends⟩ := hattempt hpath
      cases x with
      | ok u =>
        obtain rfl := hends.accepted.2 rfl
        obtain ⟨rfl, rfl⟩ := Prog.path_ret_iff.1 hrest
        rw [List.append_nil]
        rcases hattempted.sent with ⟨-, hno⟩ | ⟨m, hm, hmaccepted⟩
        · cases hno
        · refine Or.inl ⟨true, rfl, hattempted.toProperCalls, ?_, [], m, hm, hmaccepted,
            fun _ h => absurd h List.not_mem_nil⟩
          rw [hm]
          exact Nat.succ_le_succ (Nat.zero_le _)
      | error e =>
        obtain rfl : accepted = false := by
          cases accepted with
          | false => rfl
          | true => cases hends.accepted.1 rfl
        cases e with
        | panic e =>
          obtain ⟨rfl, rfl⟩ := Prog.path_fail_iff.1 hrest
          rw [List.append_nil]
          exact Or.inr ⟨⟨e, rfl⟩, hends.panic e rfl, hattempted.toProperCalls⟩
        | error e =>
          dsimp only at hrest
          -- There is a pause after each attempt but the last.
          cases hbackoff : retryBackoff[n]? with
          | some seconds =>
            rw [hbackoff] at hrest
            obtain ⟨u, l₃, -, hlater, rfl⟩ := Prog.path_perform_bind_iff.1 hrest
            have hpause : ProperCalls libs cfg text [⟨.sleep seconds, u⟩] :=
              properCalls_pause seconds u
            rcases ih (n + 1) hlater with ⟨accepted, ho, htried⟩ | ⟨hpanic, hnone, hproper⟩
            · refine Or.inl ⟨accepted, ho, hattempted.again hpause rfl ?_ htried⟩
              obtain ⟨hn, hseconds⟩ := List.getElem?_eq_some_iff.1 hbackoff
              rw [List.drop_eq_getElem_cons hn, hseconds]
              rfl
            · exact Or.inr ⟨hpanic, hnone,
                hattempted.toProperCalls.append (hpause.append hproper)⟩
          | none =>
            rw [hbackoff] at hrest
            rcases ih (n + 1) hrest with ⟨accepted, ho, htried⟩ | ⟨hpanic, hnone, hproper⟩
            · refine Or.inl ⟨accepted, ho, hattempted.again properCalls_nil rfl ?_ htried⟩
              rw [List.drop_eq_nil_of_le (List.getElem?_eq_none_iff.1 hbackoff)]
              rfl
            · exact Or.inr ⟨hpanic, hnone, hattempted.toProperCalls.append hproper⟩
    · obtain ⟨o₁, hx, -⟩ := Prog.path_attempt_iff.1 hfail
      cases hx

/-- The text of a notification under a configuration. -/
def textFor (libs : NotifyLibs) (notification : BroadcastNotification)
    (cfg : NotificationsConfig) : Option String :=
  notification.message libs.toMessageLibs (Language.fromCode cfg.language)

/-- What the dispatcher does with a notification that it has taken. Without the configuration, or
while no channel is active, it does nothing. -/
def Dispatched (libs : NotifyLibs) (notification : BroadcastNotification) (l : NotifySeen) : Prop :=
  (∃ e, l = [⟨.lockConfig, .error e⟩]) ∨
    ∃ cfg rest, l = ⟨.lockConfig, .ok cfg⟩ :: rest ∧
      if nostrActive cfg then
        ∃ accepted, Tried libs cfg.nostr (textFor libs notification cfg) 0 maxAttempts rest accepted
      else rest = []

/-- What the dispatcher has done when a notification ends it: the channel is active, the txid cannot
be cut, and no message was sent. -/
def Crashed (libs : NotifyLibs) (notification : BroadcastNotification) (l : NotifySeen) : Prop :=
  shortTxid notification.txid = none ∧ sentMsgs l = [] ∧
    ∃ cfg rest, l = ⟨.lockConfig, .ok cfg⟩ :: rest ∧ nostrActive cfg = true ∧
      ProperCalls libs cfg.nostr none rest

/-- No message is proper if there is no text. -/
theorem ProperCalls.unsent (h : ProperCalls libs cfg none l) : sentMsgs l = [] := by
  by_contra hsome
  obtain ⟨m, hm⟩ := List.exists_mem_of_ne_nil _ hsome
  obtain ⟨s, hs, hsent⟩ := List.mem_filterMap.1 hm
  obtain ⟨before, after, hsplit⟩ := List.append_of_mem hs
  cases (h.msgs before s after hsplit m hsent).text

/-- A path of the dispatcher is one of the attempts, if the configuration can be read and a channel
is active, and does nothing else. -/
theorem attempts_of_path {notification : BroadcastNotification} {o : Except Failure Unit}
    (h : (dispatch libs notification).Path answers l o) :
    (o = .ok () ∧ Dispatched libs notification l) ∨
      ∃ cfg rest, l = ⟨.lockConfig, .ok cfg⟩ :: rest ∧ nostrActive cfg = true ∧
        ((withRetries (send libs cfg.nostr notification (Language.fromCode cfg.language))).bind
          fun _ => .ret ()).Path answers rest o := by
  obtain ⟨config, rest, -, hrest, rfl⟩ := Prog.path_perform_bind_iff.1 h
  cases config with
  | error e =>
    obtain ⟨rfl, rfl⟩ := Prog.path_ret_iff.1 hrest
    exact Or.inl ⟨rfl, Or.inl ⟨e, rfl⟩⟩
  | ok cfg =>
    change (if anyActive cfg then deliver libs cfg notification else _ : NotifyM Unit).Path
      answers rest o at hrest
    by_cases hactive : nostrActive cfg = true
    · have hany : anyActive cfg = true := hactive
      rw [if_pos hany, deliver, if_pos hany] at hrest
      dsimp only at hrest
      rw [if_pos hactive] at hrest
      exact Or.inr ⟨cfg, rest, rfl, hactive, hrest⟩
    · have hnone : ¬ anyActive cfg = true := hactive
      rw [if_neg hnone] at hrest
      obtain ⟨rfl, rfl⟩ := Prog.path_ret_iff.1 hrest
      refine Or.inl ⟨rfl, Or.inr ⟨cfg, [], rfl, ?_⟩⟩
      rw [if_neg hactive]

theorem dispatched_of_path {notification : BroadcastNotification}
    (h : (dispatch libs notification).Path answers l (.ok ())) :
    Dispatched libs notification l := by
  rcases attempts_of_path h with ⟨-, hdone⟩ | ⟨cfg, rest, rfl, hactive, hrest⟩
  · exact hdone
  · obtain ⟨b, l₁, l₂, htries, hend, rfl⟩ := Prog.path_bind_ok hrest
    obtain ⟨rfl, -⟩ := Prog.path_ret_iff.1 hend
    rcases retriesFrom_path send_path _ _ htries with ⟨accepted, -, htried⟩ | ⟨⟨e, he⟩, -⟩
    · refine Or.inr ⟨cfg, _, rfl, ?_⟩
      rw [if_pos hactive, List.append_nil]
      exact ⟨accepted, htried⟩
    · cases he

theorem crashed_of_path {notification : BroadcastNotification} {e : Failure}
    (h : (dispatch libs notification).Path answers l (.error e)) :
    (∃ text, e = .panic text) ∧ Crashed libs notification l := by
  rcases attempts_of_path h with ⟨hok, -⟩ | ⟨cfg, rest, rfl, hactive, hrest⟩
  · cases hok
  rcases Prog.path_bind_iff.1 hrest with ⟨b, l₁, l₂, -, hend, -⟩ | ⟨e', hfail, he⟩
  · cases (Prog.path_ret_iff.1 hend).2
  · cases he
    rcases retriesFrom_path send_path _ _ hfail with
      ⟨accepted, ho, -⟩ | ⟨⟨text, he⟩, hnone, hproper⟩
    · cases ho
    · cases he
      rw [hnone] at hproper
      exact ⟨⟨text, rfl⟩, (message_eq_none_iff _ _ _).1 hnone, hproper.unsent, cfg, rest, rfl,
        hactive, hproper⟩

/-- On every path, the dispatcher sends the text of the notification in at most three messages to
the configured recipient, each right after all relays were added, through a proxy if a relay URL
ends in `.onion`, and nothing after a relay has taken it. It fails only by the panic of a txid that
cannot be cut, and has then sent nothing. -/
theorem dispatch_path {notification : BroadcastNotification} {o : Except Failure Unit}
    (h : (dispatch libs notification).Path answers l o) :
    (o = .ok () ∧ Dispatched libs notification l) ∨
      (∃ e, o = .error (.panic e)) ∧ Crashed libs notification l := by
  cases o with
  | ok u => exact Or.inl ⟨rfl, dispatched_of_path h⟩
  | error e =>
    obtain ⟨⟨text, rfl⟩, hcrashed⟩ := crashed_of_path h
    exact Or.inr ⟨⟨text, rfl⟩, hcrashed⟩

end

/-! ### A notification that is sent twice, and one that ends the dispatcher -/

def sampleNotifyLibs : NotifyLibs where
  formatTs t := toString t
  toUppercase c := [c.toUpper]
  parseKeys := .ok
  parseRecipient := .ok
  umbrelMode := false
  envSocks := none

/-- A hidden service, behind a proxy on this host. -/
def sampleNotifications : NotificationsConfig where
  enabled := true
  nostr :=
    { enabled := true, recipientNpub := "npub", appNsec := "nsec", torSocks := "127.0.0.1:9050"
      relays := ["ws://relay.onion/", "ws://relay.local/"] }

def sampleNotification : BroadcastNotification where
  txid := "7"
  amountSats := 80235
  sourceLabel := some "sparrow"
  createdAt := none
  broadcastAt := 0
  network := "testnet4"

/-- The relays. Of the messages, the first one times out and the second one is taken. -/
def slowRelay : Handler NotifyAct NotifyAct.Res Nat
  | .lockConfig, n => (.ok sampleNotifications, n)
  | .resolveSocksAddr socks, n => (.ok socks, n)
  | .addRelay .., n => (.ok (), n)
  | .tryConnect .., n => ([], n)
  | .sendPrivateMsg .., n => (if n = 0 then .timedOut else .published ["relay"] [], n + 1)
  | .disconnect _, n => ((), n)
  | .sleep _, n => ((), n)

/-- What the dispatcher then sees. -/
def slowAnswers : NotifySeen := (dispatch sampleNotifyLibs sampleNotification).answers slowRelay 0

theorem path_slowAnswers : (dispatch sampleNotifyLibs sampleNotification).Path (fun _ _ => True)
    slowAnswers (.ok ()) :=
  Prog.path_run slowRelay (fun _ _ => trivial) _ 0

/-- A txid with a character of two bytes at the first cut. -/
def brokenNotification : BroadcastNotification :=
  { sampleNotification with txid := "0123456ñ89abcdef01234567" }

def brokenAnswers : NotifySeen := (dispatch sampleNotifyLibs brokenNotification).answers slowRelay 0

theorem path_brokenAnswers : (dispatch sampleNotifyLibs brokenNotification).Path
    (fun _ _ => True) brokenAnswers (.error (.panic "byte index is not a char boundary")) :=
  Prog.path_run slowRelay (fun _ _ => trivial) _ 0

theorem dispatch_path_slowAnswers :
    ((sentMsgs slowAnswers).map (·.accepted) = [false, true] ∧ pauses slowAnswers = [2] ∧
      (((Except.ok () : Except Failure Unit) = .ok () ∧
          Dispatched sampleNotifyLibs sampleNotification slowAnswers) ∨
        (∃ e, (Except.ok () : Except Failure Unit) = .error (.panic e)) ∧
          Crashed sampleNotifyLibs sampleNotification slowAnswers)) ∧
      (((Except.error (.panic "byte index is not a char boundary") : Except Failure Unit) =
          .ok () ∧ Dispatched sampleNotifyLibs brokenNotification brokenAnswers) ∨
        (∃ e, (Except.error (.panic "byte index is not a char boundary") : Except Failure Unit) =
          .error (.panic e)) ∧ Crashed sampleNotifyLibs brokenNotification brokenAnswers) :=
  ⟨⟨by decide, by decide, dispatch_path path_slowAnswers⟩, dispatch_path path_brokenAnswers⟩

end BroadcastPool
