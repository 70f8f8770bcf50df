import BroadcastPool.Lib.Channel
import BroadcastPool.Lib.Machine
import BroadcastPool.Proofs.Notify.Attempts

/-!
# `BroadcastPool.Proofs.Notify.Dispatcher`: which notifications are sent

`Dispatcher` is the dispatcher with its channel. Other tasks send notifications at any moment, also
while one is on its way. `dispatched_iff` shows that it handles them in their order, and all of them
exactly when the channel has never overrun it. A notification whose txid cannot be cut ends the
task: nothing that is sent later is taken.
-/

set_option autoImplicit false

namespace BroadcastPool

open Effects
open Effects.Channel

/-- The capacity of the channel. -/
def notificationCapacity : Nat := 256

/-- The channel, and the dispatcher at its turn of the loop. -/
structure Dispatcher where
  /-- Everything that was sent on the channel. -/
  sent : List BroadcastNotification := []
  /-- The number of the next one to take. -/
  next : Nat := 0
  /-- The one that is on its way. -/
  current : Option BroadcastNotification := none
  /-- Those that were taken. -/
  heard : List BroadcastNotification := []
  /-- How many the dispatcher was told it has lost. -/
  missed : Nat := 0
  /-- Those that are done with, and what was done. -/
  handled : List (BroadcastNotification × NotifySeen) := []
  /-- The one that has ended the task, and what was done before. -/
  crashed : Option (BroadcastNotification × NotifySeen) := none

/-- The task waits for the next notification. -/
structure Dispatcher.Waits (s : Dispatcher) : Prop where
  current : s.current = none
  crashed : s.crashed = none

inductive DispatchLabel
  /-- Another task sends a notification. -/
  | announce (notification : BroadcastNotification)
  | take (notification : BroadcastNotification)
  | lagged (count : Nat)
  | finish
  | panic

/-- One step of `run_notification_dispatcher`, or of another task. -/
inductive DispatchStep (libs : NotifyLibs)
    (rx : Receiver notificationCapacity BroadcastNotification) :
    Dispatcher → DispatchLabel → Dispatcher → Prop
  | announce {s : Dispatcher} (notification : BroadcastNotification) :
      DispatchStep libs rx s (.announce notification)
        { s with sent := s.sent ++ [notification] }
  | take {s : Dispatcher} {notification : BroadcastNotification} {next : Nat}
      (hwaits : s.Waits) (hreceive : rx.receive s.sent s.next = (.value notification, next)) :
      DispatchStep libs rx s (.take notification)
        { s with
          next, current := some notification, heard := s.heard ++ [notification] }
  | lagged {s : Dispatcher} {count next : Nat} (hwaits : s.Waits)
      (hreceive : rx.receive s.sent s.next = (.lagged count, next)) :
      DispatchStep libs rx s (.lagged count) { s with next, missed := s.missed + count }
  | finish {s : Dispatcher} {notification : BroadcastNotification} {l : NotifySeen}
      (hcurrent : s.current = some notification)
      (hpath : (dispatch libs notification).Path (fun _ _ => True) l (.ok ())) :
      DispatchStep libs rx s .finish
        { s with current := none, handled := s.handled ++ [(notification, l)] }
  | panic {s : Dispatcher} {notification : BroadcastNotification} {l : NotifySeen} {e : String}
      (hcurrent : s.current = some notification)
      (hpath : (dispatch libs notification).Path (fun _ _ => True) l (.error (.panic e))) :
      DispatchStep libs rx s .panic { s with current := none, crashed := some (notification, l) }

/-- The dispatcher subscribes to the channel at any moment. -/
def dispatchMachine (libs : NotifyLibs)
    (rx : Receiver notificationCapacity BroadcastNotification) :
    Machine Dispatcher DispatchLabel where
  init s := ∃ sent, s = { sent, next := sent.length }
  step := DispatchStep libs rx

/-- The dispatcher has done all there is to do. -/
structure Dispatcher.Idle (s : Dispatcher) : Prop extends s.Waits where
  ended : s.sent.length ≤ s.next

/-- The notifications that the dispatcher has begun with, in that order. -/
def Dispatcher.begun (s : Dispatcher) : List BroadcastNotification :=
  s.handled.map (·.1) ++ s.current.toList ++ s.crashed.toList.map (·.1)

section
variable {libs : NotifyLibs} {rx : Receiver notificationCapacity BroadcastNotification}
  {s₀ s s' s₁ : Dispatcher}

theorem Dispatcher.Waits.begun (h : s.Waits) : s.begun = s.handled.map (·.1) := by
  unfold Dispatcher.begun
  rw [h.current, h.crashed]
  simp

/-- What holds of the dispatcher since it was in the state `s₀`, in which it had not taken
anything. -/
structure DispatchedSince (libs : NotifyLibs) (start : Nat) (s : Dispatcher) : Prop where
  heard : Heard s.sent start s.next s.heard s.missed
  order : s.begun = s.heard
  done : ∀ entry ∈ s.handled, Dispatched libs entry.1 entry.2
  ended : ∀ entry ∈ s.crashed, s.current = none ∧ Crashed libs entry.1 entry.2

theorem dispatchedSince_step {start : Nat} (h : DispatchedSince libs start s)
    {label : DispatchLabel} (hstep : DispatchStep libs rx s label s') :
    DispatchedSince libs start s' := by
  -- A task that has panicked has no notification in hand, so one that has is alive.
  have halive : ∀ {notification}, s.current = some notification → s.crashed = none := by
    intro notification hcurrent
    cases hcrashed : s.crashed with
    | none => rfl
    | some entry =>
      have hnone := (h.ended entry hcrashed).1
      rw [hcurrent] at hnone
      cases hnone
  cases hstep with
  | announce notification => exact { h with heard := h.heard.send [notification] }
  -- The notification that is taken joins both the heard ones and the begun ones, at the end.
  | @take notification next hwaits hreceive =>
    have horder := h.order
    rw [hwaits.begun] at horder
    refine { h with heard := h.heard.value hreceive, order := ?_, ended := fun entry hentry => ?_ }
    · show s.handled.map (·.1) ++ [notification] ++ s.crashed.toList.map (·.1) =
        s.heard ++ [notification]
      rw [hwaits.crashed, horder]
      exact List.append_nil _
    · rw [hwaits.crashed] at hentry
      cases hentry
  | lagged hwaits hreceive => exact { h with heard := h.heard.lagged hreceive }
  -- It goes from the begun ones to the handled ones, so the order stays.
  | @finish notification l hcurrent hpath =>
    have hnone := halive hcurrent
    have horder := h.order
    unfold Dispatcher.begun at horder
    rw [hcurrent, hnone] at horder
    refine { h with order := ?_, done := fun entry hentry => ?_, ended := fun entry hentry => ?_ }
    · rw [← horder]
      simp [Dispatcher.begun, hnone]
    · rcases List.mem_append.1 hentry with hentry | hentry
      · exact h.done entry hentry
      · cases List.mem_singleton.1 hentry
        exact dispatched_of_path hpath
    · rw [hnone] at hentry
      cases hentry
  -- The last of the begun ones: nothing is in hand after it.
  | @panic notification l e hcurrent hpath =>
    have hnone := halive hcurrent
    have horder := h.order
    unfold Dispatcher.begun at horder
    rw [hcurrent, hnone] at horder
    refine { h with order := ?_, ended := fun entry hentry => ?_ }
    · rw [← horder]
      simp [Dispatcher.begun]
    · cases hentry
      exact ⟨rfl, (crashed_of_path hpath).2⟩

theorem dispatchedSince_run {start : Nat} (h : DispatchedSince libs start s)
    {labels : List DispatchLabel} (hrun : (dispatchMachine libs rx).Run s labels s') :
    DispatchedSince libs start s' :=
  Machine.Run.invariant (I := DispatchedSince libs start) (A := fun _ => True)
    (fun _ _ _ hstep _ hs => dispatchedSince_step hs hstep) hrun (fun _ _ => trivial) h

/-- Nothing is lost without the channel telling so, and something is lost then. -/
theorem dispatchMissed_run {labels : List DispatchLabel}
    (hrun : (dispatchMachine libs rx).Run s labels s') :
    s.missed ≤ s'.missed ∧ (s'.missed = s.missed ↔ ∀ count, .lagged count ∉ labels) := by
  induction hrun with
  | nil s => exact ⟨le_rfl, by simp⟩
  | cons hstep hrun ih =>
    obtain ⟨hle, hiff⟩ := ih
    cases hstep with
    | lagged hwaits hreceive =>
      have hpos := (rx.receive_lagged hreceive).2.1
      dsimp only at hle hiff
      refine ⟨by omega, ?_⟩
      constructor
      · intro heq
        omega
      · intro hnone
        exact absurd (List.mem_cons_self ..) (hnone _)
    | announce | take | finish | panic =>
      refine ⟨hle, hiff.trans ?_⟩
      simp

/-- From the moment it subscribes, the dispatcher takes the notifications in the order in which they
were sent, and it does with each what `Dispatched` says, until one ends it as `Crashed` says. While
it runs and has nothing left to do, it has handled all of them exactly if the channel has never told
it that it has lost some. -/
theorem dispatched_iff {labels : List DispatchLabel} (h₀ : (dispatchMachine libs rx).init s₀)
    (hrun : (dispatchMachine libs rx).Run s₀ labels s) :
    s.begun.Sublist (s.sent.drop s₀.sent.length) ∧
      (∀ entry ∈ s.handled, Dispatched libs entry.1 entry.2) ∧
      (∀ entry ∈ s.crashed, Crashed libs entry.1 entry.2) ∧
      (s.Idle → (s.handled.map (·.1) = s.sent.drop s₀.sent.length ↔
        ∀ count, .lagged count ∉ labels)) := by
  obtain ⟨sent, rfl⟩ := h₀
  have hstart : DispatchedSince libs sent.length { sent, next := sent.length } :=
    { heard := Heard.init le_rfl, order := rfl, done := fun _ h => absurd h List.not_mem_nil,
      ended := fun _ h => by cases h }
  have hsince := dispatchedSince_run hstart hrun
  refine ⟨?_, hsince.done, fun entry hentry => (hsince.ended entry hentry).2, ?_⟩
  · rw [hsince.order]
    exact hsince.heard.sublist.trans ((List.take_sublist _ _).drop _)
  · intro hidle
    have hall : s.sent.take s.next = s.sent := List.take_of_length_le hidle.ended
    have horder := hsince.order
    rw [hidle.toWaits.begun] at horder
    rw [horder, ← (dispatchMissed_run hrun).2, ← hsince.heard.complete_iff, hall]

end

/-! ### Several notifications, too many of them, and one that ends the task -/

/-- The machine with the sample libraries. -/
abbrev sampleDispatch : Machine Dispatcher DispatchLabel :=
  dispatchMachine sampleNotifyLibs (.standard _ _)

/-- A second notification. -/
def otherNotification : BroadcastNotification := { sampleNotification with txid := "8" }

def otherAnswers : NotifySeen := (dispatch sampleNotifyLibs otherNotification).answers slowRelay 0

theorem path_otherAnswers : (dispatch sampleNotifyLibs otherNotification).Path (fun _ _ => True)
    otherAnswers (.ok ()) :=
  Prog.path_run slowRelay (fun _ _ => trivial) _ 0

/-- Two notifications come in together, and the third one ends the task while a fourth one waits. -/
def crashedDispatcher : Dispatcher where
  sent := [sampleNotification, otherNotification, brokenNotification, sampleNotification]
  next := 3
  heard := [sampleNotification, otherNotification, brokenNotification]
  handled := [(sampleNotification, slowAnswers), (otherNotification, otherAnswers)]
  crashed := some (brokenNotification, brokenAnswers)

/-- What happens until then. -/
def crashLabels : List DispatchLabel :=
  [.announce sampleNotification, .announce otherNotification, .take sampleNotification,
    .announce brokenNotification, .finish, .take otherNotification, .finish,
    .take brokenNotification, .announce sampleNotification, .panic]

theorem run_crashLabels : sampleDispatch.Run {} crashLabels crashedDispatcher :=
  .cons (.announce sampleNotification) (.cons (.announce otherNotification)
    (.cons (.take ⟨rfl, rfl⟩ rfl) (.cons (.announce brokenNotification)
      (.cons (.finish rfl path_slowAnswers) (.cons (.take ⟨rfl, rfl⟩ rfl)
        (.cons (.finish rfl path_otherAnswers) (.cons (.take ⟨rfl, rfl⟩ rfl)
          (.cons (.announce sampleNotification) (.cons (.panic rfl path_brokenAnswers)
            (.nil crashedDispatcher))))))))))

/-- Some notifications in a row, before any turn of the dispatcher. -/
theorem run_bursts (k : Nat) (s : Dispatcher) :
    sampleDispatch.Run s (List.replicate k (.announce sampleNotification))
      { s with sent := s.sent ++ List.replicate k sampleNotification } := by
  induction k generalizing s with
  | zero =>
    rw [List.replicate_zero, List.replicate_zero, List.append_nil]
    exact .nil s
  | succ k ih =>
    have hrest := ih { s with sent := s.sent ++ [sampleNotification] }
    rw [List.replicate_succ, List.replicate_succ]
    dsimp only at hrest
    rw [List.append_assoc, List.singleton_append] at hrest
    exact .cons (.announce sampleNotification) hrest

/-- The dispatcher takes and handles what waits for it. -/
theorem exists_run_drain (k : Nat) (hk : k ≤ notificationCapacity) (s : Dispatcher)
    (hwaits : s.Waits) (hrest : s.sent.drop s.next = List.replicate k sampleNotification) :
    ∃ labels s', sampleDispatch.Run s labels s' ∧ s'.Idle ∧
      s'.handled.length = s.handled.length + k := by
  induction k generalizing s with
  | zero => exact ⟨[], s, .nil s, ⟨hwaits, List.drop_eq_nil_iff.1 hrest⟩, rfl⟩
  | succ k ih =>
    have hlength := congrArg List.length hrest
    rw [List.length_drop, List.length_replicate] at hlength
    have hnext : s.sent[s.next]? = some sampleNotification := by
      have hget := congrArg (·[0]?) hrest
      simpa using hget
    have hkept : backlog s.sent s.next ≤ notificationCapacity := by
      unfold backlog
      omega
    have hreceive := (Receiver.standard notificationCapacity BroadcastNotification).gives
      s.sent s.next _ hnext hkept
    have htake : sampleDispatch.step s (.take sampleNotification) _ := .take hwaits hreceive
    have hfinish : sampleDispatch.step
        { s with
          next := s.next + 1, current := some sampleNotification
          heard := s.heard ++ [sampleNotification] } .finish _ := .finish rfl path_slowAnswers
    obtain ⟨labels, s', hrun, hidle, hcount⟩ := ih (by omega)
      { s with
        next := s.next + 1, current := none, heard := s.heard ++ [sampleNotification]
        handled := s.handled ++ [(sampleNotification, slowAnswers)] }
      ⟨rfl, hwaits.crashed⟩ (by
        show s.sent.drop (s.next + 1) = _
        rw [← List.drop_drop, hrest, List.replicate_succ]
        rfl)
    refine ⟨_, s', .cons htake (.cons hfinish hrun), hidle, ?_⟩
    rw [hcount, List.length_append, List.length_singleton]
    omega

/-- 257 notifications have come in before the dispatcher runs. -/
def burstDispatcher : Dispatcher where
  sent := List.replicate 257 sampleNotification

/-- It loses the first one. -/
def lostDispatcher : Dispatcher where
  sent := burstDispatcher.sent
  next := 1
  missed := 1

theorem step_lagged_burst : sampleDispatch.step burstDispatcher (.lagged 1) lostDispatcher := by
  have hlength : burstDispatcher.sent.length = 257 := List.length_replicate
  have hbacklog : backlog burstDispatcher.sent burstDispatcher.next = 257 := by
    unfold backlog
    rw [hlength]
    rfl
  have hmissed : 257 - notificationCapacity = 1 := rfl
  have hreceive := (Receiver.standard notificationCapacity BroadcastNotification).lags
    burstDispatcher.sent burstDispatcher.next (by rw [hbacklog]; decide)
  rw [hbacklog, hlength, hmissed] at hreceive
  exact .lagged ⟨rfl, rfl⟩ hreceive

theorem exists_run_overrun :
    ∃ labels s, sampleDispatch.Run {}
      (List.replicate 257 (.announce sampleNotification) ++ .lagged 1 :: labels) s ∧ s.Idle ∧
      s.handled.length = 256 := by
  have hburst : sampleDispatch.Run {} (List.replicate 257 (.announce sampleNotification))
      burstDispatcher := run_bursts 257 {}
  have hrest : lostDispatcher.sent.drop lostDispatcher.next =
      List.replicate 256 sampleNotification := by
    have hcount : 257 - lostDispatcher.next = 256 := rfl
    rw [lostDispatcher, burstDispatcher, List.drop_replicate, ← hcount]
    rfl
  obtain ⟨labels, s, hrun, hidle, hcount⟩ := exists_run_drain 256 (by decide)
    lostDispatcher ⟨rfl, rfl⟩ hrest
  exact ⟨labels, s, hburst.append (.cons step_lagged_burst hrun), hidle,
    hcount.trans (Nat.zero_add 256)⟩

/-- The run that ends the task, and a run that loses a notification. -/
theorem dispatched_iff_crash_overrun :
    (crashedDispatcher.begun = [sampleNotification, otherNotification, brokenNotification] ∧
      crashedDispatcher.begun.Sublist (crashedDispatcher.sent.drop 0) ∧
      (∀ entry ∈ crashedDispatcher.handled, Dispatched sampleNotifyLibs entry.1 entry.2) ∧
      (∀ entry ∈ crashedDispatcher.crashed, Crashed sampleNotifyLibs entry.1 entry.2) ∧
      (crashedDispatcher.Idle → (crashedDispatcher.handled.map (·.1) =
        crashedDispatcher.sent.drop 0 ↔ ∀ count, .lagged count ∉ crashLabels))) ∧
    ∃ (s : Dispatcher) (labels : List DispatchLabel), s.Idle ∧ s.handled.length = 256 ∧
      DispatchLabel.lagged 1 ∈ labels ∧
      s.begun.Sublist (s.sent.drop 0) ∧
      (∀ entry ∈ s.handled, Dispatched sampleNotifyLibs entry.1 entry.2) ∧
      (∀ entry ∈ s.crashed, Crashed sampleNotifyLibs entry.1 entry.2) ∧
      (s.Idle → (s.handled.map (·.1) = s.sent.drop 0 ↔
        ∀ count, DispatchLabel.lagged count ∉ labels)) := by
  obtain ⟨labels, s, hrun, hidle, hcount⟩ := exists_run_overrun
  have hlagged : DispatchLabel.lagged 1 ∈
      List.replicate 257 (.announce sampleNotification) ++ .lagged 1 :: labels :=
    List.mem_append_right _ (List.mem_cons_self ..)
  exact ⟨⟨rfl, dispatched_iff ⟨[], rfl⟩ run_crashLabels⟩, s, _, hidle, hcount, hlagged,
    dispatched_iff ⟨[], rfl⟩ hrun⟩

end BroadcastPool
