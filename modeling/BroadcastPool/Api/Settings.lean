import BroadcastPool.Config
import BroadcastPool.Lib.Text

/-!
# `BroadcastPool.Api.Settings`: the settings a user saves

`save_config`, as far as the schedule is concerned. A request changes the fields it names, in
memory and under one lock, and an error does not take back what has been changed before it. The
network, the notifications and the file on disk are left out: they come after the schedule and
do not touch it.
-/

set_option autoImplicit false

namespace BroadcastPool

/-- `FromStr for BroadcastMode`. -/
def BroadcastMode.parse (s : String) : Option BroadcastMode :=
  let s := Text.lowercase s
  if s = "immediate" then some .immediate
  else if s = "scheduled" then some .scheduled
  else if s = "by_block" then some .byBlock
  else if s = "manual" then some .manual
  else none

/-- `MAX_VIRTUAL_BLOCK_GAP`. -/
def maxVirtualBlockGap : Nat := 100000

/-- `validate_virtual_height`. -/
def validateVirtualHeight (target : Nat) (realHeight : Option Nat) : Except String Unit :=
  if target = 0 then .error "Introduce una altura de bloque virtual futura."
  else match realHeight with
    | none => .ok ()
    | some h =>
      if target ≤ h then
        .error ("La altura virtual " ++ toString target ++
          " debe ser mayor que la altura actual " ++ toString h ++ ".")
      else if h + maxVirtualBlockGap < target then
        .error ("La altura virtual " ++ toString target ++
          " está demasiado lejos de la actual " ++ toString h ++ " (máximo +" ++
          toString maxVirtualBlockGap ++ ").")
      else .ok ()

/-- `SaveConfigRequest`, the part about the schedule. -/
structure SaveConfigRequest where
  broadcastMode : Option String := none
  scheduledDatetime : Option String := none
  minDelayHours : Option Nat := none
  maxDelayHours : Option Nat := none
  minFeeRate : Option F64 := none
  maxFeeRate : Option F64 := none
  lianaVbEnabled : Option Bool := none
  lianaVbTargetHeight : Option Nat := none
deriving DecidableEq, Repr

namespace SaveConfigRequest

/-- The fields of the schedule other than the virtual block. A mode that does not parse is
ignored, and an empty date takes the date away. -/
def applyPlan (request : SaveConfigRequest) (schedule : ScheduleConfig) : ScheduleConfig :=
  { schedule with
    broadcastMode := (request.broadcastMode.bind BroadcastMode.parse).getD schedule.broadcastMode
    scheduledDatetime := match request.scheduledDatetime with
      | none => schedule.scheduledDatetime
      | some v => if v = "" then none else some v
    minDelayHours := request.minDelayHours.getD schedule.minDelayHours
    maxDelayHours := request.maxDelayHours.getD schedule.maxDelayHours
    minFeeRate := request.minFeeRate.getD schedule.minFeeRate
    maxFeeRate := request.maxFeeRate.getD schedule.maxFeeRate }

/-- The virtual block. The target is written first. Arming then validates it against the live
tip, and a target that is refused stays written. -/
def applyVirtualBlock (request : SaveConfigRequest) (realHeight : Option Nat)
    (vb : LianaVirtualBlockConfig) : Except String Unit × LianaVirtualBlockConfig :=
  let vb := { vb with targetHeight := request.lianaVbTargetHeight.getD vb.targetHeight }
  match request.lianaVbEnabled with
  | none => (.ok (), vb)
  | some false => (.ok (), { vb with enabled := false })
  | some true =>
    match realHeight with
    | none => (.error "Altura de la cadena no disponible; reintenta en unos segundos.", vb)
    | some armedAt =>
      match validateVirtualHeight vb.targetHeight realHeight with
      | .error e => (.error e, vb)
      | .ok () => (.ok (), { vb with enabled := true, armedAtHeight := armedAt })

/-- `save_config` on the schedule, under the lock of the configuration. -/
def apply (request : SaveConfigRequest) (realHeight : Option Nat) (schedule : ScheduleConfig) :
    Except String Unit × ScheduleConfig :=
  let plan := request.applyPlan schedule
  let (outcome, vb) := request.applyVirtualBlock realHeight schedule.lianaVirtualBlock
  (outcome, { plan with lianaVirtualBlock := vb })

end SaveConfigRequest

end BroadcastPool
