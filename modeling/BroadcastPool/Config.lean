import BroadcastPool.Db.Models

/-!
# `BroadcastPool.Config`: the configuration the pool reads

`Config` holds the fields that the modelled code reads. The network is its
`data_dir_name` text, since no code here looks at the enumeration behind it.
-/

set_option autoImplicit false

namespace BroadcastPool

/-- `BroadcastMode`. -/
inductive BroadcastMode
  | immediate | scheduled | byBlock | manual
deriving DecidableEq, Repr

/-- `Display for BroadcastMode`, the text stored in the `broadcast_mode` column. -/
def BroadcastMode.toText : BroadcastMode → String
  | immediate => "immediate"
  | scheduled => "scheduled"
  | byBlock => "by_block"
  | manual => "manual"

/-- `LianaVirtualBlockConfig`. -/
structure LianaVirtualBlockConfig where
  enabled : Bool := false
  targetHeight : Nat := 0
  armedAtHeight : Nat := 0
deriving DecidableEq, Repr

/-- `ScheduleConfig`. -/
structure ScheduleConfig where
  broadcastMode : BroadcastMode := .immediate
  scheduledDatetime : Option String := none
  lianaVirtualBlock : LianaVirtualBlockConfig := {}
  minDelayHours : Nat := 2
  maxDelayHours : Nat := 72
  minFeeRate : F64 := ⟨0x3FF0000000000000⟩
  maxFeeRate : F64 := ⟨0x4049000000000000⟩
deriving DecidableEq, Repr

/-- `Config`. -/
structure Config where
  /-- `network.network_type.data_dir_name()` -/
  network : String
  /-- `indexer.url` -/
  indexerUrl : Option String := none
  /-- `pool.rebroadcast_interval_minutes` -/
  rebroadcastIntervalMinutes : Nat := 30
  /-- `pool.expiry_days` -/
  expiryDays : Nat := 30
  schedule : ScheduleConfig := {}
deriving DecidableEq, Repr

end BroadcastPool
