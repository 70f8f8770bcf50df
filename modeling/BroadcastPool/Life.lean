import BroadcastPool.Activity

/-!
# `BroadcastPool.Life`: the daemon from one start to the next

A `Life` is a start of the daemon and a schedule of what it does until it is stopped. The start
runs on its own: `main` opens the database and rebuilds the virtual mempool before it starts
the loops and the servers. When the process ends, its running programs are lost, and only the
database goes on to the next life.

`walletBroadcast` is the whole work of the daemon for one broadcast of a wallet. Between its
first action and the rest, the wallet has its answer.
-/

set_option autoImplicit false

namespace BroadcastPool

open Effects

/-- The work for one broadcast: the store before the answer, and the background task after it.
A text that is no transaction is answered with an error and nothing else. -/
def walletBroadcast (env : Env) (txHex sourceLabel : String) : M Unit :=
  match computeTxid env (Text.trim txHex) with
  | .ok txid => do
    storePendingOutputs env .daemon txid txHex
    ingestTask env .daemon txHex sourceLabel
  | .error _ => pure ()

/-- The daemon from one start to the next. -/
structure Life where
  rpc : Bool
  indexer : Bool
  config : Config
  schedule : List (Choice Act Act.Res Failure)

/-- The work that a life does not consist of: a start of the daemon, and the two parts of a
broadcast, which `walletBroadcast` puts together. -/
def Activity.isPart : Activity → Bool
  | restart .. | preAck _ | ingest .. => true
  | _ => false

namespace Life
variable (env : Env) (life : Life)

/-- The start of the daemon. -/
def start : M Unit := startUp env .daemon life.rpc life.indexer life.config

/-- The world after the start. -/
def started (w : World) : World := ((life.start env).run (World.exec env) w).2

/-- The world and the running programs after the whole schedule. -/
def ending (w : World) : Effects.Config Act Act.Res Failure World :=
  Effects.Config.exec (World.exec env) ⟨life.started env w, []⟩ life.schedule

/-- Everything that is started is a wallet's broadcast, a pass of a loop, a request or a command
line. -/
def IsSchedule : Prop :=
  ∀ p, Choice.start p ∈ life.schedule →
    (∃ txHex source, p = walletBroadcast env txHex source) ∨
      ∃ a : Activity, a.isPart = false ∧ p = a.prog env

end Life

/-- The world after some lives. -/
def World.afterLives (env : Env) (w : World) (lives : List Life) : World :=
  lives.foldl (fun w life => (life.ending env w).state) w

end BroadcastPool
