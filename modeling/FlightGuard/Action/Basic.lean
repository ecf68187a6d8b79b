import FlightGuard.Duration

/-!
# Custom actions

A custom action is a procedure that the operator defines: a sequence of stages, each a vehicle
command with a wait behind it, or one script.  Where both are given the stages count.

Times are kept in seconds as they were given.  A wait that is negative or not finite is no wait; a
time limit that is negative or not finite is no limit.
-/

namespace FlightGuard

/-- What became of a custom action or of one of its stages. -/
inductive Outcome where
  | unknown
  | success
  | inProgress
  | failed
  | canceled
deriving DecidableEq, Repr

/-- How the numbers of a vehicle command are sent. -/
inductive Encoding where
  | long
  | integer
deriving DecidableEq, Repr

/-- The vehicle command of a stage. -/
structure VehicleCommand where
  encoding : Encoding
  code : UInt16
  targetSystem : UInt8
  targetComponent : UInt8
  parameters : Vector Float32 7
deriving DecidableEq

/-- A command with all its numbers zero. -/
def VehicleCommand.ofCode (code : UInt16) : VehicleCommand :=
  ⟨.long, code, 0, 0, .replicate 7 0⟩

/-- One step of an action: a command and the seconds to wait behind it. -/
structure Stage where
  command : VehicleCommand
  seconds : Float
deriving DecidableEq

namespace Stage

/-- A stage with a given wait. -/
def ofDuration (command : VehicleCommand) (wait : Duration) : Stage :=
  ⟨command, wait.toSeconds⟩

/-- The wait behind the command. -/
def wait (stage : Stage) : Except DurationError Duration :=
  if stage.seconds.isFinite && 0.0 < stage.seconds then Duration.ofSeconds stage.seconds
  else .ok .zero

end Stage

/-- A procedure with its number. -/
structure CustomAction where
  id : UInt32
  stages : List Stage
  script : Option String
  limitSeconds : Option Float
deriving DecidableEq

namespace CustomAction

/-- An action made of stages. -/
def ofStages (id : UInt32) (stages : List Stage) : CustomAction :=
  ⟨id, stages, none, none⟩

/-- An action made of one script. -/
def ofScript (id : UInt32) (script : String) (limit : Option Duration) : CustomAction :=
  ⟨id, [], some script, limit.map Duration.toSeconds⟩

/-- The time that the script may take, if there is a limit. -/
def limit (action : CustomAction) : Except DurationError (Option Duration) :=
  match action.limitSeconds with
  | some seconds =>
      if seconds.isFinite && 0.0 ≤ seconds then (Duration.ofSeconds seconds).map some
      else .ok none
  | none => .ok none

end CustomAction

/--
How far an action has come: the progress in percent, the outcome so far, and whether the executor
is done with it.
-/
structure Execution where
  action : CustomAction
  progress : Float32
  outcome : Outcome
  consumed : Bool
deriving DecidableEq

namespace Execution

/-- An action that has just begun. -/
def start (action : CustomAction) : Execution :=
  ⟨action, 0, .inProgress, false⟩

/-- The progress in percent after some of all stages, computed in singles. -/
def stageProgress (done total : Nat) : Float32 :=
  done.toFloat32 / total.toFloat32 * 100

end Execution

end FlightGuard
