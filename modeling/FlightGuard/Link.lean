import FlightGuard.Action.Basic
import FlightGuard.Position.Global

/-!
# The vehicle link

Everything that leaves for the autopilot is one of the calls below.  A link says how each call is
answered.  Flight commands, messages and progress reports are answered at once; a stage or a
script takes its time, and may never come back.
-/

namespace FlightGuard

/-- Why the autopilot did not carry out a call. -/
inductive LinkError where
  | rejected
  | timeout
  | noConnection
  | unsupported
  | unknown
deriving DecidableEq, Repr

/-- The name of an error in messages. -/
def LinkError.name : LinkError → String
  | .rejected => "Rejected"
  | .timeout => "Timeout"
  | .noConnection => "NoConnection"
  | .unsupported => "Unsupported"
  | .unknown => "Unknown"

/-- A command to the vehicle in flight. -/
inductive FlightCommand where
  | hold
  | returnToLaunch
  | goTo (position : GlobalPosition) (heading : Float)
  | land
deriving DecidableEq

/-- How urgent a message to the operator is. -/
inductive Severity where
  | info
  | warning
  | critical
deriving DecidableEq, Repr

/-- What the decisions send: a flight command or a message to the operator. -/
inductive Signal where
  | command (value : FlightCommand)
  | message (severity : Severity) (text : String)
deriving DecidableEq

/-- The progress of an action as the autopilot gets to know it. -/
structure ProgressReport where
  id : UInt32
  progress : Float32
  outcome : Outcome
deriving DecidableEq

/-- How a stage or a script is answered: after some milliseconds or never, and with what. -/
structure Reply where
  delay : Option Nat
  outcome : Except LinkError Outcome

/-- The answer that comes at once and says that all went well. -/
def Reply.immediate : Reply := ⟨some 0, .ok .success⟩

/-- The answers of an autopilot; a signal or a report without an error was accepted. -/
structure Link where
  signal : Signal → Option LinkError
  report : ProgressReport → Option LinkError
  stage : Stage → Reply
  script : String → Reply

/-- A link on which everything is answered at once and goes well. -/
def Link.accepting : Link :=
  ⟨fun _ => none, fun _ => none, fun _ => .immediate, fun _ => .immediate⟩

/-- A signal that was sent, and its answer. -/
structure Transmission where
  signal : Signal
  answer : Option LinkError
deriving DecidableEq

/-- Sends signals one after another. -/
def Link.transmit (link : Link) (signals : List Signal) : List Transmission :=
  signals.map fun signal => ⟨signal, link.signal signal⟩

end FlightGuard
