import FlightGuard.Action.Basic
import FlightGuard.Document.Decoder

/-!
# The written form of custom actions

How an operator writes an action down.  The number of an action and the code of a command must be
given; all else has a default.
-/

namespace FlightGuard

open Decoder

variable [NumberReading]

/-- Reads the encoding of a command. -/
def Encoding.decoder : Decoder Encoding :=
  choice [("LONG", .long), ("INT", .integer)] none

namespace VehicleCommand

/-- The fields of a command. -/
def fields : List (RecordField VehicleCommand) :=
  [.withDefault "kind" Encoding.decoder fun command value => { command with encoding := value },
   .mandatory "command" (natural UInt16.size) fun command value =>
     { command with code := .ofNat value },
   .withDefault "target_system" (natural UInt8.size) fun command value =>
     { command with targetSystem := .ofNat value },
   .withDefault "target_component" (natural UInt8.size) fun command value =>
     { command with targetComponent := .ofNat value },
   .withDefault "params" (exactly 7 single) fun command value =>
     { command with parameters := value }]

/-- Reads a command. -/
def decoder : Decoder VehicleCommand := record fields (.ofCode 0)

end VehicleCommand

namespace Stage

/-- The fields of a stage. -/
def fields : List (RecordField Stage) :=
  [.mandatory "command" VehicleCommand.decoder fun stage value => { stage with command := value },
   .withDefault "duration_s" double fun stage value => { stage with seconds := value }]

/-- Reads a stage. -/
def decoder : Decoder Stage := record fields ⟨.ofCode 0, 0⟩

end Stage

namespace CustomAction

/-- The fields of an action. -/
def fields : List (RecordField CustomAction) :=
  [.mandatory "id" (natural UInt32.size) fun action value => { action with id := .ofNat value },
   .withDefault "stages" (listOf Stage.decoder) fun action value =>
     { action with stages := value },
   .withDefault "global_script" (optional text) fun action value =>
     { action with script := value },
   .withDefault "global_timeout_s" (optional double) fun action value =>
     { action with limitSeconds := value }]

/-- Reads an action. -/
def decoder : Decoder CustomAction := record fields (.ofStages 0 [])

end CustomAction

end FlightGuard
