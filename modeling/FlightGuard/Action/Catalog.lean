import FlightGuard.Action.Form
import FlightGuard.Storage

/-!
# The custom action catalog

The actions that an operator has written down in a file, to be called by their numbers.  Of two
actions with the same number the first one counts.
-/

namespace FlightGuard

/-- The listed actions in their order. -/
structure Catalog where
  actions : List CustomAction
deriving DecidableEq

namespace Catalog

variable [NumberReading]

/-- The fields of a catalog. -/
def fields : List (Decoder.RecordField Catalog) :=
  [.withDefault "actions" (Decoder.listOf CustomAction.decoder) fun catalog value =>
     { catalog with actions := value }]

/-- Reads a catalog. -/
def decoder : Decoder Catalog := Decoder.record fields ⟨[]⟩

/-- The first action with a number. -/
def resolve? (catalog : Catalog) (id : UInt32) : Option CustomAction :=
  catalog.actions.find? (·.id == id)

end Catalog

end FlightGuard
