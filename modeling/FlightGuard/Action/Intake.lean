import FlightGuard.Action.Catalog

/-!
# Intake of custom actions

Accepted actions are numbered in their order.  One of them may be pending; a newer one takes its
place before it has started.  The history lists the accepted actions that are not finished.

The autopilot repeats a command that it did not see acknowledged, so an action with the number of
the one accepted last is a duplicate for a second and a half.
-/

namespace FlightGuard

/-- Why an action is not accepted. -/
inductive Rejection where
  | duplicate (id : UInt32)
  | unknownAction (id : UInt32)
  | catalog (error : LoadError)
deriving DecidableEq, Repr

/-- The text of a rejection; the wording of a catalog's fault is the caller's. -/
def Rejection.message (cause : String) : Rejection → String
  | .duplicate id => "custom action #" ++ toString id ++ " repeated too early"
  | .unknownAction id => "no metadata for custom action #" ++ toString id
  | .catalog error => "custom action metadata unavailable: " ++ error.message cause

/-- The action with a number in a catalog file. -/
def Catalog.lookUp (file : StoredFile) (path : String) (id : UInt32) :
    Except Rejection CustomAction :=
  match file.load path Catalog.decoder with
  | .error error => .error (.catalog error)
  | .ok catalog =>
      match catalog.resolve? id with
      | some action => .ok action
      | none => .error (.unknownAction id)

/-- An accepted action with its place in the order of acceptance. -/
structure Job where
  order : Nat
  action : CustomAction
deriving DecidableEq

/-- The accepted actions, the pending one, and the latest acceptance in microseconds. -/
structure Intake where
  history : List Job
  pending : Option Job
  nextOrder : Nat
  lastAccepted : Option (UInt32 × Nat)
deriving DecidableEq

namespace Intake

/-- How long a repeated number is a duplicate, in microseconds. -/
def repeatSpacing : Nat := 1500000

/-- Nothing was offered. -/
def empty : Intake := ⟨[], none, 0, none⟩

/-- Whether an action with a number is a duplicate; time that runs backwards counts as none. -/
def isDuplicate (intake : Intake) (id : UInt32) (now : Nat) : Bool :=
  intake.lastAccepted.any fun last => last.1 == id && now - last.2 < repeatSpacing

/-- Accepts an action into the history and as the pending one, or rejects it as a duplicate. -/
def offer (intake : Intake) (action : CustomAction) (now : Nat) :
    Except Rejection (Nat × Intake) :=
  if intake.isDuplicate action.id now then .error (.duplicate action.id)
  else
    let job : Job := ⟨intake.nextOrder, action⟩
    .ok (intake.nextOrder,
      ⟨intake.history ++ [job], some job, intake.nextOrder + 1, some (action.id, now)⟩)

/-- Takes the pending action out. -/
def take (intake : Intake) : Intake :=
  { intake with pending := none }

/-- Drops all that was accepted up to a place in the order. -/
def retire (intake : Intake) (order : Nat) : Intake :=
  { intake with history := intake.history.filter fun job => order < job.order }

end Intake

end FlightGuard
