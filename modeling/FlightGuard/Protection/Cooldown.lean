/-!
# Cooldown

A protective reaction blocks further ones until five seconds have passed.  Instants are
microseconds of the wall clock, which may be before its epoch.
-/

namespace FlightGuard

/-- Whether a reaction is still blocking others, and when the latest one took place. -/
structure Cooldown where
  triggered : Bool
  lastTrigger : Option Int
deriving DecidableEq, Repr

namespace Cooldown

/-- How long a reaction blocks others, in microseconds. -/
def length : Int := 5000000

/-- No reaction took place. -/
def idle : Cooldown := ⟨false, none⟩

/-- A reaction takes place. -/
def mark (_ : Cooldown) (now : Int) : Cooldown := ⟨true, some now⟩

/-- Whether a blocking reaction has run its time. -/
def isOver (cooldown : Cooldown) (now : Int) : Bool :=
  cooldown.triggered && cooldown.lastTrigger.any fun instant => length ≤ now - instant

/-- Lets a reaction that has run its time stop blocking. -/
def expire (cooldown : Cooldown) (now : Int) : Cooldown :=
  if cooldown.isOver now then { cooldown with triggered := false } else cooldown

end Cooldown

end FlightGuard
