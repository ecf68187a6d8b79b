import FlightGuard.Number.Rounding

/-!
# Global positions

Latitude and longitude in degrees and the altitude above mean sea level in meters.  Two positions
count as the same waypoint when each component agrees within a fixed tolerance; an undefined
component agrees with nothing.
-/

namespace FlightGuard

/-- A place on the globe with its altitude. -/
structure GlobalPosition where
  latitude : Float
  longitude : Float
  altitude : Float
deriving DecidableEq

/-- The number that stands for an unknown quantity. -/
def unknownNumber : Float := 0 / 0

namespace GlobalPosition

/-- Horizontal acceptance of a waypoint in degrees. -/
def horizontalTolerance : Float := 1.0e-5

/-- Vertical acceptance of a waypoint in meters. -/
def verticalTolerance : Float := 1.0

/-- The position of a vehicle that has not reported one. -/
def unknown : GlobalPosition := ⟨unknownNumber, unknownNumber, unknownNumber⟩

/-- Whether all three components are finite numbers. -/
def isFinite (position : GlobalPosition) : Bool :=
  position.latitude.isFinite && position.longitude.isFinite && position.altitude.isFinite

/-- Whether the other position lies in the acceptance box around this one. -/
def isNear (position other : GlobalPosition) : Bool :=
  (position.latitude - other.latitude).abs ≤ horizontalTolerance
    && (position.longitude - other.longitude).abs ≤ horizontalTolerance
    && (position.altitude - other.altitude).abs ≤ verticalTolerance

/-- The operator's text of a position: seven decimals for angles, two for the altitude. -/
def text (position : GlobalPosition) : String :=
  "[lat " ++ fixedText 7 position.latitude ++ " deg, lon " ++ fixedText 7 position.longitude
    ++ " deg, alt " ++ fixedText 2 position.altitude ++ " m AMSL]"

end GlobalPosition

end FlightGuard
