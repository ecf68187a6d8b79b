import FlightGuard.Position.Global

/-!
# Local positions and their projection onto the globe

A local position counts meters north, east and down from the origin of the vehicle's local frame.
`Origin.project` places it on a spherical globe by the azimuthal equidistant projection around
that origin: distance and bearing from the origin are kept.
-/

namespace FlightGuard

/-- Meters north, east and down of the local frame's origin. -/
structure LocalPosition where
  north : Float
  east : Float
  down : Float
deriving DecidableEq

/-- Latitude and longitude in degrees of the local frame's origin. -/
structure Origin where
  latitude : Float
  longitude : Float
deriving DecidableEq

/-- Mean radius of the globe in meters. -/
def globeRadius : Float := 6371000.0

/-- The circle constant. -/
def circleConstant : Float := 3.141592653589793

/-- Degrees as radians. -/
def radiansOfDegrees (degrees : Float) : Float := degrees * (circleConstant / 180.0)

/-- Radians as degrees. -/
def degreesOfRadians (radians : Float) : Float := radians * (180.0 / circleConstant)

/--
The length of the hypotenuse over two legs.  The legs are divided by the longer one first, so
that squares of very short or very long legs neither vanish nor overflow; an infinite leg makes
the length infinite whatever the other one is.
-/
def hypotenuse (first second : Float) : Float :=
  let longer := if second.abs ≤ first.abs then first.abs else second.abs
  if first.isInf || second.isInf then 1.0 / 0.0
  else if longer == 0.0 then longer
  else
    let firstShare := first / longer
    let secondShare := second / longer
    longer * (firstShare * firstShare + secondShare * secondShare).sqrt

namespace LocalPosition

/-- The position of a vehicle that has not reported one. -/
def unknown : LocalPosition := ⟨unknownNumber, unknownNumber, unknownNumber⟩

/--
Moves a position by meters forward and to the right of a vehicle with the given heading in
radians.  The height is left as it is.
-/
def offsetByBody (position : LocalPosition) (forward right yaw : Float) : LocalPosition :=
  let sine := yaw.sin
  let cosine := yaw.cos
  ⟨cosine * forward - sine * right + position.north,
   sine * forward + cosine * right + position.east,
   position.down⟩

end LocalPosition

namespace Origin

/-- Latitude and longitude in degrees of a local position; the origin itself at no distance. -/
def project (origin : Origin) (position : LocalPosition) : Float × Float :=
  let northAngle := position.north / globeRadius
  let eastAngle := position.east / globeRadius
  let arc := hypotenuse northAngle eastAngle
  let latitude := radiansOfDegrees origin.latitude
  let longitude := radiansOfDegrees origin.longitude
  let projected : Float × Float :=
    if arc == 0.0 then (latitude, longitude)
    else
      ((arc.cos * latitude.sin + northAngle * arc.sin * latitude.cos / arc).asin,
       longitude + (eastAngle * arc.sin).atan2
        (arc * latitude.cos * arc.cos - northAngle * latitude.sin * arc.sin))
  (degreesOfRadians projected.1, degreesOfRadians projected.2)

end Origin

end FlightGuard
