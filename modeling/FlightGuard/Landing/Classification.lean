/-!
# Landing site classification

What the perception mapper says about the ground below the vehicle, one value per camera frame.
-/

namespace FlightGuard.Landing

/-- One judgement of the landing site. -/
inductive Classification where
  | unknown
  | canLand
  | closeToGround
  | cannotLand
deriving DecidableEq, Repr

/-- Reads the mapper's numeric code; every code without a meaning is `unknown`. -/
def Classification.ofCode (code : UInt8) : Classification :=
  if code = 1 then .canLand
  else if code = 2 then .closeToGround
  else if code = 3 then .cannotLand
  else .unknown

end FlightGuard.Landing
