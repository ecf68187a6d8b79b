import FlightGuard.Configuration.Basic
import FlightGuard.Document.Decoder
import FlightGuard.Document.Writer

/-!
# The written form of a configuration

How a configuration is read from a document and what is written of it.  A mode or a reaction with
an unknown name is read as the one that does nothing or is not supported.
-/

namespace FlightGuard

open Decoder

variable [NumberReading]

namespace Mode

/-- The written names of the modes. -/
def names : List (String × Mode) :=
  [("SAFE_LANDING", .safeLanding),
   ("SIMPLE_COLLISION_AVOIDANCE", .collisionAvoidance),
   ("DISABLED", .disabled)]

/-- The written name of a mode. -/
def word : Mode → String
  | .safeLanding => "SAFE_LANDING"
  | .collisionAvoidance => "SIMPLE_COLLISION_AVOIDANCE"
  | .disabled => "DISABLED"

/-- Reads a mode. -/
def decoder : Decoder Mode := choice names (some .disabled)

end Mode

namespace Reaction

/-- The written name of a reaction. -/
def word : Reaction → String
  | .hold => "HOLD"
  | .returnToLaunch => "RTL"
  | .land => "LAND"
  | .moveByBodyOffset => "MOVE_XYZ_WRT_CURRENT"
  | .goToWaypoint => "GO_TO_WAYPOINT"
  | .goToLocalWaypoint => "GO_TO_WAYPOINT_XYZ"
  | .moveByAngles => "MOVE_LLA_WRT_CURRENT"
  | .callScript => "SCRIPT_CALL"
  | .callService => "API_CALL"
  | .unsupported => "UNSUPPORTED"

/-- All reactions. -/
def all : List Reaction :=
  [.hold, .returnToLaunch, .land, .moveByBodyOffset, .goToWaypoint, .goToLocalWaypoint,
   .moveByAngles, .callScript, .callService, .unsupported]

/-- The written names of the reactions. -/
def names : List (String × Reaction) :=
  all.map fun reaction => (reaction.word, reaction)

/-- Reads a reaction. -/
def decoder : Decoder Reaction := choice names (some .unsupported)

end Reaction

/-- The fields of a waypoint. -/
def waypointFields : List (RecordField GlobalPosition) :=
  [.withDefault "lat_deg" double fun position value => { position with latitude := value },
   .withDefault "lon_deg" double fun position value => { position with longitude := value },
   .withDefault "alt_amsl_m" double fun position value => { position with altitude := value }]

/-- Reads a waypoint. -/
def waypointDecoder : Decoder GlobalPosition := record waypointFields .zero

/-- What is written of a waypoint. -/
def waypointContent (position : GlobalPosition) : Content :=
  .record
    [("lat_deg", .double position.latitude),
     ("lon_deg", .double position.longitude),
     ("alt_amsl_m", .double position.altitude)]

namespace BodyOffset

/-- The fields of an offset. -/
def fields : List (RecordField BodyOffset) :=
  [.withDefault "x_m" double fun offset value => { offset with forward := value },
   .withDefault "y_m" double fun offset value => { offset with right := value },
   .withDefault "z_m" double fun offset value => { offset with up := value }]

/-- Reads an offset. -/
def decoder : Decoder BodyOffset := record fields .zero

/-- What is written of an offset. -/
def content (offset : BodyOffset) : Content :=
  .record
    [("x_m", .double offset.forward),
     ("y_m", .double offset.right),
     ("z_m", .double offset.up)]

end BodyOffset

namespace LandingPolicy

/-- The fields of a landing policy. -/
def fields : List (RecordField LandingPolicy) :=
  [.withDefault "enabled" truth fun policy value => { policy with enabled := value },
   .withDefault "on_no_safe_land" Reaction.decoder fun policy value =>
     { policy with reaction := value },
   .withDefault "try_landing_after_action" truth fun policy value =>
     { policy with retryLanding := value },
   .withDefault "waypoint" waypointDecoder fun policy value => { policy with waypoint := value },
   .withDefault "offset" BodyOffset.decoder fun policy value => { policy with offset := value }]

/-- Reads a landing policy. -/
def decoder : Decoder LandingPolicy := record fields .default

/-- What is written of a landing policy. -/
def content (policy : LandingPolicy) : Content :=
  .record
    [("enabled", .truth policy.enabled),
     ("on_no_safe_land", .word policy.reaction.word),
     ("try_landing_after_action", .truth policy.retryLanding),
     ("waypoint", waypointContent policy.waypoint),
     ("offset", policy.offset.content)]

end LandingPolicy

namespace AvoidancePolicy

/-- The fields of an obstacle policy. -/
def fields : List (RecordField AvoidancePolicy) :=
  [.withDefault "enabled" truth fun policy value => { policy with enabled := value },
   .withDefault "distance_threshold_m" single fun policy value =>
     { policy with threshold := value },
   .withDefault "action_on_trigger" Reaction.decoder fun policy value =>
     { policy with reaction := value }]

/-- Reads an obstacle policy. -/
def decoder : Decoder AvoidancePolicy := record fields .default

/-- What is written of an obstacle policy. -/
def content (policy : AvoidancePolicy) : Content :=
  .record
    [("enabled", .truth policy.enabled),
     ("distance_threshold_m", .single policy.threshold),
     ("action_on_trigger", .word policy.reaction.word)]

end AvoidancePolicy

namespace Configuration

/-- The fields of a configuration. -/
def fields : List (RecordField Configuration) :=
  [.withDefault "enabled" truth fun configuration value => { configuration with enabled := value },
   .withDefault "mode" Mode.decoder fun configuration value => { configuration with mode := value },
   .withDefault "safe_landing" LandingPolicy.decoder fun configuration value =>
     { configuration with landing := value },
   .withDefault "collision_avoidance" AvoidancePolicy.decoder fun configuration value =>
     { configuration with avoidance := value }]

/-- Reads a configuration. -/
def decoder : Decoder Configuration := record fields .default

/-- What is written of a configuration. -/
def content (configuration : Configuration) : Content :=
  .record
    [("enabled", .truth configuration.enabled),
     ("mode", .word configuration.mode.word),
     ("safe_landing", configuration.landing.content),
     ("collision_avoidance", configuration.avoidance.content)]

end Configuration

end FlightGuard
