import FlightGuard.Landing.Monitor
import FlightGuard.Obstacle
import FlightGuard.Protection.Sentinel

/-!
# Watching the vehicle

A watch joins the feeds of a flight with the sentinel: telemetry, perception and configuration
come in one at a time, and each tick decides on what is known by then.  The age of readings is
told by a clock of its own, in microseconds, apart from the wall clock of the ticks.
-/

namespace FlightGuard

/-- The latest word of every feed, and the clock that tells its age. -/
structure Feeds where
  clock : Nat
  configuration : Configuration
  telemetry : Telemetry
  landing : Landing.Monitor
  obstacle : Obstacle.Monitor
deriving DecidableEq

/-- News of one feed. -/
inductive Feed where
  | telemetry (report : Telemetry.Report)
  | configuration (value : Configuration)
  | landing (raw : Landing.Classification)
  | noLandingData
  | obstacle (distance : Float32)
  | time (microseconds : Nat)
deriving DecidableEq

namespace Feeds

/-- Nothing was reported under a configuration yet. -/
def initial (configuration : Configuration) : Feeds :=
  ⟨0, configuration, .unknown, .empty, .empty⟩

/-- Takes in news. -/
def update (feeds : Feeds) : Feed → Feeds
  | .telemetry report => { feeds with telemetry := feeds.telemetry.update report }
  | .configuration value => { feeds with configuration := value }
  | .landing raw => { feeds with landing := feeds.landing.push feeds.clock raw }
  | .noLandingData => { feeds with landing := feeds.landing.markNoData }
  | .obstacle distance =>
      { feeds with obstacle := feeds.obstacle.update feeds.clock distance }
  | .time microseconds => { feeds with clock := feeds.clock + microseconds }

/-- What a tick sees. -/
def situation (feeds : Feeds) : Situation :=
  ⟨feeds.configuration, feeds.telemetry, feeds.landing.current feeds.clock,
   feeds.obstacle.distance feeds.clock⟩

end Feeds

/-- The feeds of a flight and the sentinel over them. -/
structure Watch where
  feeds : Feeds
  sentinel : Sentinel
deriving DecidableEq

namespace Watch

/-- A watch at its beginning. -/
def initial (configuration : Configuration) : Watch :=
  ⟨.initial configuration, .idle⟩

/-- What happens to a watch: news of a feed, or a tick at an instant of the wall clock. -/
inductive Event where
  | feed (news : Feed)
  | tick (now : Int)
deriving DecidableEq

/-- Takes in news. -/
def update (watch : Watch) (news : Feed) : Watch :=
  { watch with feeds := watch.feeds.update news }

/-- Decides at an instant of the wall clock and sends the signals over the link. -/
def tick (watch : Watch) (link : Link) (now : Int) : Watch × List Transmission :=
  let (sentinel, signals) := watch.sentinel.tick watch.feeds.situation now
  ({ watch with sentinel }, link.transmit signals)

/-- One event. -/
def step (watch : Watch) (link : Link) : Event → Watch × List Transmission
  | .feed news => (watch.update news, [])
  | .tick now => watch.tick link now

/--
A run of events, each under the link as it answers at that time, with all that was sent in its
order.
-/
def run (watch : Watch) : List (Link × Event) → Watch × List Transmission
  | [] => (watch, [])
  | (link, event) :: events =>
      let (next, sent) := watch.step link event
      let (last, later) := next.run events
      (last, sent ++ later)

end Watch

end FlightGuard
