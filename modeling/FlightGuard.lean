import FlightGuard.Supervisor
import FlightGuard.Document.Writer
import FlightGuard.Proofs.Watch.GreedyCooldown
import FlightGuard.Proofs.Runner.Cancellation
import FlightGuard.Proofs.Watch.TickCommands
import FlightGuard.Proofs.Runner.StepModel
import FlightGuard.Proofs.Runner.Orders
import FlightGuard.Proofs.Runner.Conclusion
import FlightGuard.Proofs.Runner.CancelledAction
import FlightGuard.Proofs.Runner.Acceptance
import FlightGuard.Proofs.Runner.Succession
import FlightGuard.Proofs.Runner.Survival
import FlightGuard.Proofs.Runner.Shutdown
import FlightGuard.Proofs.Watch.Obstacles
import FlightGuard.Proofs.Landing.Debouncing
import FlightGuard.Proofs.Landing.Permission
import FlightGuard.Proofs.Watch.Repositions
import FlightGuard.Proofs.Watch.LandingRetries
import FlightGuard.Proofs.Watch.Answers
import FlightGuard.Proofs.Watch.Phases
import FlightGuard.Proofs.Runner.History
import FlightGuard.Proofs.Watch.Overruling
import FlightGuard.Proofs.Configuration.Provisioning
import FlightGuard.Proofs.Watch.FiniteGoals
import FlightGuard.Proofs.Runner.Results
import FlightGuard.Proofs.Document.Contents
import FlightGuard.Proofs.Landing.Hysteresis
import FlightGuard.Proofs.Landing.Readings
import FlightGuard.Proofs.Action.Progress
import FlightGuard.Proofs.Action.Resending
import FlightGuard.Proofs.Watch.Reactions
import FlightGuard.Proofs.Runner.Glimpses
import FlightGuard.Proofs.Runner.Outcome
import FlightGuard.Proofs.Runner.Aftermath
import FlightGuard.Proofs.Runner.Reporting
import FlightGuard.Proofs.Runner.Timetable
import FlightGuard.Proofs.Supervision.Mission
import FlightGuard.Proofs.Supervision.CleanShutdown
import FlightGuard.Proofs.Action.CancellableWait
import FlightGuard.Proofs.Runner.CatalogRequests
import FlightGuard.Proofs.Document.Grammar
import FlightGuard.Proofs.Document.Layouts
import FlightGuard.Proofs.Document.Rearranging
import FlightGuard.Proofs.Configuration.RearrangedTexts
import FlightGuard.Proofs.Configuration.RoundTrip
