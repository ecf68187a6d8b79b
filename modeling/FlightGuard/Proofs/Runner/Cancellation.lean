import FlightGuard.Proofs.Runner.Moves
import Mathlib.Tactic.Common

/-!
# A cancellation stays within its action

The flag of the cancellation, the record and the mark on it that the action is over are changed by
clients, by the executor and by the end of an action.  Over every interleaving of these the record
is in the state that the position of the worker tells, and a flag that is up has a record that is
not consumed.  So no action starts under the flag of another one, and nothing is left to sweep
when a record is gone.
-/

namespace FlightGuard

/-- Whether there is a record, and whether it is consumed. -/
inductive RecordState where
  | absent
  | running
  | consumed
deriving DecidableEq, Repr

namespace RecordState

/-- The state of a record. -/
def ofRecord : Option Execution → RecordState
  | none => .absent
  | some execution => if execution.consumed then .consumed else .running

theorem ofRecord_eq_running_iff (record : Option Execution) :
    ofRecord record = .running ↔
      ∃ execution, record = some execution ∧ execution.consumed = false := by
  cases record with
  | none => simp [ofRecord]
  | some execution => cases consumed : execution.consumed <;> simp [ofRecord, consumed]

theorem ofRecord_eq_absent_iff (record : Option Execution) :
    ofRecord record = .absent ↔ record = none := by
  cases record with
  | none => simp [ofRecord]
  | some execution => cases consumed : execution.consumed <;> simp [ofRecord, consumed]

/-- Progress and outcome are no part of the state of a record. -/
theorem ofRecord_map {change : Execution → Execution}
    (kept : ∀ execution, (change execution).consumed = execution.consumed)
    (record : Option Execution) :
    ofRecord (record.map change) = ofRecord record := by
  cases record with
  | none => rfl
  | some execution => simp [ofRecord, kept]

theorem ofRecord_consume {record : Option Execution} (running : ofRecord record = .running) :
    ofRecord (record.map fun execution => { execution with consumed := true }) = .consumed := by
  rcases (ofRecord_eq_running_iff record).mp running with ⟨execution, rfl, _⟩
  rfl

/-- Only a record that is not consumed is reported. -/
theorem running_of_openReport {record : Option Execution} {report : ProgressReport}
    (told : Runner.openReport record = some report) : ofRecord record = .running := by
  rcases Option.map_eq_some_iff.mp told with ⟨execution, found, _⟩
  rcases Option.filter_eq_some_iff.mp found with ⟨recorded, running⟩
  exact (ofRecord_eq_running_iff record).mpr ⟨execution, recorded, by simpa using running⟩

end RecordState

/-- The state of the record while an action is at an activity. -/
def Activity.recordState : Activity → RecordState
  | .opening | .sweeping | .retiring => .absent
  | .lingering => .consumed
  | .staging _ _ | .calling _ _ _ _ _ | .resting _ _ _ | .scripting | .awaiting _ _
  | .settling _ => .running

/-- The state of the record while the worker stands somewhere. -/
def Worker.recordState : Worker → RecordState
  | .looking | .parked | .ended => .absent
  | .busy _ activity => activity.recordState
  | .failed => .running

namespace CancelSignal

theorem apply_set_released (signal : CancelSignal) (raised : Bool) :
    (signal.apply (.set raised)).released = signal.released := by
  rw [apply]
  split <;> rfl

theorem apply_set_raised {signal : CancelSignal} (kept : signal.released = false)
    (raised : Bool) : (signal.apply (.set raised)).raised = raised := by
  simp [apply, kept]

end CancelSignal

namespace Runner

/--
The record is in the state that the position of the worker tells, a flag that is up has a running
record, and nobody has let go of the flag.
-/
structure Coherent (runner : Runner) : Prop where
  record : RecordState.ofRecord runner.record = runner.worker.recordState
  raised : runner.signal.raised = true → RecordState.ofRecord runner.record = .running
  kept : runner.signal.released = false

theorem isCancellable_iff (runner : Runner) :
    runner.isCancellable = true ↔ RecordState.ofRecord runner.record = .running := by
  rw [isCancellable, RecordState.ofRecord_eq_running_iff, Option.any_eq_true]
  simp

theorem ofRecord_setOutcome (runner : Runner) (outcome : Outcome) :
    RecordState.ofRecord (runner.setOutcome outcome).record =
      RecordState.ofRecord runner.record :=
  RecordState.ofRecord_map (by intro execution; rfl) _

theorem ofRecord_setProgress (runner : Runner) (progress : Float32) (outcome : Outcome) :
    RecordState.ofRecord (runner.setProgress progress outcome).record =
      RecordState.ofRecord runner.record :=
  RecordState.ofRecord_map (by intro execution; rfl) _

namespace Coherent

theorem initial (clock : Nat) : (Runner.initial clock).Coherent :=
  ⟨rfl, fun raised => absurd raised Bool.false_ne_true, rfl⟩

/-- Where the record is not running the flag is down. -/
theorem lowered {runner : Runner} (coherent : runner.Coherent)
    (idle : runner.worker.recordState ≠ .running) : runner.signal.raised = false := by
  by_contra raised
  apply idle
  rw [← coherent.record]
  exact coherent.raised (Bool.not_eq_false _ ▸ raised)

/-- Nothing is lost by a change that the record state, the flag and the worker do not notice. -/
theorem congr {runner next : Runner} (coherent : runner.Coherent)
    (record : RecordState.ofRecord next.record = RecordState.ofRecord runner.record)
    (worker : next.worker.recordState = runner.worker.recordState)
    (signal : next.signal = runner.signal) : next.Coherent where
  record := by rw [record, worker, coherent.record]
  raised := by
    rw [signal, record]
    exact coherent.raised
  kept := by rw [signal, coherent.kept]

/-- A section of an action keeps record, flag and worker in step. -/
theorem actionSection {runner next : Runner} {link : Link} {job : Job} {activity : Activity}
    (coherent : runner.Coherent) (busy : runner.worker = .busy job activity)
    (performed : ActionSection link job runner activity next) : next.Coherent := by
  have record : RecordState.ofRecord runner.record = activity.recordState := by
    rw [coherent.record, busy, Worker.recordState]
  have same : ∀ other : Activity, other.recordState = activity.recordState →
      (Worker.busy job other).recordState = runner.worker.recordState := by
    intro other equal
    rw [busy]
    exact equal
  -- Opening, consuming and clearing change the state of the record, all else leaves it running.
  cases performed with
  | opens =>
      refine ⟨?_, fun _ => rfl, coherent.kept⟩
      rw [openJob]
      cases job.action.stages.isEmpty <;> rfl
  | runsOut => exact coherent.congr rfl (same _ rfl) rfl
  | dropsStage raised | cutsRest raised | dropsScript _ raised | cutsScript raised =>
      exact coherent.congr (runner.ofRecord_setOutcome .canceled) (same _ rfl) rfl
  | callsStage lowered => exact coherent.congr rfl (same _ rfl) rfl
  | rests answered fits => exact coherent.congr rfl (same _ rfl) rfl
  | falls answered overlong | fallsBeforeScript _ _ overlong =>
      exact coherent.congr rfl (busy ▸ rfl) rfl
  | completesLast lowered elapsed | completesStage lowered elapsed =>
      exact coherent.congr (runner.ofRecord_setProgress _ _) (same _ rfl) rfl
  | lacksScript missing =>
      exact coherent.congr (runner.ofRecord_setOutcome .failed) (same _ rfl) rfl
  | callsScript given lowered fits => exact coherent.congr rfl (same _ rfl) rfl
  | judges lowered ended =>
      rcases runner.judge_eq _ with ⟨change, kept, judged⟩
      rw [judged]
      exact coherent.congr (RecordState.ofRecord_map (fun execution => (kept execution).2) _)
        (same _ rfl) rfl
  | consumes elapsed =>
      refine ⟨RecordState.ofRecord_consume record, ?_, ?_⟩
      · intro raised
        have down := CancelSignal.apply_set_raised coherent.kept false
        exact absurd (down.symm.trans raised) Bool.false_ne_true
      · exact (CancelSignal.apply_set_released _ _).trans coherent.kept
  | clears alone =>
      refine ⟨rfl, ?_, coherent.kept⟩
      intro raised
      have running := coherent.raised raised
      rw [record] at running
      cases running
  | sweeps =>
      refine ⟨record, ?_, ?_⟩
      · intro raised
        have down := CancelSignal.apply_set_raised coherent.kept false
        exact absurd (down.symm.trans raised) Bool.false_ne_true
      · exact (CancelSignal.apply_set_released _ _).trans coherent.kept
  | retires => exact coherent.congr rfl (busy ▸ rfl) rfl

theorem workerSection {runner next : Runner} {link : Link} (coherent : runner.Coherent)
    (performed : WorkerSection link runner next) : next.Coherent := by
  cases performed with
  | takes looks offered => exact coherent.congr rfl (looks ▸ rfl) rfl
  | parks looks nothing => exact coherent.congr rfl (looks ▸ rfl) rfl
  | wakes parked woken => exact coherent.congr rfl (parked ▸ rfl) rfl
  | ends parked asleep stopping => exact coherent.congr rfl (parked ▸ rfl) rfl
  | acts busy performed => exact coherent.actionSection busy performed

theorem reporterSection {runner next : Runner} {link : Link} (coherent : runner.Coherent)
    (performed : ReporterSection link runner next) : next.Coherent := by
  cases performed with
  | stops running elapsed => exact coherent.congr rfl rfl rfl
  | reports running lowered reached told => exact coherent.congr rfl rfl rfl

/-- A client raises the flag only over a running record. -/
theorem cancel {runner : Runner} (coherent : runner.Coherent) (raised : Bool) :
    (runner.cancel raised).Coherent := by
  rw [Runner.cancel]
  split
  · exact coherent
  next allowed =>
    refine ⟨coherent.record, ?_, ?_⟩
    · intro up
      rw [CancelSignal.apply_set_raised coherent.kept] at up
      subst up
      have cancellable : runner.isCancellable = true := by simpa using allowed
      exact runner.isCancellable_iff.mp cancellable
    · exact (CancelSignal.apply_set_released _ _).trans coherent.kept

theorem perform {runner : Runner} (coherent : runner.Coherent) (link : Link) (move : Move) :
    (runner.perform link move).Coherent := by
  cases move with
  | offer action =>
      rw [Runner.perform]
      rcases runner.offer_cases action with ⟨rejection, rejected⟩ | accepted
      · rw [rejected]
        exact coherent
      · rw [accepted]
        exact coherent.congr rfl rfl rfl
  | wake => exact coherent.congr rfl rfl rfl
  | cancel raised => exact coherent.cancel raised
  | stop => exact coherent.congr rfl rfl rfl
  | worker =>
      rcases runner.perform_worker_cases link with idle | performed
      · rw [idle]
        exact coherent
      · exact coherent.workerSection performed
  | reporter =>
      rcases runner.perform_reporter_cases link with idle | performed
      · rw [idle]
        exact coherent
      · exact coherent.reporterSection performed
  | pass milliseconds => exact coherent.congr rfl rfl rfl

theorem performAll (clock : Nat) (moves : List (Link × Move)) :
    ((Runner.initial clock).performAll moves).Coherent :=
  performAll_preserves (fun _ link move coherent => coherent.perform link move) (initial clock)
    moves

end Coherent

/-- Without a running record a cancellation is ignored. -/
theorem cancel_ignored {runner : Runner} (idle : ¬ runner.isCancellable = true) :
    runner.cancel true = runner := by
  simp [cancel, idle]

/--
Over every interleaving, a flag that is up has a record that is not consumed.  So an action opens
its record and starts with the flag down, a cancellation without such a record makes no difference
to anything that comes later, and there is never a flag to sweep behind an action.
-/
theorem cancellation_stays_in_action (clock : Nat) (moves : List (Link × Move)) :
    let runner := (initial clock).performAll moves
    (runner.signal.raised = true →
        ∃ execution, runner.record = some execution ∧ execution.consumed = false)
      ∧ (∀ job, runner.worker = .busy job .opening →
          runner.signal.raised = false
            ∧ ∀ link, (runner.perform link .worker).record = some (.start job.action)
                ∧ (runner.perform link .worker).signal.raised = false)
      ∧ ((∀ execution, runner.record = some execution → execution.consumed = true) →
          ∀ (link : Link) (later : List (Link × Move)),
            runner.performAll ((link, .cancel true) :: later) = runner.performAll later)
      ∧ (∀ job, runner.worker = .busy job .sweeping → runner.signal.raised = false) := by
  intro runner
  have coherent : runner.Coherent := .performAll clock moves
  refine ⟨?_, ?_, ?_, ?_⟩
  · intro raised
    exact (RecordState.ofRecord_eq_running_iff _).mp (coherent.raised raised)
  · intro job opening
    have lowered : runner.signal.raised = false := by
      apply coherent.lowered
      rw [opening]
      intro same
      cases same
    refine ⟨lowered, ?_⟩
    intro link
    have opened : runner.perform link .worker = runner.openJob job := by
      simp [Runner.perform, workerSection, opening, jobSection]
    rw [opened]
    exact ⟨rfl, lowered⟩
  · intro consumed link later
    have idle : ¬ runner.isCancellable = true := by
      rw [isCancellable_iff, RecordState.ofRecord_eq_running_iff]
      rintro ⟨execution, recorded, running⟩
      rw [consumed execution recorded] at running
      cases running
    rw [performAll, Runner.perform, cancel_ignored idle]
  · intro job sweeping
    apply coherent.lowered
    rw [sweeping]
    intro same
    cases same

end Runner

end FlightGuard
