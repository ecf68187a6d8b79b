import FlightGuard.Proofs.Runner.Orders
import FlightGuard.Proofs.Runner.StepModel

/-!
# The end of an action

From the final result of an action on, nothing but time decides what becomes of it: it settles until
an instant that is already fixed, its record is consumed then, and once the reporter has ended the
record is cleared and the action is past.  Cancellations, submissions and the answers of the link
make no difference.  If nothing is left to report at the beginning, nothing is reported on the way.
-/

namespace FlightGuard

/-- What the runner sends on behalf of actions, as opposed to what it is answered. -/
def JournalEntry.isSent : JournalEntry → Bool
  | .stageAnswered _ _ => false
  | .stageCalled _ _ | .scriptCalled _ _ | .reported _ _ _ => true

namespace Runner

/-- The stages, scripts and reports that were sent so far. -/
def sent (runner : Runner) : List JournalEntry :=
  runner.journal.filter JournalEntry.isSent

/-- An instant is not passed, and is still ahead wherever every part waits. -/
structure Before (runner : Runner) (instant : Nat) : Prop where
  reached : runner.clock ≤ instant
  ahead : runner.IsWaiting → runner.clock < instant

/-- An action ends at an instant with a result, or has done so. -/
inductive Concluding (job : Job) (result : Execution) (ends : Nat) (runner : Runner) : Prop where
  | settling (busy : runner.worker = .busy job (.settling ends))
      (recorded : runner.record = some result) (before : runner.Before ends)
  | consumed (busy : runner.worker = .busy job .lingering)
      (recorded : runner.record = some { result with consumed := true })
      (elapsed : ends ≤ runner.clock)
  | cleared {activity : Activity} (busy : runner.worker = .busy job activity)
      (closing : activity = .sweeping ∨ activity = .retiring) (absent : runner.record = none)
      (elapsed : ends ≤ runner.clock)
  | past (past : runner.Past job.order) (elapsed : ends ≤ runner.clock)

namespace Concluding

variable {job : Job} {result : Execution} {ends : Nat} {runner next : Runner}

/-- Nothing is decided by a change that leaves the worker, the record and the clock alone. -/
theorem congr (concluding : Concluding job result ends runner)
    (worker : next.worker = runner.worker) (record : next.record = runner.record)
    (clock : next.clock = runner.clock) (kept : runner.Past job.order → next.Past job.order) :
    Concluding job result ends next := by
  cases concluding with
  | settling busy recorded before =>
      have settles : next.worker = .busy job (.settling ends) := worker.trans busy
      refine .settling settles (record.trans recorded) ⟨clock ▸ before.reached, ?_⟩
      intro waits
      exact waits.action settles
  | consumed busy recorded elapsed =>
      exact .consumed (worker.trans busy) (record.trans recorded) (clock ▸ elapsed)
  | cleared busy closing absent elapsed =>
      exact .cleared (worker.trans busy) closing (record.trans absent) (clock ▸ elapsed)
  | past past elapsed => exact .past (kept past) (clock ▸ elapsed)

/-- An action that ends has its own sections ahead of it and no other ones. -/
theorem workerSection {link : Link} (concluding : Concluding job result ends runner)
    (numbered : runner.Numbered) (performed : WorkerSection link runner next) :
    Concluding job result ends next := by
  cases concluding with
  | settling busy recorded before =>
      cases performed.of_busy busy with
      | consumes elapsed =>
          refine .consumed rfl ?_ elapsed
          rw [consumeRecord, consume, recorded]
          rfl
  | consumed busy recorded elapsed =>
      cases performed.of_busy busy with
      | clears alone => exact .cleared rfl (Or.inl rfl) rfl elapsed
  | cleared busy closing absent elapsed =>
      rcases closing with rfl | rfl
      · cases performed.of_busy busy with
        | sweeps => exact .cleared rfl (Or.inr rfl) absent elapsed
      · have last := performed.of_busy busy
        refine .past (numbered.past busy last) ?_
        rw [last.clock_eq]
        exact elapsed
  | past past elapsed =>
      refine .past (past.workerSection performed) ?_
      rw [performed.clock_eq]
      exact elapsed

/-- Time passes the end of an action only after the action is consumed. -/
theorem pass (concluding : Concluding job result ends runner) {instant : Nat}
    (forward : runner.clock ≤ instant)
    (inTime : ∀ due, runner.due? = some due → instant ≤ due) :
    Concluding job result ends { runner with clock := instant } := by
  cases concluding with
  | settling busy recorded before =>
      refine .settling busy recorded ⟨le_due_of_busy busy inTime rfl, ?_⟩
      intro waits
      exact waits.action busy
  | consumed busy recorded elapsed => exact .consumed busy recorded (Nat.le_trans elapsed forward)
  | cleared busy closing absent elapsed =>
      exact .cleared busy closing absent (Nat.le_trans elapsed forward)
  | past past elapsed =>
      exact .past ⟨past.beyond, past.running, past.listed⟩ (Nat.le_trans elapsed forward)

/-- An action that ends does so whatever turn is taken. -/
theorem turn {event : Event} (concluding : Concluding job result ends runner)
    (numbered : runner.Numbered) (turn : Turn runner event next) :
    Concluding job result ends next := by
  have kept : runner.Past job.order → next.Past job.order := fun past => past.turn turn
  cases turn with
  | act link performed =>
      rcases Option.or_eq_some_iff.mp performed with byWorker | ⟨_, byReporter⟩
      · exact concluding.workerSection numbered (workerSection_cases byWorker)
      · rcases (reporterSection_cases byReporter).frame with ⟨reporter, journal, rfl⟩
        exact concluding.congr rfl rfl rfl kept
  | operate waits operation =>
      rcases runner.operate_eq operation with ⟨intake, wakeUp, signal, stopping, operated⟩
      rw [operated] at kept ⊢
      exact concluding.congr rfl rfl rfl kept
  | pass waits forward inTime => exact concluding.pass forward inTime

/-- The worker has something to do for an action that ends only when time is up, and in silence. -/
theorem workerSection_silent {link : Link} {activity : Activity}
    (concluding : Concluding job result ends runner)
    (busy : runner.worker = .busy job activity) (performed : WorkerSection link runner next) :
    ends ≤ runner.clock ∧ next.journal = runner.journal ∧ next.reporter = runner.reporter := by
  cases concluding with
  | settling standing _ _ =>
      cases performed.of_busy standing with
      | consumes elapsed => exact ⟨elapsed, rfl, rfl⟩
  | consumed standing _ elapsed =>
      cases performed.of_busy standing with
      | clears _ => exact ⟨elapsed, rfl, rfl⟩
  | cleared standing closing _ elapsed =>
      rcases closing with rfl | rfl
      all_goals
        cases performed.of_busy standing with
        | _ => exact ⟨elapsed, rfl, rfl⟩
  | past past _ => exact absurd busy (past.not_busy activity)

end Concluding

/--
While the action is there nothing was sent behind what had been sent already, and its reporter has
ended or will at the flag, which is up, before time passes.
-/
def Muted (job : Job) (ends : Nat) (already : List JournalEntry) (runner : Runner) : Prop :=
  ∀ activity, runner.worker = .busy job activity →
    runner.sent = already
      ∧ (runner.reporter = none ∨ (runner.signal.raised = true ∧ runner.clock < ends))

namespace Muted

variable {job : Job} {result : Execution} {ends : Nat} {already : List JournalEntry}
  {runner next : Runner}

theorem reporter_eq_none {activity : Activity} (muted : Muted job ends already runner)
    (busy : runner.worker = .busy job activity) (waits : runner.IsWaiting) :
    runner.reporter = none := by
  rcases (muted activity busy).2 with ended | ⟨raised, _⟩
  · exact ended
  · exact waits.reporter_eq_none raised

/-- Of an action that ends in silence nothing is heard whatever turn is taken. -/
theorem turn {event : Event} (muted : Muted job ends already runner)
    (concluding : Concluding job result ends runner) (turn : Turn runner event next) :
    Muted job ends already next := by
  intro activity busy
  -- Were the action past, the worker would not be busy with it behind the turn.
  have standing : ∃ standing, runner.worker = .busy job standing := by
    cases concluding with
    | settling standing _ _ | consumed standing _ _ | cleared standing _ _ _ =>
        exact ⟨_, standing⟩
    | past past _ => exact absurd busy ((past.turn turn).not_busy activity)
  rcases standing with ⟨standing, before⟩
  have quiet := muted standing before
  cases turn with
  | act link performed =>
      rcases Option.or_eq_some_iff.mp performed with byWorker | ⟨_, byReporter⟩
      · obtain ⟨elapsed, journal, reporter⟩ :=
          concluding.workerSection_silent before (workerSection_cases byWorker)
        rcases quiet.2 with ended | ⟨_, early⟩
        · rw [sent, journal, reporter]
          exact ⟨quiet.1, Or.inl ended⟩
        · exact absurd elapsed (Nat.not_le_of_lt early)
      · cases reporterSection_cases byReporter with
        | stops _ _ => exact ⟨quiet.1, Or.inl rfl⟩
        | reports running lowered _ _ =>
            rcases quiet.2 with ended | ⟨raised, _⟩
            · rw [ended] at running
              cases running
            · rw [raised] at lowered
              cases lowered
  | operate waits operation =>
      have ended : runner.reporter = none := muted.reporter_eq_none before waits
      rcases runner.operate_eq operation with ⟨intake, wakeUp, signal, stopping, operated⟩
      rw [operated]
      exact ⟨quiet.1, Or.inl ended⟩
  | pass waits _ _ => exact ⟨quiet.1, Or.inl (muted.reporter_eq_none before waits)⟩

end Muted

end Runner

end FlightGuard
