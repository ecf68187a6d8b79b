import FlightGuard.Proofs.Runner.Sections

/-!
# Interleavings of the action runner

A move is one thing that happens to the runner and that nothing interrupts: a half of a client's
submission, a cancellation, a request to stop, a section of the worker or of the reporter, or time
that passes.  A run performs moves in any order whatever, so a fact about all runs is a fact about
all interleavings.  The link may answer differently at each move.
-/

namespace FlightGuard

/-- The intake behind an action that is accepted. -/
def Intake.accept (intake : Intake) (action : CustomAction) (now : Nat) : Intake :=
  ⟨intake.history ++ [⟨intake.nextOrder, action⟩], some ⟨intake.nextOrder, action⟩,
    intake.nextOrder + 1, some (action.id, now)⟩

namespace Runner

/-- One thing that happens to the runner. -/
inductive Move where
  | offer (action : CustomAction)
  | wake
  | cancel (raised : Bool)
  | stop
  | worker
  | reporter
  | pass (milliseconds : Nat)

/-- Performs a move; a rejected action and a part that has to wait change nothing. -/
def perform (runner : Runner) (link : Link) : Move → Runner
  | .offer action =>
      match runner.offer action with
      | .ok (_, offered) => offered
      | .error _ => runner
  | .wake => runner.wake
  | .cancel raised => runner.cancel raised
  | .stop => runner.stop
  | .worker => (runner.workerSection link).getD runner
  | .reporter => (runner.reporterSection link).getD runner
  | .pass milliseconds => { runner with clock := runner.clock + milliseconds }

/-- Performs moves one after another, each under the link as it answers at that time. -/
def performAll (runner : Runner) : List (Link × Move) → Runner
  | [] => runner
  | (link, move) :: moves => (runner.perform link move).performAll moves

/-- What each move preserves holds after every run. -/
theorem performAll_preserves {invariant : Runner → Prop}
    (preserved : ∀ (runner : Runner) (link : Link) (move : Move),
      invariant runner → invariant (runner.perform link move))
    {runner : Runner} (start : invariant runner) (moves : List (Link × Move)) :
    invariant (runner.performAll moves) := by
  induction moves generalizing runner with
  | nil => exact start
  | cons head moves induction => exact induction (preserved runner head.1 head.2 start)

/-! ## Moves one by one -/

theorem offer_cases (runner : Runner) (action : CustomAction) :
    (∃ rejection, runner.offer action = .error rejection)
      ∨ runner.offer action =
          .ok (runner.intake.nextOrder,
            { runner with intake := runner.intake.accept action (runner.clock * 1000) }) := by
  rw [offer, Intake.offer]
  split
  · exact Or.inl ⟨_, rfl⟩
  · exact Or.inr rfl

/-- A cancellation changes nothing but the flag. -/
theorem cancel_frame (runner : Runner) (raised : Bool) :
    ∃ signal, runner.cancel raised = { runner with signal } := by
  rw [cancel]
  split
  · exact ⟨runner.signal, rfl⟩
  · exact ⟨_, rfl⟩

theorem perform_worker_cases (runner : Runner) (link : Link) :
    runner.perform link .worker = runner
      ∨ WorkerSection link runner (runner.perform link .worker) := by
  rw [perform]
  cases performed : runner.workerSection link with
  | none => exact Or.inl rfl
  | some next => exact Or.inr (workerSection_cases performed)

theorem perform_reporter_cases (runner : Runner) (link : Link) :
    runner.perform link .reporter = runner
      ∨ ReporterSection link runner (runner.perform link .reporter) := by
  rw [perform]
  cases performed : runner.reporterSection link with
  | none => exact Or.inl rfl
  | some next => exact Or.inr (reporterSection_cases performed)

/-- Only an accepted action changes the intake without the worker, and only the worker moves. -/
theorem perform_cases (runner : Runner) (link : Link) (move : Move) :
    (∃ action, runner.perform link move =
        { runner with intake := runner.intake.accept action (runner.clock * 1000) })
      ∨ WorkerSection link runner (runner.perform link move)
      ∨ ((runner.perform link move).intake = runner.intake
          ∧ (runner.perform link move).worker = runner.worker) := by
  cases move with
  | offer action =>
      rw [perform]
      rcases runner.offer_cases action with ⟨rejection, rejected⟩ | accepted
      · rw [rejected]
        exact Or.inr (Or.inr ⟨rfl, rfl⟩)
      · rw [accepted]
        exact Or.inl ⟨action, rfl⟩
  | worker =>
      rcases runner.perform_worker_cases link with idle | performed
      · rw [idle]
        exact Or.inr (Or.inr ⟨rfl, rfl⟩)
      · exact Or.inr (Or.inl performed)
  | reporter =>
      refine Or.inr (Or.inr ?_)
      rcases runner.perform_reporter_cases link with idle | performed
      · rw [idle]
        exact ⟨rfl, rfl⟩
      · rcases performed.frame with ⟨reporter, journal, reported⟩
        rw [reported]
        exact ⟨rfl, rfl⟩
  | cancel raised =>
      rcases runner.cancel_frame raised with ⟨signal, cancelled⟩
      rw [perform, cancelled]
      exact Or.inr (Or.inr ⟨rfl, rfl⟩)
  | wake | stop | pass _ => exact Or.inr (Or.inr ⟨rfl, rfl⟩)

end Runner

end FlightGuard
