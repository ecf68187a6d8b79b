import FlightGuard.Runner.Step

/-!
# The work that is left at an instant

Each section brings its part closer to a wait.  `Runner.work` counts, generously, the sections
that are still possible without one, and `work_nextSection_lt` says that every section lowers it.
So all that can be done at an instant is done after finitely many sections.
-/

namespace FlightGuard

/-- Sections that an action still has before its first wait, counted generously. -/
def Activity.work (stages : Nat) : Activity → Nat
  | .opening => 11 + 3 * stages
  | .staging _ remaining => 7 + 3 * remaining.length
  | .calling _ _ remaining _ _ => 9 + 3 * remaining.length
  | .resting _ remaining _ => 8 + 3 * remaining.length
  | .scripting => 8
  | .awaiting _ _ => 7
  | .settling _ => 6
  | .lingering => 5
  | .sweeping => 4
  | .retiring => 3

/-- Sections that the worker still has before its first wait, pending actions left aside. -/
def Worker.work : Worker → Nat
  | .looking => 2
  | .parked => 1
  | .busy job activity => activity.work job.action.stages.length
  | .ended | .failed => 0

namespace Runner

/-- Sections that a pending action will have. -/
def pendingWork (pending : Option Job) : Nat :=
  match pending with
  | some job => 11 + 3 * job.action.stages.length
  | none => 0

/-- Sections that a stored wake-up is good for. -/
def wakeWork (wakeUp : Bool) : Nat :=
  match wakeUp with
  | true => 2
  | false => 0

/-- Sections that the reporter still has before its first wait. -/
def reporterWork (clock : Nat) (reporter : Option Nat) : Nat :=
  match reporter with
  | some due => 1 + (clock + 1 - due)
  | none => 0

/-- Sections that are possible at an instant, counted generously. -/
def work (runner : Runner) : Nat :=
  runner.worker.work + pendingWork runner.intake.pending
    + wakeWork runner.wakeUp + reporterWork runner.clock runner.reporter

/-! ## Steps within an action -/

/-- A move to an activity with less work lowers the work that is left. -/
theorem work_moveTo_lt (runner : Runner) {job : Job} {activity next : Activity}
    (atWork : runner.worker = .busy job activity)
    (less : next.work job.action.stages.length < activity.work job.action.stages.length) :
    (runner.moveTo job next).work < runner.work := by
  simp only [work, moveTo, atWork, Worker.work]
  omega

/-- An action that begins to settle has less work left than before. -/
theorem work_settleDown_lt (runner : Runner) {job : Job} {activity : Activity}
    (atWork : runner.worker = .busy job activity)
    (before : 6 < activity.work job.action.stages.length) :
    (runner.settleDown job).work < runner.work :=
  work_moveTo_lt runner atWork before

/-- An action that is given up has less work left than before. -/
theorem work_abandon_lt (runner : Runner) {job : Job} {activity : Activity}
    (atWork : runner.worker = .busy job activity)
    (before : 6 < activity.work job.action.stages.length) :
    (runner.abandon job).work < runner.work :=
  work_settleDown_lt (runner.setOutcome .canceled) atWork before

/-- A worker that is brought down has no work left. -/
theorem work_fail_lt (runner : Runner) {job : Job} {activity : Activity}
    (atWork : runner.worker = .busy job activity)
    (busy : 0 < activity.work job.action.stages.length) :
    runner.fail.work < runner.work := by
  simp only [work, fail, atWork, Worker.work]
  omega

/-- Opening an action costs more than the reporter and its first step will. -/
theorem work_openJob_lt {runner : Runner} {job : Job}
    (atWork : runner.worker = .busy job .opening) : (runner.openJob job).work < runner.work := by
  by_cases staged : job.action.stages.isEmpty <;>
    simp only [work, openJob, staged, atWork, Worker.work, Activity.work, reporterWork, reduceIte,
      Bool.false_eq_true] <;>
    omega

/-- Calling a stage, or giving the action up instead, lowers the work that is left. -/
theorem work_callStage_lt {runner : Runner} {job : Job} {done : Nat} {stage : Stage}
    {remaining : List Stage} (link : Link)
    (atWork : runner.worker = .busy job (.staging done (stage :: remaining))) :
    (runner.callStage link job done stage remaining).work < runner.work := by
  unfold callStage
  split
  · apply work_abandon_lt runner atWork
    simp only [Activity.work, List.length_cons]
    omega
  · apply work_moveTo_lt (runner.note _) atWork
    simp only [Activity.work, List.length_cons]
    omega

/-- Taking the answer to a stage lowers the work that is left. -/
theorem work_answerStage_lt {runner : Runner} {job : Job} {done : Nat} {stage : Stage}
    {remaining : List Stage} {due : Option Nat} {answer : Except LinkError Outcome}
    (atWork : runner.worker = .busy job (.calling done stage remaining due answer)) :
    (runner.answerStage job done stage remaining answer).work < runner.work := by
  unfold answerStage
  split
  · apply work_moveTo_lt (runner.note _) atWork
    simp only [Activity.work]
    omega
  · apply work_fail_lt (runner.note _) atWork
    simp only [Activity.work]
    omega

/-- Completing a stage lowers the work that is left. -/
theorem work_completeStage_lt {runner : Runner} {job : Job} {done deadline : Nat}
    {remaining : List Stage}
    (atWork : runner.worker = .busy job (.resting done remaining deadline)) :
    (runner.completeStage job done remaining).work < runner.work := by
  unfold completeStage
  split
  · apply work_settleDown_lt (runner.setProgress _ _) atWork
    simp only [Activity.work]
    omega
  · apply work_moveTo_lt (runner.setProgress _ _) atWork
    simp only [Activity.work]
    omega

/-- Calling the script, or doing without it, lowers the work that is left. -/
theorem work_callScript_lt {runner : Runner} {job : Job} (link : Link)
    (atWork : runner.worker = .busy job .scripting) :
    (runner.callScript link job).work < runner.work := by
  unfold callScript
  split
  · exact work_settleDown_lt (runner.setOutcome _) atWork (by simp [Activity.work])
  · split
    · exact work_abandon_lt runner atWork (by simp [Activity.work])
    · split
      · exact work_fail_lt runner atWork (by simp [Activity.work])
      · exact work_moveTo_lt (runner.note _) atWork (by simp [Activity.work])

/-- The end of a script lowers the work that is left. -/
theorem work_judge_settleDown_lt {runner : Runner} {job : Job} {due : Option Nat}
    {verdict : Verdict} (atWork : runner.worker = .busy job (.awaiting due verdict)) :
    ((runner.judge verdict).settleDown job).work < runner.work := by
  have before : 6 < (Activity.awaiting due verdict).work job.action.stages.length := by
    simp [Activity.work]
  unfold judge
  split
  · exact work_settleDown_lt (runner.setProgress _ _) atWork before
  all_goals exact work_settleDown_lt (runner.setOutcome _) atWork before

/-! ## Every section lowers the work that is left -/

/-- Every section of an action lowers the work that is left. -/
theorem work_jobSection_lt {runner next : Runner} {link : Link} {job : Job}
    {activity : Activity} (atWork : runner.worker = .busy job activity)
    (performed : runner.jobSection link job activity = some next) :
    next.work < runner.work := by
  cases activity with
  | opening =>
    obtain rfl := Option.some.inj performed
    exact work_openJob_lt atWork
  | staging done remaining =>
    cases remaining with
    | nil =>
      obtain rfl := Option.some.inj performed
      exact work_settleDown_lt runner atWork (by simp [Activity.work])
    | cons stage remaining =>
      obtain rfl := Option.some.inj performed
      exact work_callStage_lt link atWork
  | calling done stage remaining due answer =>
    simp only [jobSection, Option.ite_none_right_eq_some, Option.some.injEq] at performed
    obtain ⟨_, rfl⟩ := performed
    exact work_answerStage_lt atWork
  | resting done remaining deadline =>
    simp only [jobSection] at performed
    split at performed
    · obtain rfl := Option.some.inj performed
      exact work_abandon_lt runner atWork (by simp only [Activity.work]; omega)
    · obtain rfl := Option.some.inj performed
      exact work_completeStage_lt atWork
    · contradiction
  | scripting =>
    obtain rfl := Option.some.inj performed
    exact work_callScript_lt link atWork
  | awaiting due verdict =>
    simp only [jobSection] at performed
    split at performed
    · obtain rfl := Option.some.inj performed
      exact work_abandon_lt runner atWork (by simp [Activity.work])
    · simp only [Option.ite_none_right_eq_some, Option.some.injEq] at performed
      obtain ⟨_, rfl⟩ := performed
      exact work_judge_settleDown_lt atWork
  | settling deadline =>
    simp only [jobSection, Option.ite_none_right_eq_some, Option.some.injEq] at performed
    obtain ⟨_, rfl⟩ := performed
    exact work_moveTo_lt runner.consume atWork (by simp [Activity.work])
  | lingering =>
    simp only [jobSection, Option.ite_none_right_eq_some, Option.some.injEq] at performed
    obtain ⟨_, rfl⟩ := performed
    exact work_moveTo_lt { runner with record := none } atWork
      (by simp [Activity.work])
  | sweeping =>
    obtain rfl := Option.some.inj performed
    exact work_moveTo_lt { runner with signal := _ } atWork (by simp [Activity.work])
  | retiring =>
    obtain rfl := Option.some.inj performed
    simp only [work, Intake.retire, atWork, Worker.work, Activity.work]
    omega

/-- Every section of the worker lowers the work that is left. -/
theorem work_workerSection_lt {runner next : Runner} {link : Link}
    (performed : runner.workerSection link = some next) : next.work < runner.work := by
  unfold workerSection at performed
  split at performed
  next atWork =>
    split at performed
    next job pending =>
      obtain rfl := Option.some.inj performed
      simp only [work, moveTo, Intake.take, atWork, pending, Worker.work, Activity.work,
        pendingWork]
      omega
    next nothing =>
      obtain rfl := Option.some.inj performed
      simp only [work, atWork, Worker.work]
      omega
  next atWork =>
    split at performed
    next awake =>
      obtain rfl := Option.some.inj performed
      simp only [work, atWork, awake, Worker.work, wakeWork]
      omega
    next asleep =>
      simp only [Option.ite_none_right_eq_some, Option.some.injEq] at performed
      obtain ⟨_, rfl⟩ := performed
      simp only [work, atWork, Worker.work]
      omega
  next job activity atWork => exact work_jobSection_lt atWork performed
  all_goals contradiction

/-- Every section of the reporter lowers the work that is left. -/
theorem work_reporterSection_lt {runner next : Runner} {link : Link}
    (performed : runner.reporterSection link = some next) : next.work < runner.work := by
  unfold reporterSection at performed
  split at performed
  next idle => contradiction
  next due running =>
    split at performed
    next cancelled =>
      obtain rfl := Option.some.inj performed
      simp only [work, running, reporterWork]
      omega
    next calm =>
      split at performed
      next reached =>
        split at performed <;> obtain rfl := Option.some.inj performed <;>
          simp only [work, note, running, reporterWork, reportInterval] <;>
          omega
      next early => contradiction

/-- Every section lowers the work that is left at its instant. -/
theorem work_nextSection_lt {runner next : Runner} {link : Link}
    (performed : runner.nextSection link = some next) : next.work < runner.work := by
  rcases Option.or_eq_some_iff.1 performed with byWorker | ⟨_, byReporter⟩
  · exact work_workerSection_lt byWorker
  · exact work_reporterSection_lt byReporter

end Runner

end FlightGuard
