import FlightGuard.Runner.Step

/-!
# What a section does

A section of the worker or of the reporter can go in a few ways, which are listed here once with
the conditions under which each of them is taken.  Every later argument about a section is an
argument about these cases.
-/

namespace FlightGuard.Runner

/-! ## The worker within an action -/

/-- An action with stages begins with the first of them. -/
theorem openJob_worker_of_stages (runner : Runner) {job : Job}
    (staged : job.action.stages.isEmpty = false) :
    (runner.openJob job).worker = .busy job (.staging 0 job.action.stages) := by
  rw [openJob, staged]
  rfl

/-- An action without stages begins with its script. -/
theorem openJob_worker_of_script (runner : Runner) {job : Job}
    (unstaged : job.action.stages.isEmpty = true) :
    (runner.openJob job).worker = .busy job .scripting := by
  rw [openJob, unstaged]
  rfl

/-- A section of an action at an activity, and the runner behind it. -/
inductive ActionSection (link : Link) (job : Job) (runner : Runner) : Activity → Runner → Prop where
  | opens :
      ActionSection link job runner .opening (runner.openJob job)
  | runsOut {done : Nat} :
      ActionSection link job runner (.staging done []) (runner.settleDown job)
  | dropsStage {done : Nat} {stage : Stage} {remaining : List Stage}
      (raised : runner.signal.raised = true) :
      ActionSection link job runner (.staging done (stage :: remaining)) (runner.abandon job)
  | callsStage {done : Nat} {stage : Stage} {remaining : List Stage}
      (lowered : runner.signal.raised = false) :
      ActionSection link job runner (.staging done (stage :: remaining))
        ((runner.note (.stageCalled runner.clock stage)).moveTo job
          (.calling done stage remaining (dueAfter runner.clock (link.stage stage).delay)
            (link.stage stage).outcome))
  | rests {done : Nat} {stage : Stage} {remaining : List Stage} {due : Option Nat}
      {answer : Except LinkError Outcome} {wait : Duration}
      (answered : isDue runner.clock due = true) (fits : stage.wait = .ok wait) :
      ActionSection link job runner (.calling done stage remaining due answer)
        ((runner.note (.stageAnswered runner.clock answer)).moveTo job
          (.resting done remaining (runner.clock + wait.waitMilliseconds)))
  | falls {done : Nat} {stage : Stage} {remaining : List Stage} {due : Option Nat}
      {answer : Except LinkError Outcome} {error : DurationError}
      (answered : isDue runner.clock due = true) (overlong : stage.wait = .error error) :
      ActionSection link job runner (.calling done stage remaining due answer)
        (runner.note (.stageAnswered runner.clock answer)).fail
  | cutsRest {done deadline : Nat} {remaining : List Stage}
      (raised : runner.signal.raised = true) :
      ActionSection link job runner (.resting done remaining deadline) (runner.abandon job)
  | completesLast {done deadline : Nat}
      (lowered : runner.signal.raised = false) (elapsed : deadline ≤ runner.clock) :
      ActionSection link job runner (.resting done [] deadline)
        ((runner.setProgress (Execution.stageProgress (done + 1) job.action.stages.length)
          .success).settleDown job)
  | completesStage {done deadline : Nat} {stage : Stage} {remaining : List Stage}
      (lowered : runner.signal.raised = false) (elapsed : deadline ≤ runner.clock) :
      ActionSection link job runner (.resting done (stage :: remaining) deadline)
        ((runner.setProgress (Execution.stageProgress (done + 1) job.action.stages.length)
          .inProgress).moveTo job (.staging (done + 1) (stage :: remaining)))
  | lacksScript (missing : job.action.script = none) :
      ActionSection link job runner .scripting ((runner.setOutcome .failed).settleDown job)
  | dropsScript {script : String} (given : job.action.script = some script)
      (raised : runner.signal.raised = true) :
      ActionSection link job runner .scripting (runner.abandon job)
  | fallsBeforeScript {script : String} {error : DurationError}
      (given : job.action.script = some script) (lowered : runner.signal.raised = false)
      (overlong : job.action.limit = .error error) :
      ActionSection link job runner .scripting runner.fail
  | callsScript {script : String} {limit : Option Duration}
      (given : job.action.script = some script) (lowered : runner.signal.raised = false)
      (fits : job.action.limit = .ok limit) :
      ActionSection link job runner .scripting
        ((runner.note (.scriptCalled runner.clock script)).moveTo job
          (.awaiting
            (scriptEnd runner.clock (limit.map Duration.waitMilliseconds) (link.script script)).1
            (scriptEnd runner.clock (limit.map Duration.waitMilliseconds) (link.script script)).2))
  | cutsScript {due : Option Nat} {verdict : Verdict} (raised : runner.signal.raised = true) :
      ActionSection link job runner (.awaiting due verdict) (runner.abandon job)
  | judges {due : Option Nat} {verdict : Verdict}
      (lowered : runner.signal.raised = false) (ended : isDue runner.clock due = true) :
      ActionSection link job runner (.awaiting due verdict)
        ((runner.judge verdict).settleDown job)
  | consumes {deadline : Nat} (elapsed : deadline ≤ runner.clock) :
      ActionSection link job runner (.settling deadline) (runner.consumeRecord job)
  | clears (alone : runner.reporter = none) :
      ActionSection link job runner .lingering
        ({ runner with record := none }.moveTo job .sweeping)
  | sweeps :
      ActionSection link job runner .sweeping
        ({ runner with signal := runner.signal.apply (.set false) }.moveTo job .retiring)
  | retires :
      ActionSection link job runner .retiring
        { runner with intake := runner.intake.retire job.order, worker := .looking }

theorem actionSection_of_jobSection {runner next : Runner} {link : Link} {job : Job}
    {activity : Activity} (performed : runner.jobSection link job activity = some next) :
    ActionSection link job runner activity next := by
  cases activity with
  | opening =>
      obtain rfl := Option.some.inj performed
      exact .opens
  | staging done remaining =>
      cases remaining with
      | nil =>
          obtain rfl := Option.some.inj performed
          exact .runsOut
      | cons stage remaining =>
          obtain rfl := Option.some.inj performed
          rw [callStage]
          split
          next raised => exact .dropsStage raised
          next lowered => exact .callsStage (Bool.not_eq_true _ ▸ lowered)
  | calling done stage remaining due answer =>
      simp only [jobSection, Option.ite_none_right_eq_some, Option.some.injEq] at performed
      rcases performed with ⟨answered, rfl⟩
      rw [answerStage]
      split
      next fits => exact .rests answered fits
      next overlong => exact .falls answered overlong
  | resting done remaining deadline =>
      simp only [jobSection, CancelSignal.poll] at performed
      by_cases raised : runner.signal.raised = true
      · simp only [raised, if_true, Option.some.injEq] at performed
        subst performed
        exact .cutsRest raised
      · have lowered : runner.signal.raised = false := Bool.not_eq_true _ ▸ raised
        by_cases elapsed : deadline ≤ runner.clock
        · simp only [lowered, elapsed, Bool.false_eq_true, if_false, if_true, Option.some.injEq]
            at performed
          subst performed
          cases remaining with
          | nil => exact .completesLast lowered elapsed
          | cons stage remaining => exact .completesStage lowered elapsed
        · simp [lowered, elapsed] at performed
  | scripting =>
      obtain rfl := Option.some.inj performed
      rw [callScript]
      split
      next missing => exact .lacksScript missing
      next script given =>
        split
        next raised => exact .dropsScript given raised
        next lowered =>
          have lowered : runner.signal.raised = false := Bool.not_eq_true _ ▸ lowered
          split
          next overlong => exact .fallsBeforeScript given lowered overlong
          next fits => exact .callsScript given lowered fits
  | awaiting due verdict =>
      simp only [jobSection] at performed
      split at performed
      next raised =>
        obtain rfl := Option.some.inj performed
        exact .cutsScript raised
      next lowered =>
        simp only [Option.ite_none_right_eq_some, Option.some.injEq] at performed
        rcases performed with ⟨ended, rfl⟩
        exact .judges (Bool.not_eq_true _ ▸ lowered) ended
  | settling deadline =>
      simp only [jobSection, Option.ite_none_right_eq_some, Option.some.injEq] at performed
      rcases performed with ⟨elapsed, rfl⟩
      exact .consumes elapsed
  | lingering =>
      simp only [jobSection, Option.ite_none_right_eq_some, Option.some.injEq,
        Option.isNone_iff_eq_none] at performed
      rcases performed with ⟨alone, rfl⟩
      exact .clears alone
  | sweeping =>
      obtain rfl := Option.some.inj performed
      exact .sweeps
  | retiring =>
      obtain rfl := Option.some.inj performed
      exact .retires

/-! ## What a section of an action leaves alone -/

/-- A verdict changes progress and outcome of the record and nothing else. -/
theorem judge_eq (runner : Runner) (verdict : Verdict) :
    ∃ change : Execution → Execution,
      (∀ execution, (change execution).action = execution.action
          ∧ (change execution).consumed = execution.consumed)
        ∧ runner.judge verdict = { runner with record := runner.record.map change } := by
  rw [judge.eq_def]
  split
  all_goals
    refine ⟨_, ?_, rfl⟩
    intro execution
    exact ⟨rfl, rfl⟩

namespace ActionSection

variable {runner next : Runner} {link : Link} {job : Job} {activity : Activity}

theorem clock_eq (performed : ActionSection link job runner activity next) :
    next.clock = runner.clock := by
  cases performed with
  | judges _ _ =>
      rcases runner.judge_eq _ with ⟨change, _, judged⟩
      rw [judged]
      rfl
  | _ => rfl

theorem stopping_eq (performed : ActionSection link job runner activity next) :
    next.stopping = runner.stopping := by
  cases performed with
  | judges _ _ =>
      rcases runner.judge_eq _ with ⟨change, _, judged⟩
      rw [judged]
      rfl
  | _ => rfl

/-- An action takes no other action out of the intake and lets none in. -/
theorem intake_eq (performed : ActionSection link job runner activity next) :
    next.intake.pending = runner.intake.pending
      ∧ next.intake.nextOrder = runner.intake.nextOrder
      ∧ next.intake.history ⊆ runner.intake.history := by
  cases performed with
  | judges _ _ =>
      rcases runner.judge_eq _ with ⟨change, _, judged⟩
      rw [judged]
      exact ⟨rfl, rfl, List.Subset.refl _⟩
  | retires => exact ⟨rfl, rfl, List.filter_sublist.subset⟩
  | _ => exact ⟨rfl, rfl, List.Subset.refl _⟩

/-- A section of an action turns the worker to no other action. -/
theorem same_job (performed : ActionSection link job runner activity next) {other : Job}
    {following : Activity} (working : next.worker = .busy other following) : other = job := by
  cases performed with
  | retires | falls _ _ | fallsBeforeScript _ _ _ => cases working
  | _ => exact (Worker.busy.inj working).1.symm

/-- An action does not put the worker to sleep. -/
theorem not_parked (performed : ActionSection link job runner activity next) :
    next.worker ≠ .parked := by
  cases performed with
  | _ => exact Worker.noConfusion

end ActionSection

/-! ## The worker -/

/-- A section of the worker, and the runner behind it. -/
inductive WorkerSection (link : Link) (runner : Runner) : Runner → Prop where
  | takes {job : Job} (looks : runner.worker = .looking)
      (offered : runner.intake.pending = some job) :
      WorkerSection link runner ({ runner with intake := runner.intake.take }.moveTo job .opening)
  | parks (looks : runner.worker = .looking) (nothing : runner.intake.pending = none) :
      WorkerSection link runner { runner with worker := .parked }
  | wakes (parked : runner.worker = .parked) (woken : runner.wakeUp = true) :
      WorkerSection link runner { runner with wakeUp := false, worker := .looking }
  | ends (parked : runner.worker = .parked) (asleep : runner.wakeUp = false)
      (stopping : runner.stopping = true) :
      WorkerSection link runner { runner with worker := .ended }
  | acts {job : Job} {activity : Activity} {next : Runner}
      (busy : runner.worker = .busy job activity)
      (performed : ActionSection link job runner activity next) :
      WorkerSection link runner next

theorem workerSection_cases {runner next : Runner} {link : Link}
    (performed : runner.workerSection link = some next) : WorkerSection link runner next := by
  rw [workerSection.eq_def] at performed
  split at performed
  next looks =>
    split at performed
    next job offered =>
      obtain rfl := Option.some.inj performed
      exact .takes looks offered
    next nothing =>
      obtain rfl := Option.some.inj performed
      exact .parks looks nothing
  next parked =>
    split at performed
    next woken =>
      obtain rfl := Option.some.inj performed
      exact .wakes parked woken
    next asleep =>
      simp only [Option.ite_none_right_eq_some, Option.some.injEq] at performed
      rcases performed with ⟨stopping, rfl⟩
      exact .ends parked (Bool.not_eq_true _ ▸ asleep) stopping
  next job activity busy => exact .acts busy (actionSection_of_jobSection performed)
  all_goals contradiction

namespace WorkerSection

variable {runner next : Runner} {link : Link}

theorem clock_eq (performed : WorkerSection link runner next) : next.clock = runner.clock := by
  cases performed with
  | acts _ performed => exact performed.clock_eq
  | _ => rfl

theorem stopping_eq (performed : WorkerSection link runner next) :
    next.stopping = runner.stopping := by
  cases performed with
  | acts _ performed => exact performed.stopping_eq
  | _ => rfl

/-- The worker puts nothing into the slot of the pending action. -/
theorem pending_eq_none (performed : WorkerSection link runner next)
    (nothing : runner.intake.pending = none) : next.intake.pending = none := by
  cases performed with
  | takes _ _ => rfl
  | parks _ _ | wakes _ _ | ends _ _ _ => exact nothing
  | acts _ performed => exact performed.intake_eq.1.trans nothing

/-- A busy worker is at a section of its action. -/
theorem of_busy (performed : WorkerSection link runner next) {job : Job} {activity : Activity}
    (busy : runner.worker = .busy job activity) :
    ActionSection link job runner activity next := by
  cases performed with
  | acts working performed =>
      rw [busy] at working
      cases working
      exact performed
  | takes standing _ | parks standing _ | wakes standing _ | ends standing _ _ =>
      rw [busy] at standing
      cases standing

end WorkerSection

/-! ## The reporter -/

/-- A section of the reporter, and the runner behind it. -/
inductive ReporterSection (link : Link) (runner : Runner) : Runner → Prop where
  | stops {due : Nat} (running : runner.reporter = some due)
      (idle : runner.signal.raised = true
        ∨ (due ≤ runner.clock ∧ openReport runner.record = none)) :
      ReporterSection link runner { runner with reporter := none }
  | reports {due : Nat} {report : ProgressReport} (running : runner.reporter = some due)
      (lowered : runner.signal.raised = false) (reached : due ≤ runner.clock)
      (told : openReport runner.record = some report) :
      ReporterSection link runner
        ({ runner with reporter := some (due + reportInterval) }.note
          (.reported runner.clock report (link.report report)))

theorem reporterSection_cases {runner next : Runner} {link : Link}
    (performed : runner.reporterSection link = some next) : ReporterSection link runner next := by
  rw [reporterSection.eq_def] at performed
  split at performed
  next => contradiction
  next due running =>
    split at performed
    next raised =>
      obtain rfl := Option.some.inj performed
      exact .stops running (Or.inl raised)
    next lowered =>
      split at performed
      next reached =>
        split at performed
        next report told =>
          obtain rfl := Option.some.inj performed
          exact .reports running (Bool.not_eq_true _ ▸ lowered) reached told
        next silent =>
          obtain rfl := Option.some.inj performed
          exact .stops running (Or.inr ⟨reached, silent⟩)
      next => contradiction

namespace ReporterSection

variable {runner next : Runner} {link : Link}

/-- The reporter changes nothing but itself and the journal. -/
theorem frame (performed : ReporterSection link runner next) :
    ∃ reporter journal, next = { runner with reporter, journal } := by
  cases performed with
  | stops _ _ => exact ⟨none, runner.journal, rfl⟩
  | @reports due report _ _ _ _ =>
      exact ⟨some (due + reportInterval),
        .reported runner.clock report (link.report report) :: runner.journal, rfl⟩

theorem clock_eq (performed : ReporterSection link runner next) :
    next.clock = runner.clock := by
  rcases performed.frame with ⟨reporter, journal, rfl⟩
  rfl

end ReporterSection

/-- What is performed next is a section of the worker or one of the reporter. -/
theorem nextSection_cases {runner next : Runner} {link : Link}
    (performed : runner.nextSection link = some next) :
    WorkerSection link runner next ∨ ReporterSection link runner next := by
  rcases Option.or_eq_some_iff.mp performed with byWorker | ⟨_, byReporter⟩
  · exact Or.inl (workerSection_cases byWorker)
  · exact Or.inr (reporterSection_cases byReporter)

end FlightGuard.Runner
