import FlightGuard.Runner.State

/-!
# The sections of the action runner

The worker and the reporter act in sections that nothing interrupts.  `workerSection` and
`reporterSection` perform the next section of each at the present instant, or give nothing where
it waits for time to pass or for a client.
-/

namespace FlightGuard.Runner

/-! ## The worker -/

/-- Moves the worker on within its action. -/
def moveTo (runner : Runner) (job : Job) (activity : Activity) : Runner :=
  { runner with worker := .busy job activity }

/-- Adds an entry to the journal. -/
def note (runner : Runner) (entry : JournalEntry) : Runner :=
  { runner with journal := entry :: runner.journal }

/-- Sets the outcome of the record, if there is one. -/
def setOutcome (runner : Runner) (outcome : Outcome) : Runner :=
  { runner with record := runner.record.map fun execution => { execution with outcome } }

/-- Sets progress and outcome of the record, if there is one. -/
def setProgress (runner : Runner) (progress : Float32) (outcome : Outcome) : Runner :=
  { runner with
      record := runner.record.map fun execution => { execution with progress, outcome } }

/-- Marks the record as consumed, if there is one. -/
def consume (runner : Runner) : Runner :=
  { runner with
      record := runner.record.map fun execution => { execution with consumed := true } }

/-- Begins to settle at the present instant. -/
def settleDown (runner : Runner) (job : Job) : Runner :=
  runner.moveTo job (.settling (runner.clock + settleTime))

/-- Ends an action that was cancelled. -/
def abandon (runner : Runner) (job : Job) : Runner :=
  (runner.setOutcome .canceled).settleDown job

/-- Brings the worker down. -/
def fail (runner : Runner) : Runner :=
  { runner with worker := .failed }

/-- When something that takes a number of milliseconds or forever is due. -/
def dueAfter (clock : Nat) (delay : Option Nat) : Option Nat :=
  delay.map (clock + ·)

/-- Whether something is due by now. -/
def isDue (clock : Nat) (due : Option Nat) : Bool :=
  due.any (· ≤ clock)

/--
When a script call ends and how: by its answer, or by its time limit if the answer does not come
before the limit is over.
-/
def scriptEnd (clock : Nat) (limit : Option Nat) (reply : Reply) : Option Nat × Verdict :=
  match limit with
  | none => (dueAfter clock reply.delay, .answered reply.outcome)
  | some limit =>
      if reply.delay.any (· ≤ limit) then (dueAfter clock reply.delay, .answered reply.outcome)
      else (some (clock + limit), .timedOut)

/-- Enters the verdict on a script into the record. -/
def judge (runner : Runner) : Verdict → Runner
  | .answered (.ok .success) => runner.setProgress 100 .success
  | .answered (.ok outcome) => runner.setOutcome outcome
  | .answered (.error _) => runner.setOutcome .failed
  | .timedOut => runner.setOutcome .failed

/-- Creates the record, starts the reporter and turns to the stages or to the script. -/
def openJob (runner : Runner) (job : Job) : Runner :=
  { runner with
      record := some (.start job.action)
      reporter := some runner.clock
      worker := .busy job (if job.action.stages.isEmpty then .scripting
        else .staging 0 job.action.stages) }

/-- Calls the next stage, unless the action is cancelled. -/
def callStage (runner : Runner) (link : Link) (job : Job) (done : Nat) (stage : Stage)
    (remaining : List Stage) : Runner :=
  if runner.signal.raised then runner.abandon job
  else
    let reply := link.stage stage
    (runner.note (.stageCalled runner.clock stage)).moveTo job
      (.calling done stage remaining (dueAfter runner.clock reply.delay) reply.outcome)

/-- Takes the answer to a stage, whatever it says, and begins the wait behind it. -/
def answerStage (runner : Runner) (job : Job) (done : Nat) (stage : Stage)
    (remaining : List Stage) (answer : Except LinkError Outcome) : Runner :=
  let noted := runner.note (.stageAnswered runner.clock answer)
  match stage.wait with
  | .ok wait => noted.moveTo job (.resting done remaining (runner.clock + wait.waitMilliseconds))
  | .error _ => noted.fail

/-- Enters a finished stage into the record and turns to the next one, if there is one. -/
def completeStage (runner : Runner) (job : Job) (done : Nat) (remaining : List Stage) : Runner :=
  let progress := Execution.stageProgress (done + 1) job.action.stages.length
  if remaining.isEmpty then (runner.setProgress progress .success).settleDown job
  else (runner.setProgress progress .inProgress).moveTo job (.staging (done + 1) remaining)

/-- Calls the script, unless there is none or the action is cancelled. -/
def callScript (runner : Runner) (link : Link) (job : Job) : Runner :=
  match job.action.script with
  | none => (runner.setOutcome .failed).settleDown job
  | some script =>
      if runner.signal.raised then runner.abandon job
      else
        match job.action.limit with
        | .error _ => runner.fail
        | .ok limit =>
            let (due, verdict) := scriptEnd runner.clock (limit.map Duration.waitMilliseconds)
              (link.script script)
            (runner.note (.scriptCalled runner.clock script)).moveTo job (.awaiting due verdict)

/-- Consumes the record; the cancellation that the action has answered is lowered with it. -/
def consumeRecord (runner : Runner) (job : Job) : Runner :=
  { (runner.consume.moveTo job .lingering) with signal := runner.signal.apply (.set false) }

/-- The next section of an action at the present instant. -/
def jobSection (runner : Runner) (link : Link) (job : Job) : Activity → Option Runner
  | .opening => some (runner.openJob job)
  | .staging _ [] => some (runner.settleDown job)
  | .staging done (stage :: remaining) => some (runner.callStage link job done stage remaining)
  | .calling done stage remaining due answer =>
      if isDue runner.clock due then some (runner.answerStage job done stage remaining answer)
      else none
  | .resting done remaining deadline =>
      match CancelSignal.poll runner.signal.raised runner.clock deadline with
      | some true => some (runner.abandon job)
      | some false => some (runner.completeStage job done remaining)
      | none => none
  | .scripting => some (runner.callScript link job)
  | .awaiting due verdict =>
      if runner.signal.raised then some (runner.abandon job)
      else if isDue runner.clock due then some ((runner.judge verdict).settleDown job)
      else none
  | .settling deadline =>
      if deadline ≤ runner.clock then some (runner.consumeRecord job) else none
  | .lingering =>
      if runner.reporter.isNone then some ({ runner with record := none }.moveTo job .sweeping)
      else none
  | .sweeping =>
      some ({ runner with signal := runner.signal.apply (.set false) }.moveTo job .retiring)
  | .retiring =>
      some { runner with intake := runner.intake.retire job.order, worker := .looking }

/-- The next section of the worker at the present instant. -/
def workerSection (runner : Runner) (link : Link) : Option Runner :=
  match runner.worker with
  | .looking =>
      match runner.intake.pending with
      | some job => some ({ runner with intake := runner.intake.take }.moveTo job .opening)
      | none => some { runner with worker := .parked }
  | .parked =>
      if runner.wakeUp then some { runner with wakeUp := false, worker := .looking }
      else if runner.stopping then some { runner with worker := .ended }
      else none
  | .busy job activity => runner.jobSection link job activity
  | .ended | .failed => none

/-! ## The reporter -/

/-- What the reporter would tell about a record that is not consumed. -/
def openReport (record : Option Execution) : Option ProgressReport :=
  (record.filter fun execution => !execution.consumed).map fun execution =>
    ⟨execution.action.id, execution.progress, execution.outcome⟩

/--
The next section of the reporter at the present instant: it ends when the action is cancelled or
its record is consumed, and otherwise reports whenever the next report is due.
-/
def reporterSection (runner : Runner) (link : Link) : Option Runner :=
  match runner.reporter with
  | none => none
  | some due =>
      if runner.signal.raised then some { runner with reporter := none }
      else if due ≤ runner.clock then
        match openReport runner.record with
        | some report =>
            some ({ runner with reporter := some (due + reportInterval) }.note
              (.reported runner.clock report (link.report report)))
        | none => some { runner with reporter := none }
      else none

/-- The next section at the present instant; where both could act the worker goes first. -/
def nextSection (runner : Runner) (link : Link) : Option Runner :=
  (runner.workerSection link).or (runner.reporterSection link)

end FlightGuard.Runner
