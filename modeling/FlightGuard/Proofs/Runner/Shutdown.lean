import FlightGuard.Proofs.Runner.Survival

/-!
# What happens after a request to stop

Only a worker that sleeps notices the request, and up to its next sleep a run goes on as if nothing
had been asked for.  So an action that is executed is finished with all that belongs to it, and the
worker ends behind it, provided that it finds no pending action then.  If it finds one it turns to
it, although it was asked to stop.
-/

namespace FlightGuard

namespace Runner

/-! ## A worker that is awake does not notice the request -/

theorem callStage_stop (runner : Runner) (link : Link) (job : Job) (done : Nat) (stage : Stage)
    (remaining : List Stage) :
    runner.stop.callStage link job done stage remaining =
      (runner.callStage link job done stage remaining).stop := by
  rw [callStage, callStage, apply_ite stop]
  rfl

theorem answerStage_stop (runner : Runner) (job : Job) (done : Nat) (stage : Stage)
    (remaining : List Stage) (answer : Except LinkError Outcome) :
    runner.stop.answerStage job done stage remaining answer =
      (runner.answerStage job done stage remaining answer).stop := by
  rw [answerStage, answerStage]
  split <;> rfl

theorem completeStage_stop (runner : Runner) (job : Job) (done : Nat) (remaining : List Stage) :
    runner.stop.completeStage job done remaining =
      (runner.completeStage job done remaining).stop := by
  rw [completeStage, completeStage]
  split <;> rfl

theorem callScript_stop (runner : Runner) (link : Link) (job : Job) :
    runner.stop.callScript link job = (runner.callScript link job).stop := by
  rw [callScript, callScript]
  split
  next => rfl
  next script given =>
    change (if runner.signal.raised = true then _ else _) =
      stop (if runner.signal.raised = true then _ else _)
    split
    next => rfl
    next => split <;> rfl

theorem judge_stop (runner : Runner) (verdict : Verdict) :
    runner.stop.judge verdict = (runner.judge verdict).stop := by
  rw [judge.eq_def, judge.eq_def]
  split <;> rfl

theorem jobSection_stop (runner : Runner) (link : Link) (job : Job) (activity : Activity) :
    runner.stop.jobSection link job activity = (runner.jobSection link job activity).map stop := by
  cases activity with
  | opening | sweeping | retiring => rfl
  | staging done remaining =>
      cases remaining with
      | nil => rfl
      | cons stage remaining =>
          exact congrArg some (runner.callStage_stop link job done stage remaining)
  | scripting => exact congrArg some (runner.callScript_stop link job)
  | calling done stage remaining due answer =>
      rw [jobSection, jobSection, answerStage_stop, Option.map_if]
      rfl
  | settling deadline =>
      rw [jobSection, jobSection, Option.map_if]
      rfl
  | lingering =>
      rw [jobSection, jobSection, Option.map_if]
      rfl
  | awaiting due verdict =>
      rw [jobSection, jobSection, judge_stop, apply_ite (Option.map stop), Option.map_if]
      rfl
  | resting done remaining deadline =>
      have same : CancelSignal.poll runner.stop.signal.raised runner.stop.clock deadline =
          CancelSignal.poll runner.signal.raised runner.clock deadline := rfl
      rw [jobSection, jobSection, completeStage_stop, same]
      cases CancelSignal.poll runner.signal.raised runner.clock deadline with
      | none => rfl
      | some cut => cases cut <;> rfl

/-- The worker is somewhere else than in its sleep. -/
def IsAwake (runner : Runner) : Prop :=
  runner.worker ≠ .parked

theorem workerSection_stop {runner : Runner} (awake : runner.IsAwake) (link : Link) :
    runner.stop.workerSection link = (runner.workerSection link).map stop := by
  have same : runner.stop.worker = runner.worker := rfl
  rw [workerSection.eq_def, workerSection.eq_def, same]
  cases standing : runner.worker with
  | looking =>
      have offered : runner.stop.intake.pending = runner.intake.pending := rfl
      rw [offered]
      cases runner.intake.pending <;> rfl
  | parked => exact absurd standing awake
  | busy job activity => exact runner.jobSection_stop link job activity
  | ended | failed => rfl

theorem offer_stop (runner : Runner) (action : CustomAction) :
    runner.stop.offer action =
      (runner.offer action).map fun (order, offered) => (order, offered.stop) := by
  change (runner.intake.offer action (runner.clock * 1000)).map _ =
    ((runner.intake.offer action (runner.clock * 1000)).map _).map _
  cases runner.intake.offer action (runner.clock * 1000) <;> rfl

theorem judgeLate_stop (runner : Runner) : runner.stop.judgeLate = runner.judgeLate.stop := by
  have same : runner.stop.worker = runner.worker := rfl
  rw [judgeLate.eq_def, judgeLate.eq_def, same]
  split
  next job due verdict _ =>
    rw [judge_stop, apply_ite stop]
    rfl
  next => rfl

theorem leave_stop {runner : Runner} (awake : runner.IsAwake) :
    runner.stop.leave = runner.leave.stop := by
  have same : runner.stop.worker = runner.worker := rfl
  rw [leave.eq_def, leave.eq_def, same]
  split
  next parked => exact absurd parked awake
  next => rfl

end Runner

namespace Scene

theorem offer_stop (scene : Scene) (link : Link) (action : CustomAction) :
    (scene.perform link .stop).offer action = (scene.offer action).perform link .stop := by
  have asked : (scene.perform link .stop).runner.offer action = _ :=
    scene.runner.offer_stop action
  rw [offer, offer, asked]
  cases scene.runner.offer action <;> rfl

theorem perform_request (scene : Scene) (link : Link) (file : StoredFile) (path : String)
    (id : UInt32) :
    scene.perform link (.request file path id) =
      (Beat.request file path id).offered?.elim scene scene.offer := by
  rw [perform]
  cases (Beat.request file path id).offered? <;> rfl

/-- While the worker is awake it makes no difference whether the request comes before a beat. -/
theorem perform_stop {scene : Scene} (awake : scene.runner.IsAwake) (link other : Link)
    (beat : Beat) :
    (scene.perform other .stop).perform link beat =
      (scene.perform link beat).perform other .stop := by
  cases beat with
  | offer action => exact scene.offer_stop other action
  | request file path id =>
      rw [perform_request, perform_request]
      cases (Beat.request file path id).offered? with
      | none => rfl
      | some action => exact scene.offer_stop other action
  | announce order =>
      change (if order ∈ scene.unannounced then _ else _) =
        (if order ∈ scene.unannounced then _ else _ : Scene).perform other .stop
      split <;> rfl
  | cancel raised =>
      change Scene.mk (if (raised && !scene.runner.isCancellable) = true then _ else _) _ _ =
        Scene.perform (Scene.mk (if (raised && !scene.runner.isCancellable) = true then _ else _)
          _ _) other .stop
      split <;> rfl
  | work =>
      change Scene.mk ((scene.runner.stop.workerSection link).getD scene.runner.stop) _ _ =
        Scene.perform (Scene.mk ((scene.runner.workerSection link).getD scene.runner) _ _) other
          .stop
      rw [Runner.workerSection_stop awake link]
      cases scene.runner.workerSection link <;> rfl
  | leave =>
      change Scene.mk scene.runner.stop.leave _ _ =
        Scene.perform (Scene.mk scene.runner.leave _ _) other .stop
      rw [Runner.leave_stop awake]
      rfl
  | judgeLate =>
      change Scene.mk scene.runner.stop.judgeLate _ _ =
        Scene.perform (Scene.mk scene.runner.judgeLate _ _) other .stop
      rw [scene.runner.judgeLate_stop]
      rfl
  | read =>
      change Scene.read { scene with runner := scene.runner.stop } = scene.read.perform other .stop
      dsimp only [read, Runner.stop]
      split
      next =>
        split
        next => split <;> rfl
        next => rfl
      next => rfl
  | send =>
      change Scene.send { scene with runner := scene.runner.stop } link =
        (scene.send link).perform other .stop
      dsimp only [send, Runner.stop]
      split <;> rfl
  | cease =>
      change Scene.cease { scene with runner := scene.runner.stop } =
        scene.cease.perform other .stop
      dsimp only [cease, Runner.stop]
      split
      next => split <;> rfl
      next => rfl
  | stop | pass => rfl

/-- A request changes nothing else before the worker sleeps. -/
theorem performAll_stop {scene : Scene} (link : Link) {later : List (Link × Beat)}
    (awake : scene.Throughout Runner.IsAwake later) :
    (scene.perform link .stop).performAll later =
      (scene.performAll later).perform link .stop := by
  induction later generalizing scene with
  | nil => rfl
  | cons head later induction =>
      rw [performAll, performAll, perform_stop awake.1]
      exact induction awake.2

end Scene

/-! ## A worker that finds no action -/

/-- The action whose record is about to be created, if there is one. -/
def Worker.opening? : Worker → Option Job
  | .busy job .opening => some job
  | _ => none

/-- An entry is a report, or belongs to a call of the action that a worker is at. -/
def JournalEntry.IsDueTo (worker : Worker) : JournalEntry → Prop
  | .reported _ _ _ => True
  | entry => ∃ job activity, worker = .busy job activity ∧ entry.IsCallOf job.action

namespace Runner

/-- If the worker is about to look for an action, there is none. -/
def FindsNothing (runner : Runner) : Prop :=
  runner.worker = .looking → runner.intake.pending = none

theorem opens?_of_opening {before after : Runner} {job : Job}
    (opening : before.worker = .busy job .opening) (opened : after.worker.opening? = none) :
    before.opens? after = some job := by
  rw [opens?, opening]
  cases standing : after.worker with
  | looking | parked | ended | failed => rfl
  | busy other activity =>
      cases activity with
      | opening =>
          rw [standing] at opened
          cases opened
      | _ => rfl

theorem ActionSection.opening?_eq_none {runner next : Runner} {link : Link} {job : Job}
    {activity : Activity} (performed : ActionSection link job runner activity next) :
    next.worker.opening? = none := by
  cases performed with
  | opens =>
      rw [openJob]
      cases job.action.stages.isEmpty <;> rfl
  | _ => rfl

end Runner

namespace Scene.Step

variable {link : Link} {scene next : Scene} {beat : Beat}

/-- A worker that finds nothing turns to no action. -/
theorem turnsTo?_eq_none (step : Step link scene beat next)
    (nothing : scene.runner.FindsNothing) : scene.runner.turnsTo? next.runner = none := by
  cases turned : scene.runner.turnsTo? next.runner with
  | none => rfl
  | some job =>
      rcases step.found_of_turnsTo? turned with ⟨looks, offered⟩
      rw [nothing looks] at offered
      cases offered

/-- What has a record or is about to open one grows by what the worker turns to. -/
theorem opening?_append_opens? (step : Step link scene beat next) :
    next.runner.worker.opening?.toList ++ (scene.runner.opens? next.runner).toList =
      (scene.runner.turnsTo? next.runner).toList ++ scene.runner.worker.opening?.toList := by
  rcases step.worker_cases with
    same | performed | ⟨parked, ended⟩ | ⟨_, _, _, _, busy, settling⟩
  · rw [Runner.opens?_of_worker_eq same, Runner.turnsTo?_of_worker_eq same, same]
    exact List.append_nil _
  · generalize next.runner = after at performed ⊢
    cases performed with
    | takes looks offered =>
        rw [Runner.opens?, Runner.turnsTo?, looks]
        rfl
    | parks standing _ | wakes standing _ | ends standing _ _ =>
        rw [Runner.opens?, Runner.turnsTo?, standing]
        rfl
    | @acts job activity runner busy performed =>
        rw [Runner.turnsTo?_of_busy busy, performed.opening?_eq_none, busy]
        -- The section that leaves this activity is the one that creates the record.
        by_cases opening : activity = .opening
        · subst opening
          rw [Runner.opens?_of_opening busy performed.opening?_eq_none]
          rfl
        · rw [Runner.opens?_of_busy busy opening]
          cases activity with
          | opening => exact absurd rfl opening
          | _ => rfl
  · rw [Runner.opens?, Runner.turnsTo?, parked, ended]
    rfl
  · rw [Runner.turnsTo?_of_busy busy, Runner.opens?_of_busy busy Activity.noConfusion, busy,
      settling]
    rfl

end Scene.Step

namespace Chronicle

/-- The actions that the worker has turned to, the latest first. -/
def begun (chapters : List Chapter) (scene : Scene) : List Job :=
  scene.runner.worker.opening?.toList ++ chapters.map Chapter.job

theorem map_job_enter (chapters : List Chapter) (scene : Scene) (beat : Scene.Beat)
    (next : Scene) :
    (enter chapters scene beat next).map Chapter.job =
      (scene.runner.opens? next.runner).toList ++ chapters.map Chapter.job := by
  rw [enter]
  split
  next opened =>
    rw [opened]
    rfl
  next unopened =>
    rw [unopened]
    cases chapters <;> rfl

/-- With every action that the worker turns to one more is begun. -/
theorem begun_enter {link : Link} {scene next : Scene} {beat : Scene.Beat}
    (step : Scene.Step link scene beat next) (chapters : List Chapter) :
    begun (enter chapters scene beat next) next =
      (scene.runner.turnsTo? next.runner).toList ++ begun chapters scene := by
  rw [begun, map_job_enter, ← List.append_assoc, step.opening?_append_opens?, List.append_assoc,
    begun]

/-- The worker is at an action that was begun. -/
def Covers (chapters : List Chapter) (scene : Scene) : Prop :=
  ∀ job activity, scene.runner.worker = .busy job activity → job ∈ begun chapters scene

theorem Covers.initial (clock : Nat) : Covers [] (.initial clock) := by
  intro job activity busy
  cases busy

theorem Covers.step {link : Link} {scene next : Scene} {beat : Scene.Beat}
    {chapters : List Chapter} (covers : Covers chapters scene)
    (step : Scene.Step link scene beat next) : Covers (enter chapters scene beat next) next := by
  intro job activity busy
  rw [begun_enter step]
  rcases step.busy_cases busy with ⟨before, working⟩ | turned
  · exact List.mem_append_right _ (covers job before working)
  · rw [turned]
    exact List.mem_append_left _ (List.mem_singleton_self job)

end Chronicle

/-- Since a moment no action was begun and nothing was called but for the action of that moment. -/
structure StartsNothing (stopped : Scene) (begun : List Job) (chapters : List Chapter)
    (scene : Scene) : Prop where
  same : ∀ job activity, scene.runner.worker = .busy job activity →
    ∃ before, stopped.runner.worker = .busy job before
  pursuing : scene.runner.Pursuing
  begun : Chronicle.begun chapters scene = begun
  noted : ∃ entries, scene.runner.journal = entries ++ stopped.runner.journal
    ∧ ∀ entry ∈ entries, entry.IsDueTo stopped.runner.worker

namespace StartsNothing

variable {stopped scene next : Scene} {jobs : List Job} {chapters : List Chapter}

/-- The request begins nothing itself. -/
theorem stop (link : Link) (pursuing : scene.runner.Pursuing) :
    StartsNothing scene (Chronicle.begun chapters scene)
      (Chronicle.enter chapters scene .stop (scene.perform link .stop))
      (scene.perform link .stop) where
  same _ activity busy := ⟨activity, busy⟩
  pursuing := pursuing
  begun := by
    have unmoved : scene.runner.turnsTo? (scene.perform link .stop).runner = none :=
      Runner.turnsTo?_of_worker_eq rfl
    rw [Chronicle.begun_enter (scene.perform_step link .stop), unmoved]
    rfl
  noted := ⟨[], rfl, nofun⟩

theorem step {link : Link} {beat : Scene.Beat}
    (starts : StartsNothing stopped jobs chapters scene)
    (step : Scene.Step link scene beat next) (nothing : scene.runner.FindsNothing) :
    StartsNothing stopped jobs (Chronicle.enter chapters scene beat next) next where
  same := by
    intro job activity busy
    rcases step.busy_cases busy with ⟨before, working⟩ | turned
    · exact starts.same job before working
    · rw [step.turnsTo?_eq_none nothing] at turned
      cases turned
  pursuing := step.pursuing starts.pursuing
  begun := by
    rw [Chronicle.begun_enter step, step.turnsTo?_eq_none nothing]
    exact starts.begun
  noted := by
    rcases starts.noted with ⟨entries, journal, due⟩
    rcases step.journal starts.pursuing with
      still | ⟨entry, job, activity, noted, busy, _, isCall⟩ | ⟨report, _, noted⟩
    · exact ⟨entries, still.trans journal, due⟩
    · refine ⟨entry :: entries, by rw [noted, journal, List.cons_append], ?_⟩
      refine List.forall_mem_cons.mpr ⟨?_, due⟩
      rcases starts.same job activity busy with ⟨before, working⟩
      cases entry with
      | reported _ _ _ => trivial
      | stageCalled _ _ | stageAnswered _ _ | scriptCalled _ _ =>
          exact ⟨job, before, working, isCall⟩
    · refine ⟨_ :: entries, by rw [noted, journal, List.cons_append], ?_⟩
      exact List.forall_mem_cons.mpr ⟨trivial, due⟩

theorem observe (starts : StartsNothing stopped jobs chapters scene)
    {later : List (Link × Scene.Beat)} (quiet : scene.Throughout Runner.FindsNothing later) :
    StartsNothing stopped jobs (scene.observe Chronicle.enter chapters later).2
      (scene.observe Chronicle.enter chapters later).1 :=
  Scene.observe_preserves_throughout
    (fun _ _ _ _ _ step nothing starts => starts.step step nothing) starts quiet

end StartsNothing

/-! ## In step with the clock -/

namespace Runner

/-- A request to stop is not taken back. -/
theorem perform_stopping {runner : Runner} (stopping : runner.stopping = true) (link : Link)
    (move : Move) : (runner.perform link move).stopping = true := by
  cases move with
  | offer action =>
      rw [perform]
      rcases runner.offer_cases action with ⟨rejection, rejected⟩ | accepted
      · rw [rejected]
        exact stopping
      · rw [accepted]
        exact stopping
  | cancel raised =>
      rcases runner.cancel_frame raised with ⟨signal, cancelled⟩
      rw [perform, cancelled]
      exact stopping
  | worker =>
      rcases runner.perform_worker_cases link with idle | performed
      · rw [idle]
        exact stopping
      · exact performed.stopping_eq.trans stopping
  | reporter =>
      rcases runner.perform_reporter_cases link with idle | performed
      · rw [idle]
        exact stopping
      · rcases performed.frame with ⟨reporter, journal, reported⟩
        rw [reported]
        exact stopping
  | stop => rfl
  | wake | pass _ => exact stopping

/-- The worker sleeps and is about to end, or has ended. -/
inductive Leaving (runner : Runner) : Prop where
  | asleep (parked : runner.worker = .parked) (unwoken : runner.wakeUp = false)
      (stopping : runner.stopping = true)
  | ended (ended : runner.worker = .ended)

namespace Leaving

variable {runner next : Runner}

theorem congr (leaving : runner.Leaving) (worker : next.worker = runner.worker)
    (wakeUp : next.wakeUp = runner.wakeUp) (stopping : next.stopping = runner.stopping) :
    next.Leaving := by
  cases leaving with
  | asleep parked unwoken asked =>
      exact .asleep (worker.trans parked) (wakeUp.trans unwoken) (stopping.trans asked)
  | ended ended => exact .ended (worker.trans ended)

theorem workerSection {link : Link} (leaving : runner.Leaving)
    (performed : WorkerSection link runner next) : next.Leaving := by
  cases performed with
  | ends _ _ _ => exact .ended rfl
  | wakes parked woken =>
      cases leaving with
      | asleep _ unwoken _ =>
          rw [unwoken] at woken
          cases woken
      | ended ended =>
          rw [ended] at parked
          cases parked
  | takes standing _ | parks standing _ | acts standing _ =>
      cases leaving with
      | asleep parked _ _ =>
          rw [parked] at standing
          cases standing
      | ended ended =>
          rw [ended] at standing
          cases standing

/-- A worker that is about to end does not wait. -/
theorem ended_of_waits (leaving : runner.Leaving) (waits : runner.IsWaiting) :
    runner.worker = .ended := by
  cases leaving with
  | ended ended => exact ended
  | asleep parked _ stopping =>
      have asleep := (runner.isWaiting_iff.mp waits).1
      rw [WorkerWaits, parked] at asleep
      rw [asleep.2] at stopping
      cases stopping

theorem turn {event : Event} (leaving : runner.Leaving) (turn : Turn runner event next) :
    next.Leaving := by
  cases turn with
  | act link performed =>
      rcases nextSection_cases performed with byWorker | byReporter
      · exact leaving.workerSection byWorker
      · rcases byReporter.frame with ⟨reporter, journal, rfl⟩
        exact leaving.congr rfl rfl rfl
  | operate waits operation =>
      rcases runner.operate_eq operation with ⟨intake, wakeUp, signal, stopping, operated⟩
      rw [operated]
      exact .ended (leaving.ended_of_waits waits)
  | pass _ _ _ => exact leaving.congr rfl rfl rfl

end Leaving

/-- A worker that sleeps when it is asked to stop ends at once, whatever clients do then. -/
theorem ended_of_parked {runner later : Runner} (waits : runner.IsWaiting)
    (parked : runner.worker = .parked) (leads : Leads runner.stop later)
    (waiting : later.IsWaiting) : later.worker = .ended := by
  have asleep := (runner.isWaiting_iff.mp waits).1
  rw [WorkerWaits, parked] at asleep
  have leaving : later.Leaving :=
    leads.preserves Leaving (fun _ _ _ turn leaving => leaving.turn turn)
      (.asleep parked asleep.1 rfl)
  exact leaving.ended_of_waits waiting

/-- Prompt turns lead to a runner, and behind none of them a pending action is found. -/
def LeadsUnfollowed (action : CustomAction) (delay : Nat) : Runner → Runner → Prop :=
  Relation.ReflTransGen fun runner next =>
    PromptTurn action delay runner next ∧ next.FindsNothing

theorem LeadsUnfollowed.leadsPromptly {action : CustomAction} {delay : Nat}
    {runner later : Runner} (unfollowed : LeadsUnfollowed action delay runner later) :
    LeadsPromptly action delay runner later :=
  Relation.ReflTransGen.mono (fun _ _ turn => turn.1) runner later unfollowed

theorem nextSection_pending_eq_none {runner next : Runner} {link : Link}
    (performed : runner.nextSection link = some next) (nothing : runner.intake.pending = none) :
    next.intake.pending = none := by
  rcases nextSection_cases performed with byWorker | byReporter
  · exact byWorker.pending_eq_none nothing
  · rcases byReporter.frame with ⟨reporter, journal, rfl⟩
    exact nothing

/-- Where nothing is pending and no client comes in, nothing is found. -/
theorem FlowsUnder.leadsUnfollowed {link : Link} {action : CustomAction} {delay : Nat}
    (settles : link.Settles action delay) {runner later : Runner}
    (nothing : runner.intake.pending = none) (flows : FlowsUnder link runner later) :
    LeadsUnfollowed action delay runner later := by
  -- Only clients fill the slot, so it is the emptiness of the slot that is carried along.
  have unclaimed : LeadsUnfollowed action delay runner later ∧ later.intake.pending = none := by
    induction flows with
    | refl => exact ⟨.refl, nothing⟩
    | tail _ turn induction =>
        rcases induction with ⟨before, nothing⟩
        rcases turn with performed | turn
        · have still := nextSection_pending_eq_none performed nothing
          exact ⟨before.tail ⟨Or.inl ⟨link, settles, performed⟩, fun _ => still⟩, still⟩
        · cases turn with
          | pass waits forward inTime =>
              have turn := Turn.pass waits forward inTime
              exact ⟨before.tail ⟨Or.inr ⟨.pass, Event.noConfusion, turn⟩, fun _ => nothing⟩,
                nothing⟩
  exact unclaimed.1

/-- The worker, which was asked to stop, is at its last action or on its way to the end. -/
structure Finishing (job : Job) (runner : Runner) : Prop where
  stopping : runner.stopping = true
  nothing : runner.FindsNothing
  same : ∀ other activity, runner.worker = .busy other activity → other = job
  up : runner.worker ≠ .failed

namespace Finishing

variable {job : Job} {runner next : Runner}

theorem workerSection {link : Link} (finishing : runner.Finishing job)
    (performed : WorkerSection link runner next) (timely : job.action.isTimely = true)
    (pursuing : runner.Pursuing) :
    (∀ other activity, next.worker = .busy other activity → other = job)
      ∧ next.worker ≠ .failed := by
  cases performed with
  | takes looks offered =>
      rw [finishing.nothing looks] at offered
      cases offered
  | parks _ _ | wakes _ _ | ends _ _ _ =>
      exact ⟨fun _ _ => Worker.noConfusion, Worker.noConfusion⟩
  | acts busy performed =>
      obtain rfl := finishing.same _ _ busy
      exact ⟨fun _ _ => performed.same_job, performed.not_failed timely (pursuing _ _ busy)⟩

theorem turn (finishing : runner.Finishing job) {delay : Nat}
    (timely : job.action.isTimely = true) (pursuing : runner.Pursuing)
    (prompt : PromptTurn job.action delay runner next) (nothing : next.FindsNothing) :
    next.Finishing job := by
  have stopping : next.stopping = true := by
    rcases prompt.turn with ⟨event, turn⟩
    exact turn.preserves (fun runner => runner.stopping = true)
      (fun runner link move stopping => perform_stopping stopping link move) finishing.stopping
  have unmoved (worker : next.worker = runner.worker) : next.Finishing job :=
    ⟨stopping, nothing, worker ▸ finishing.same, worker ▸ finishing.up⟩
  rcases prompt with ⟨link, _, performed⟩ | ⟨event, other, turn⟩
  · rcases nextSection_cases performed with byWorker | byReporter
    · rcases finishing.workerSection byWorker timely pursuing with
        ⟨same, up⟩
      exact ⟨stopping, nothing, same, up⟩
    · rcases byReporter.frame with ⟨reporter, journal, rfl⟩
      exact unmoved rfl
  · cases turn with
    | act link performed => exact absurd rfl other
    | operate _ operation =>
        rcases runner.operate_eq operation with ⟨intake, wakeUp, signal, stopped, operated⟩
        exact unmoved (operated ▸ rfl)
    | pass _ _ _ => exact unmoved rfl

theorem leads {later : Runner} (finishing : runner.Finishing job) {delay : Nat}
    (timely : job.action.isTimely = true) (reached : runner.Reached)
    (unfollowed : LeadsUnfollowed job.action delay runner later) : later.Finishing job := by
  induction unfollowed with
  | refl => exact finishing
  | tail before turn induction =>
      have leads := (LeadsUnfollowed.leadsPromptly before).leads
      exact induction.turn timely (reached.leads leads).pursuing turn.1 turn.2

/-- Where every part waits the worker is at its last action or has ended. -/
theorem busy_or_ended (finishing : runner.Finishing job) (waits : runner.IsWaiting) :
    (∃ activity, runner.worker = .busy job activity) ∨ runner.worker = .ended := by
  have waiting := (runner.isWaiting_iff.mp waits).1
  rw [WorkerWaits.eq_def] at waiting
  cases standing : runner.worker with
  | looking =>
      rw [standing] at waiting
      exact waiting.elim
  | parked =>
      rw [standing] at waiting
      have unasked := waiting.2
      rw [finishing.stopping] at unasked
      cases unasked
  | busy other activity =>
      obtain rfl := finishing.same other activity standing
      exact Or.inl ⟨activity, rfl⟩
  | ended => exact Or.inr rfl
  | failed => exact absurd standing finishing.up

end Finishing

theorem LeadsUnfollowed.finishing {job : Job} {activity : Activity} {delay : Nat}
    {runner later : Runner} (unfollowed : LeadsUnfollowed job.action delay runner.stop later)
    (reached : runner.stop.Reached) (timely : job.action.isTimely = true)
    (busy : runner.worker = .busy job activity) : later.Finishing job := by
  have working : runner.stop.worker = .busy job activity := busy
  have finishing : runner.stop.Finishing job := by
    refine ⟨rfl, ?_, ?_, ?_⟩
    · intro looks
      rw [working] at looks
      cases looks
    · intro other following busy
      rw [working] at busy
      cases busy
      rfl
    · rw [working]
      exact Worker.noConfusion
  exact finishing.leads timely reached unfollowed

/-- An action whose calls are answered in time is finished, and then the worker has ended. -/
theorem LeadsUnfollowed.ended {job : Job} {activity : Activity} {delay latest : Nat}
    {runner later : Runner} (unfollowed : LeadsUnfollowed job.action delay runner.stop later)
    (reached : runner.stop.Reached) (timely : job.action.isTimely = true)
    (busy : runner.worker = .busy job activity)
    (estimate : activity.latest delay job.action runner.clock runner.reporter = some latest)
    (waiting : later.IsWaiting) (elapsed : latest ≤ later.clock) : later.worker = .ended := by
  have finishing := unfollowed.finishing reached timely busy
  rcases finishing.busy_or_ended waiting with ⟨following, working⟩ | ended
  · have past := unfollowed.leadsPromptly.past reached timely busy estimate waiting elapsed
    exact absurd working (past.not_busy following)
  · exact ended

end Runner

namespace Scene

/--
A request to stop makes no difference to a worker that is awake.  If the worker finds no pending
action from the request on, then no action is begun any more and nothing is called but for the
action that it is at, and where it has ended that action had its record, whose last result had
settled.  In step with the clock a worker that sleeps ends at once.  One that is at a timely action
whose calls are answered in time stays with it, and has ended at an instant that is known
beforehand, which is reached wherever nothing is pending.
-/
theorem shutdown_starts_nothing_new (clock : Nat) (before : List (Link × Beat)) (link : Link)
    (later : List (Link × Beat)) :
    let stopped := (initial clock).observe Chronicle.enter [] before
    let run := stopped.1.observe Chronicle.enter stopped.2 ((link, .stop) :: later)
    (stopped.1.Throughout Runner.IsAwake later →
        (stopped.1.perform link .stop).performAll later =
          (stopped.1.performAll later).perform link .stop)
      ∧ ((stopped.1.perform link .stop).Throughout Runner.FindsNothing later →
          Chronicle.begun run.2 run.1 = Chronicle.begun stopped.2 stopped.1
            ∧ (∀ job activity, run.1.runner.worker = .busy job activity →
                ∃ before, stopped.1.runner.worker = .busy job before)
            ∧ (∃ entries, run.1.runner.journal = entries ++ stopped.1.runner.journal
                ∧ ∀ entry ∈ entries, entry.IsDueTo stopped.1.runner.worker)
            ∧ (run.1.runner.worker = .ended →
                ∀ job activity, stopped.1.runner.worker = .busy job activity →
                  ∃ chapter ∈ run.2, chapter.job = job ∧ chapter.ClosedBy run.1.runner.clock))
      ∧ (∀ runner : Runner, runner.Reached → runner.IsWaiting → runner.worker = .parked →
          ∀ next, Runner.Leads runner.stop next → next.IsWaiting → next.worker = .ended)
      ∧ (∀ runner : Runner, runner.Reached → runner.IsWaiting → ∀ job activity delay,
          job.action.isTimely = true → runner.worker = .busy job activity →
          ∀ next, Runner.LeadsUnfollowed job.action delay runner.stop next →
            next.IsWaiting →
            ((∃ following, next.worker = .busy job following) ∨ next.worker = .ended)
              ∧ ∀ latest, activity.latest delay job.action runner.clock runner.reporter =
                  some latest → latest ≤ next.clock → next.worker = .ended)
      ∧ ∀ (runner : Runner) (action : CustomAction) (delay : Nat) (prompt : Link),
          runner.intake.pending = none → prompt.Settles action delay →
          ∀ target, runner.clock ≤ target →
            ∃ next, Runner.LeadsUnfollowed action delay runner.stop next ∧ next.IsWaiting
              ∧ next.clock = target := by
  intro stopped run
  refine ⟨performAll_stop link, ?_, ?_, ?_, ?_⟩
  · intro quiet
    have chronicle : Chronicle stopped.2 stopped.1 :=
      observe_preserves (fun _ _ _ _ _ step chronicle => chronicle.step step) (.initial clock)
        before
    have covers : Chronicle.Covers stopped.2 stopped.1 :=
      observe_preserves (fun _ _ _ _ _ step covers => covers.step step) (.initial clock) before
    have starts : StartsNothing stopped.1 (Chronicle.begun stopped.2 stopped.1) run.2 run.1 :=
      (StartsNothing.stop link (fun _ _ => chronicle.pursues)).observe quiet
    refine ⟨starts.begun, starts.same, starts.noted, ?_⟩
    intro ended job activity busy
    have after : Chronicle run.2 run.1 :=
      observe_preserves (fun _ _ _ _ _ step chronicle => chronicle.step step) chronicle _
    -- What was begun is the same, and a worker that has ended is about to open nothing.
    have member := covers job activity busy
    rw [← starts.begun, Chronicle.begun, ended] at member
    rcases List.mem_map.mp member with ⟨chapter, written, same⟩
    have closed := (after.closed (ended ▸ rfl)).2.2.2
    exact ⟨chapter, written, same, closed chapter written⟩
  · intro runner _ waits parked next leads
    exact Runner.ended_of_parked waits parked leads
  · intro runner reached waits job activity delay timely busy next unfollowed waiting
    have asked : runner.stop.Reached := reached.leads (.single ⟨_, .operate waits .stop⟩)
    refine ⟨(unfollowed.finishing asked timely busy).busy_or_ended waiting, ?_⟩
    intro latest estimate
    exact unfollowed.ended asked timely busy estimate waiting
  · intro runner action delay prompt nothing settles target ahead
    rcases runner.stop.flowsUnder_to prompt ahead with ⟨next, flows, waiting, clock⟩
    exact ⟨next, flows.leadsUnfollowed settles nothing, waiting, clock⟩

/-! ## A script, and another one behind it -/

/-- An action that calls a script. -/
def scripted (id : UInt32) : CustomAction :=
  ⟨id, [], some "survey", none⟩

/-- An action is accepted, taken and opened, and its script is called. -/
def beginning : List (Link × Beat) :=
  [.offer (scripted 7), .work, .work, .work].map (Link.accepting, ·)

/-- The script is judged and settles, and the record is consumed, cleared and struck off. -/
def ending : List (Link × Beat) :=
  [.work, .pass 500, .work, .read, .work, .work, .work].map (Link.accepting, ·)

/-- The worker sleeps and ends, or it takes an action that is pending and opens it. -/
def onward : List (Link × Beat) :=
  [.work, .work].map (Link.accepting, ·)

/-- Another action is accepted meanwhile. -/
def submission : List (Link × Beat) :=
  [.offer (scripted 8)].map (Link.accepting, ·)

/--
A script that is under way when the worker is asked to stop is finished, and so is a stage of one
second with one and a half behind it.  A new worker that sleeps ends.
-/
theorem script_and_stage_are_finished :
    (let stopped := (initial 0).observe Chronicle.enter [] beginning
    let run := stopped.1.observe Chronicle.enter stopped.2
      ((.accepting, .stop) :: (ending ++ onward))
    (stopped.1.perform .accepting .stop).performAll ending =
        (stopped.1.performAll ending).perform .accepting .stop
      ∧ Chronicle.begun run.2 run.1 = [⟨0, scripted 7⟩]
      ∧ run.1.runner.worker = .ended
      ∧ ∃ chapter ∈ run.2, chapter.job = ⟨0, scripted 7⟩ ∧ chapter.ClosedBy 500)
    ∧ (∃ next, Runner.LeadsUnfollowed (Runner.singleStage 1.5) 1000 (Runner.amidStage 1.5).stop next
      ∧ next.clock = 3100
      ∧ next.worker = .ended)
    ∧ ∃ next, Runner.Leads ((Runner.initial 0).sections .accepting 1).stop next
      ∧ next.worker = .ended := by
  rcases shutdown_starts_nothing_new 0 beginning .accepting (ending ++ onward) with
    ⟨_, started, sleeps, ended, leads⟩
  refine ⟨?_, ?_, ?_⟩
  · intro stopped run
    have scene : stopped.1 = (initial 0).performAll beginning := observe_fst _ _ _ _
    have awake : ((initial 0).performAll beginning).Throughout Runner.IsAwake ending := by
      refine ⟨?_, ?_, ?_, ?_, ?_, ?_, ?_, trivial⟩ <;> exact Worker.noConfusion
    have quiet : (((initial 0).performAll beginning).perform .accepting .stop).Throughout
        Runner.FindsNothing (ending ++ onward) := by
      refine ⟨?_, ?_, ?_, ?_, ?_, ?_, ?_, ?_, ?_, trivial⟩ <;> exact fun _ => rfl
    have unnoticed := (shutdown_starts_nothing_new 0 beginning .accepting ending).1 (scene ▸ awake)
    rcases started (scene ▸ quiet) with ⟨begun, _, _, closed⟩
    have after : run.1 = ((initial 0).performAll beginning).performAll
        ((.accepting, .stop) :: (ending ++ onward)) := by
      rw [← scene]
      exact observe_fst _ _ _ _
    have left : run.1.runner.worker = .ended := after ▸ rfl
    have clock : run.1.runner.clock = 500 := after ▸ rfl
    exact ⟨unnoticed, begun, left, clock ▸ closed left ⟨0, scripted 7⟩ _ rfl⟩
  · rcases leads (Runner.amidStage 1.5) (Runner.singleStage 1.5) 1000 Runner.slowLink rfl
      (slowLink_settles 1.5) 3100 (by decide) with ⟨next, unfollowed, waits, clock⟩
    refine ⟨next, unfollowed, clock, ?_⟩
    have position := ended (Runner.amidStage 1.5) (Runner.amidStage_reached 1.5)
      (Runner.amidStage_waits 1.5) ⟨0, Runner.singleStage 1.5⟩ _ 1000 (by decide) rfl next
      unfollowed waits
    exact position.2 3100 (by decide) (Nat.le_of_eq clock.symm)
  · have reached : ((Runner.initial 0).sections .accepting 1).Reached :=
      ⟨0, (Runner.sections_flows _ .accepting 1).leads⟩
    have parked : ((Runner.initial 0).sections .accepting 1).IsWaiting :=
      Runner.isWaiting_of_nextSection .accepting rfl
    rcases Runner.flows_to ((Runner.initial 0).sections .accepting 1).stop (Nat.le_refl _) with
      ⟨next, flows, waits, _⟩
    exact ⟨next, flows.leads, sleeps _ reached parked rfl next flows.leads waits⟩

/-- An action that is pending behind the script opens its record after the request. -/
theorem pending_action_opens_after_request :
    ¬ ∀ (clock : Nat) (before : List (Link × Beat)) (link : Link) (later : List (Link × Beat)),
      let stopped := (initial clock).performAll before
      let run := stopped.performAll ((link, .stop) :: later)
      ∀ execution, run.runner.record = some execution →
        stopped.runner.record.map Execution.action = some execution.action
          ∨ ∃ job activity, stopped.runner.worker = .busy job activity
              ∧ job.action = execution.action := by
  intro nothingNew
  rcases nothingNew 0 (beginning ++ submission) .accepting (ending ++ onward)
    (.start (scripted 8)) rfl with recorded | ⟨job, activity, busy, same⟩
  · exact absurd recorded (by decide)
  · cases busy
    exact absurd same (by decide)

end Scene

end FlightGuard
