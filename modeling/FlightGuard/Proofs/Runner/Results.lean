import FlightGuard.Proofs.Runner.Shutdown

/-!
# Results of stages and reports

A stage and a report are answered with a result.  Nothing that the runner does depends on it: the
worker takes the answer to a stage as the end of the call and no more, and the reporter goes on
whatever becomes of a report.

Muting takes the results away and leaves all the rest as it is, on a link as well as in a runner,
where results stand only in the journal and in the answer that is still to come.  A muted runner
does over a muted link what the runner does over the link, muted.  So two runs over links that
differ in such results alone are the same run when they are muted.
-/

namespace FlightGuard

/-! ## Muting -/

/-- Two links that answer differently at most in the results of stages and of reports. -/
structure Link.DiffersInResults (first second : Link) : Prop where
  signal : first.signal = second.signal
  script : first.script = second.script
  delay : ∀ stage, (first.stage stage).delay = (second.stage stage).delay

/-- The link with the same results for all stages and all reports. -/
def Link.muted (link : Link) : Link :=
  { link with
      report := fun _ => none
      stage := fun stage => ⟨(link.stage stage).delay, .ok .success⟩ }

theorem Link.DiffersInResults.muted_eq {first second : Link}
    (alike : first.DiffersInResults second) : first.muted = second.muted := by
  simp only [muted, alike.signal, alike.script, alike.delay]

/-- The activity without the result that is to come. -/
def Activity.muted : Activity → Activity
  | .calling done stage remaining due _ => .calling done stage remaining due (.ok .success)
  | activity => activity

/-- The worker without the result that is to come. -/
def Worker.muted : Worker → Worker
  | .busy job activity => .busy job activity.muted
  | worker => worker

/-- The entry without a result. -/
def JournalEntry.muted : JournalEntry → JournalEntry
  | .stageAnswered instant _ => .stageAnswered instant (.ok .success)
  | .reported instant report _ => .reported instant report none
  | entry => entry

namespace Runner

/-- The runner without the results. -/
def muted (runner : Runner) : Runner :=
  { runner with
      worker := runner.worker.muted
      journal := runner.journal.map JournalEntry.muted }

@[simp]
theorem muted_clock (runner : Runner) : runner.muted.clock = runner.clock :=
  rfl

@[simp]
theorem muted_intake (runner : Runner) : runner.muted.intake = runner.intake :=
  rfl

@[simp]
theorem muted_record (runner : Runner) : runner.muted.record = runner.record :=
  rfl

@[simp]
theorem muted_reporter (runner : Runner) : runner.muted.reporter = runner.reporter :=
  rfl

/-! ## Sections do not look at results -/

theorem openJob_muted (runner : Runner) (job : Job) :
    runner.muted.openJob job = (runner.openJob job).muted := by
  rw [openJob, openJob]
  cases staged : job.action.stages.isEmpty <;> simp [muted, Worker.muted, Activity.muted]

theorem callStage_muted (runner : Runner) (link : Link) (job : Job) (done : Nat) (stage : Stage)
    (remaining : List Stage) :
    runner.muted.callStage link.muted job done stage remaining =
      (runner.callStage link job done stage remaining).muted := by
  rw [callStage, callStage, apply_ite muted]
  rfl

theorem answerStage_muted (runner : Runner) (job : Job) (done : Nat) (stage : Stage)
    (remaining : List Stage) (answer : Except LinkError Outcome) :
    runner.muted.answerStage job done stage remaining (.ok .success) =
      (runner.answerStage job done stage remaining answer).muted := by
  rw [answerStage, answerStage]
  split <;> rfl

theorem completeStage_muted (runner : Runner) (job : Job) (done : Nat) (remaining : List Stage) :
    runner.muted.completeStage job done remaining =
      (runner.completeStage job done remaining).muted := by
  rw [completeStage, completeStage]
  split <;> rfl

theorem callScript_muted (runner : Runner) (link : Link) (job : Job) :
    runner.muted.callScript link.muted job = (runner.callScript link job).muted := by
  rw [callScript, callScript]
  split
  next => rfl
  next script given =>
    change (if runner.signal.raised = true then _ else _) =
      muted (if runner.signal.raised = true then _ else _)
    split
    next => rfl
    next => split <;> rfl

theorem judge_muted (runner : Runner) (verdict : Verdict) :
    runner.muted.judge verdict = (runner.judge verdict).muted := by
  rw [judge.eq_def, judge.eq_def]
  split <;> rfl

theorem jobSection_muted (runner : Runner) (link : Link) (job : Job) (activity : Activity) :
    runner.muted.jobSection link.muted job activity.muted =
      (runner.jobSection link job activity).map muted := by
  cases activity with
  | sweeping | retiring => rfl
  | opening => exact congrArg some (runner.openJob_muted job)
  | staging done remaining =>
      cases remaining with
      | nil => rfl
      | cons stage remaining =>
          exact congrArg some (runner.callStage_muted link job done stage remaining)
  | scripting => exact congrArg some (runner.callScript_muted link job)
  | calling done stage remaining due answer =>
      rw [Activity.muted, jobSection, jobSection, answerStage_muted, Option.map_if]
      rfl
  | settling deadline =>
      change runner.muted.jobSection link.muted job (.settling deadline) = _
      rw [jobSection, jobSection, Option.map_if]
      rfl
  | lingering =>
      change runner.muted.jobSection link.muted job .lingering = _
      rw [jobSection, jobSection, Option.map_if]
      rfl
  | awaiting due verdict =>
      change runner.muted.jobSection link.muted job (.awaiting due verdict) = _
      rw [jobSection, jobSection, judge_muted, apply_ite (Option.map muted), Option.map_if]
      rfl
  | resting done remaining deadline =>
      change runner.muted.jobSection link.muted job (.resting done remaining deadline) = _
      have same : CancelSignal.poll runner.muted.signal.raised runner.muted.clock deadline =
          CancelSignal.poll runner.signal.raised runner.clock deadline := rfl
      rw [jobSection, jobSection, completeStage_muted, same]
      cases CancelSignal.poll runner.signal.raised runner.clock deadline with
      | none => rfl
      | some cut => cases cut <;> rfl

theorem workerSection_muted (runner : Runner) (link : Link) :
    runner.muted.workerSection link.muted = (runner.workerSection link).map muted := by
  have same : runner.muted.worker = runner.worker.muted := rfl
  rw [workerSection.eq_def, workerSection.eq_def, same]
  cases standing : runner.worker with
  | looking =>
      dsimp only [Worker.muted]
      rw [muted_intake]
      cases runner.intake.pending <;> rfl
  | parked =>
      change (if runner.wakeUp = true then some _ else if runner.stopping = true then some _ else
        none) = Option.map muted (if runner.wakeUp = true then some _ else _)
      split
      next => rfl
      next => split <;> rfl
  | busy job activity => exact runner.jobSection_muted link job activity
  | ended | failed => rfl

theorem reporterSection_muted (runner : Runner) (link : Link) :
    runner.muted.reporterSection link.muted = (runner.reporterSection link).map muted := by
  have same : runner.muted.reporter = runner.reporter := rfl
  rw [reporterSection.eq_def, reporterSection.eq_def, same]
  cases runner.reporter with
  | none => rfl
  | some due =>
      change (if runner.signal.raised = true then _ else if due ≤ runner.clock then _ else _) =
        Option.map muted (if runner.signal.raised = true then _ else _)
      split
      next => rfl
      next =>
        split
        next =>
          rw [muted_record]
          cases openReport runner.record <;> rfl
        next => rfl

theorem nextSection_muted (runner : Runner) (link : Link) :
    runner.muted.nextSection link.muted = (runner.nextSection link).map muted := by
  rw [nextSection, nextSection, workerSection_muted, reporterSection_muted, Option.map_or]

theorem offer_muted (runner : Runner) (action : CustomAction) :
    runner.muted.offer action =
      (runner.offer action).map fun (order, offered) => (order, offered.muted) := by
  change (runner.intake.offer action (runner.clock * 1000)).map _ =
    ((runner.intake.offer action (runner.clock * 1000)).map _).map _
  cases runner.intake.offer action (runner.clock * 1000) <;> rfl

theorem cancel_muted (runner : Runner) (raised : Bool) :
    runner.muted.cancel raised = (runner.cancel raised).muted := by
  change (if (raised && !runner.isCancellable) = true then _ else _) =
    muted (if (raised && !runner.isCancellable) = true then _ else _)
  split <;> rfl

theorem leave_muted (runner : Runner) : runner.muted.leave = runner.leave.muted := by
  have same : runner.muted.worker = runner.worker.muted := rfl
  rw [leave.eq_def, leave.eq_def, same]
  cases runner.worker with
  | parked =>
      change (if runner.stopping = true then _ else _) =
        muted (if runner.stopping = true then _ else _)
      split <;> rfl
  | looking | busy _ _ | ended | failed => rfl

theorem judgeLate_muted (runner : Runner) : runner.muted.judgeLate = runner.judgeLate.muted := by
  have same : runner.muted.worker = runner.worker.muted := rfl
  rw [judgeLate.eq_def, judgeLate.eq_def, same]
  cases runner.worker with
  | busy job activity =>
      cases activity with
      | awaiting due verdict =>
          change (if isDue runner.clock due = true then _ else _) =
            muted (if isDue runner.clock due = true then _ else _)
          rw [judge_muted]
          split <;> rfl
      | _ => rfl
  | looking | parked | ended | failed => rfl

end Runner

/-! ## Beats -/

namespace Scene

/-- The scene without the results. -/
def muted (scene : Scene) : Scene :=
  { scene with runner := scene.runner.muted }

theorem offer_muted (scene : Scene) (action : CustomAction) :
    scene.muted.offer action = (scene.offer action).muted := by
  have asked : scene.muted.runner.offer action = _ := scene.runner.offer_muted action
  rw [offer, offer, asked]
  cases scene.runner.offer action <;> rfl

theorem perform_muted (scene : Scene) (link : Link) (beat : Beat) :
    scene.muted.perform link.muted beat = (scene.perform link beat).muted := by
  cases beat with
  | offer action => exact scene.offer_muted action
  | request file path id =>
      rw [perform_request, perform_request]
      cases (Beat.request file path id).offered? with
      | none => rfl
      | some action => exact scene.offer_muted action
  | announce order =>
      change (if order ∈ scene.unannounced then _ else _) =
        muted (if order ∈ scene.unannounced then _ else _)
      split <;> rfl
  | cancel raised =>
      change Scene.mk (scene.runner.muted.cancel raised) _ _ = _
      rw [Runner.cancel_muted]
      rfl
  | work =>
      change Scene.mk ((scene.runner.muted.workerSection link.muted).getD _) _ _ = _
      rw [Runner.workerSection_muted, perform]
      cases scene.runner.workerSection link <;> rfl
  | leave =>
      change Scene.mk scene.runner.muted.leave _ _ = _
      rw [Runner.leave_muted]
      rfl
  | judgeLate =>
      change Scene.mk scene.runner.muted.judgeLate _ _ = _
      rw [Runner.judgeLate_muted]
      rfl
  | read =>
      change scene.muted.read = scene.read.muted
      dsimp only [read, muted, Runner.muted]
      split
      next =>
        split
        next => split <;> rfl
        next => rfl
      next => rfl
  | send =>
      change scene.muted.send link.muted = (scene.send link).muted
      dsimp only [send, muted, Runner.muted]
      split <;> rfl
  | cease =>
      change scene.muted.cease = scene.cease.muted
      dsimp only [cease, muted, Runner.muted]
      split
      next => split <;> rfl
      next => rfl
  | stop | pass => rfl

end Scene

/-! ## Runs under the clock -/

namespace Runner

theorem settle_muted (runner : Runner) (link : Link) :
    runner.muted.settle link.muted = (runner.settle link).muted := by
  induction runner using settle.induct link with
  | case1 runner next performed induction =>
      rw [settle, settle, nextSection_muted, performed]
      exact induction
  | case2 runner idle =>
      rw [settle, settle, nextSection_muted, idle]
      rfl

theorem due?_muted (runner : Runner) : runner.muted.due? = runner.due? := by
  have same : runner.muted.workerDue? = runner.workerDue? := by
    have standing : runner.muted.worker = runner.worker.muted := rfl
    rw [workerDue?.eq_def, workerDue?.eq_def, standing]
    cases runner.worker with
    | busy job activity => cases activity <;> rfl
    | looking | parked | ended | failed => rfl
  rw [due?, due?, same]
  rfl

theorem advance_muted (link : Link) (target now : Nat) (runner : Runner) :
    advance link.muted target now runner.muted = (advance link target now runner).muted := by
  induction now, runner using advance.induct link target with
  | case1 now runner instant waited between induction =>
      rw [advance, advance, due?_muted, waited]
      simp only [between, and_self, if_true]
      rw [← induction]
      exact congrArg _ (settle_muted { runner with clock := instant } link)
  | case2 now runner instant waited passed =>
      rw [advance, advance, due?_muted, waited]
      simp only [passed, if_false]
      rfl
  | case3 now runner nothing =>
      rw [advance, advance, due?_muted, nothing]
      rfl

theorem runTo_muted (runner : Runner) (link : Link) (target : Nat) :
    runner.muted.runTo link.muted target = (runner.runTo link target).muted := by
  change (if runner.clock ≤ target then _ else _) = muted (if runner.clock ≤ target then _ else _)
  split
  next => exact advance_muted link target runner.clock runner
  next => rfl

theorem submit_muted (runner : Runner) (action : CustomAction) :
    runner.muted.submit action =
      (runner.submit action).map fun (order, next) => (order, next.muted) := by
  rw [submit, submit, offer_muted]
  cases runner.offer action <;> rfl

theorem request_muted (runner : Runner) (file : StoredFile) (path : String) (id : UInt32) :
    runner.muted.request file path id =
      (runner.request file path id).map fun (order, next) => (order, next.muted) := by
  rw [request, request]
  cases Catalog.lookUp file path id with
  | ok action => exact runner.submit_muted action
  | error rejection => rfl

theorem operate_muted (runner : Runner) (operation : Operation) :
    runner.muted.operate operation = (runner.operate operation).muted := by
  cases operation with
  | submit action =>
      rw [operate, operate, submit_muted]
      cases runner.submit action <;> rfl
  | request file path id =>
      rw [operate, operate, request_muted]
      cases runner.request file path id <;> rfl
  | cancel raised => exact runner.cancel_muted raised
  | stop => rfl

/-- What happens to a runner that follows its clock. -/
inductive Occasion where
  /-- A client comes in, and all is done that is possible then. -/
  | operate (operation : Operation)
  /-- Time passes up to an instant. -/
  | reach (instant : Nat)

/-- The runner behind an occasion. -/
def attend (runner : Runner) (link : Link) : Occasion → Runner
  | .operate operation => (runner.operate operation).settle link
  | .reach instant => runner.runTo link instant

/-- The runner behind occasions, each under the link as it answers at that time. -/
def attendAll (runner : Runner) : List (Link × Occasion) → Runner
  | [] => runner
  | (link, occasion) :: occasions => (runner.attend link occasion).attendAll occasions

theorem attend_muted (runner : Runner) (link : Link) (occasion : Occasion) :
    runner.muted.attend link.muted occasion = (runner.attend link occasion).muted := by
  cases occasion with
  | operate operation =>
      rw [attend, attend, operate_muted, settle_muted]
  | reach instant => exact runner.runTo_muted link instant

end Runner

/-! ## Two runs -/

/-- The same is done in both runs, over links that differ at most in results. -/
def SameUpToResults {Deed : Type} (first second : List (Link × Deed)) : Prop :=
  List.Forall₂ (fun one other => one.2 = other.2 ∧ one.1.DiffersInResults other.1) first second

theorem Scene.performAll_muted_eq {first second : List (Link × Scene.Beat)}
    (alike : SameUpToResults first second) {one other : Scene} (same : one.muted = other.muted) :
    (one.performAll first).muted = (other.performAll second).muted := by
  induction alike generalizing one other with
  | nil => exact same
  | @cons head next _ _ alike _ induction =>
      apply induction
      rw [← perform_muted, ← perform_muted, same, alike.1, alike.2.muted_eq]

theorem Runner.attendAll_muted_eq {first second : List (Link × Runner.Occasion)}
    (alike : SameUpToResults first second) {one other : Runner} (same : one.muted = other.muted) :
    (one.attendAll first).muted = (other.attendAll second).muted := by
  induction alike generalizing one other with
  | nil => exact same
  | @cons head next _ _ alike _ induction =>
      apply induction
      rw [← attend_muted, ← attend_muted, same, alike.1, alike.2.muted_eq]

/-- The stage that is called by an entry, with the instant of the call. -/
def JournalEntry.stage? : JournalEntry → Option (Nat × Stage)
  | .stageCalled instant stage => some (instant, stage)
  | _ => none

/-- The report that is sent by an entry, with its instant. -/
def JournalEntry.report? : JournalEntry → Option (Nat × ProgressReport)
  | .reported instant report _ => some (instant, report)
  | _ => none

/-- Two runners that went the same way, apart from the results of stages and reports. -/
structure Runner.WentLike (one other : Runner) : Prop where
  clock : one.clock = other.clock
  stages : one.journal.filterMap JournalEntry.stage? = other.journal.filterMap JournalEntry.stage?
  reports :
    one.journal.filterMap JournalEntry.report? = other.journal.filterMap JournalEntry.report?
  record : one.record = other.record
  intake : one.intake = other.intake
  reporter : one.reporter = other.reporter
  submitted : ∀ action,
    (one.submit action).map Prod.fst = (other.submit action).map Prod.fst
  requested : ∀ file path id,
    (one.request file path id).map Prod.fst = (other.request file path id).map Prod.fst

namespace Runner

theorem journal_muted {Part : Type} (part : JournalEntry → Option Part)
    (blind : ∀ entry, part entry.muted = part entry) (runner : Runner) :
    runner.muted.journal.filterMap part = runner.journal.filterMap part := by
  change (runner.journal.map JournalEntry.muted).filterMap part = _
  rw [List.filterMap_map]
  exact List.filterMap_congr fun entry _ => blind entry

theorem wentLike_of_muted_eq {one other : Runner} (same : one.muted = other.muted) :
    one.WentLike other where
  clock := by rw [← muted_clock, same, muted_clock]
  stages := by
    have blind : ∀ entry : JournalEntry, entry.muted.stage? = entry.stage? := by
      intro entry
      cases entry <;> rfl
    rw [← journal_muted _ blind, same, journal_muted _ blind]
  reports := by
    have blind : ∀ entry : JournalEntry, entry.muted.report? = entry.report? := by
      intro entry
      cases entry <;> rfl
    rw [← journal_muted _ blind, same, journal_muted _ blind]
  record := by rw [← muted_record, same, muted_record]
  intake := by rw [← muted_intake, same, muted_intake]
  reporter := by rw [← muted_reporter, same, muted_reporter]
  submitted action := by
    have unmuted (runner : Runner) :
        (runner.submit action).map Prod.fst = (runner.muted.submit action).map Prod.fst := by
      rw [submit_muted]
      cases runner.submit action <;> rfl
    rw [unmuted, same, ← unmuted]
  requested file path id := by
    have unmuted (runner : Runner) :
        (runner.request file path id).map Prod.fst =
          (runner.muted.request file path id).map Prod.fst := by
      rw [request_muted]
      cases runner.request file path id <;> rfl
    rw [unmuted, same, ← unmuted]

/--
Two runs in which the same is done go the same way all along, whatever the calls of stages and the
reports result in: they call the same stages and send the same reports at the same instants, hold
the same records and the same history, and would answer each submission alike.  This holds under any
order of beats, and where the runner follows its clock.
-/
theorem results_never_steer (clock : Nat) :
    (∀ first second : List (Link × Scene.Beat), SameUpToResults first second → ∀ moment,
        let one := (Scene.initial clock).performAll (first.take moment)
        let other := (Scene.initial clock).performAll (second.take moment)
        one.runner.WentLike other.runner ∧ one.draft = other.draft)
      ∧ ∀ first second : List (Link × Occasion), SameUpToResults first second → ∀ moment,
          ((initial clock).attendAll (first.take moment)).WentLike
            ((initial clock).attendAll (second.take moment)) := by
  constructor
  · intro first second alike moment one other
    have same : one.muted = other.muted :=
      Scene.performAll_muted_eq (List.forall₂_take moment alike) rfl
    have drafts : one.muted.draft = other.muted.draft := congrArg Scene.draft same
    exact ⟨wentLike_of_muted_eq (congrArg Scene.runner same), drafts⟩
  · intro first second alike moment
    exact wentLike_of_muted_eq (attendAll_muted_eq (List.forall₂_take moment alike) rfl)

/-- A link that fails every stage and refuses every report. -/
def refusingLink : Link :=
  { Link.accepting with
      report := fun _ => some .rejected
      stage := fun _ => ⟨some 0, .ok .failed⟩ }

/-- Two stages, another action that is accepted meanwhile, and a cancellation. -/
def overtakenStages (link : Link) : List (Link × Scene.Beat) :=
  let action : CustomAction := .ofStages 7 [⟨.ofCode 16, 1⟩, ⟨.ofCode 22, 0⟩]
  [.offer action, .announce 0, .work, .work, .read, .send, .work, .work, .offer (.ofStages 8 []),
   .pass 100, .read, .send, .cancel true].map (link, ·)

theorem stages_of_overtakenStages :
    let accepted := (Scene.initial 0).performAll (overtakenStages .accepting)
    let refused := (Scene.initial 0).performAll (overtakenStages refusingLink)
    SameUpToResults (overtakenStages .accepting) (overtakenStages refusingLink)
      ∧ accepted.runner.journal =
          [.reported 100 ⟨7, 0, .inProgress⟩ none, .stageAnswered 0 (.ok .success),
           .stageCalled 0 ⟨.ofCode 16, 1⟩, .reported 0 ⟨7, 0, .inProgress⟩ none]
      ∧ refused.runner.journal =
          [.reported 100 ⟨7, 0, .inProgress⟩ (some .rejected), .stageAnswered 0 (.ok .failed),
           .stageCalled 0 ⟨.ofCode 16, 1⟩, .reported 0 ⟨7, 0, .inProgress⟩ (some .rejected)]
      ∧ accepted.runner.WentLike refused.runner := by
  intro accepted refused
  have alike : SameUpToResults (overtakenStages .accepting) (overtakenStages refusingLink) := by
    refine List.forall₂_map_left_iff.mpr (List.forall₂_map_right_iff.mpr ?_)
    exact List.forall₂_same.mpr fun _ _ => ⟨rfl, rfl, rfl, fun _ => rfl⟩
  exact ⟨alike, rfl, rfl, ((results_never_steer 0).1 _ _ alike 13).1⟩

end Runner

end FlightGuard
