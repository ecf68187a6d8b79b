import FlightGuard.Proofs.Runner.Acceptance
import FlightGuard.Proofs.Runner.CancelledAction
import FlightGuard.Proofs.Runner.Completion
import FlightGuard.Proofs.Runner.Succession

/-!
# What brings the worker down

The worker is brought down by a wait or a time limit that is finite and too large for a duration,
and by nothing else.  An action that is timely never does it: its end is reached, its reporter ends
on the way, and the worker does not sleep before the next one.  Every action that is not timely has
a run in which it does.
-/

namespace FlightGuard

namespace CustomAction

/-- An action that is not timely has such a time among those that it is going to need. -/
theorem exists_overlong {action : CustomAction} (untimely : action.isTimely = false) :
    (∃ stage ∈ action.stages, stage.wait.isOk = false)
      ∨ (action.stages = [] ∧ ∃ script, action.script = some script
          ∧ action.limit.isOk = false) := by
  rw [isTimely] at untimely
  cases stages : action.stages with
  | cons stage remaining =>
      left
      simp only [stages, List.isEmpty_cons, Bool.false_eq_true, if_false,
        List.all_eq_false] at untimely
      rcases untimely with ⟨overlong, member, exceeded⟩
      refine ⟨overlong, member, ?_⟩
      rw [overlong.wait_isOk]
      exact Bool.not_eq_true _ ▸ exceeded
  | nil =>
      right
      simp only [stages, List.isEmpty_nil, if_true, Bool.or_eq_false_iff] at untimely
      refine ⟨rfl, ?_⟩
      rw [action.limit_isOk]
      cases given : action.script with
      | none =>
          rw [given] at untimely
          cases untimely.1
      | some script => exact ⟨script, rfl, untimely.2⟩

end CustomAction

/-! ## The action that brought the worker down -/

/-- The worker is down already, or it is brought down by an action that is not timely. -/
theorem Scene.Step.failed_cases {link : Link} {scene next : Scene} {beat : Scene.Beat}
    (step : Scene.Step link scene beat next) (pursuing : scene.runner.Pursuing)
    (failed : next.runner.worker = .failed) :
    scene.runner.worker = .failed
      ∨ ∃ job activity, scene.runner.worker = .busy job activity
          ∧ job.action.isTimely = false := by
  rcases step.worker_cases with same | performed | ⟨_, ended⟩ | ⟨_, _, _, _, _, settling⟩
  · exact Or.inl (same ▸ failed)
  · generalize next.runner = after at performed failed
    cases performed with
    | takes _ _ | parks _ _ | wakes _ _ | ends _ _ _ => cases failed
    | @acts job activity _ busy performed =>
        refine Or.inr ⟨job, activity, busy, ?_⟩
        by_contra timely
        exact performed.not_failed (Bool.not_eq_false _ ▸ timely) (pursuing job activity busy)
          failed
  · rw [ended] at failed
    cases failed
  · rw [settling] at failed
    cases failed

/-- The worker is at the action that it took last, or was brought down by it. -/
structure Ledger.Explains (ledger : Ledger) (scene : Scene) : Prop where
  running : ∀ job activity, scene.runner.worker = .busy job activity →
    ledger.taken.getLast? = some job
  pursuing : scene.runner.Pursuing
  failed : scene.runner.worker = .failed →
    ∃ job, ledger.taken.getLast? = some job ∧ job.action.isTimely = false

namespace Ledger.Explains

variable {ledger : Ledger} {scene next : Scene}

theorem initial (clock : Nat) : empty.Explains (.initial clock) where
  running := by
    intro job activity busy
    cases busy
  pursuing := .initial clock
  failed := by
    intro failed
    cases failed

theorem step {link : Link} {beat : Scene.Beat} (explains : ledger.Explains scene)
    (step : Scene.Step link scene beat next) :
    (ledger.enter scene beat next).Explains next where
  running := by
    intro job activity busy
    rw [step.taken_enter]
    rcases step.busy_cases busy with ⟨before, working⟩ | turned
    · rw [Runner.turnsTo?_of_busy working, Option.toList_none, List.append_nil]
      exact explains.running job before working
    · rw [turned]
      exact List.getLast?_concat
  pursuing := step.pursuing explains.pursuing
  failed := by
    intro failed
    have unmoved : scene.runner.turnsTo? next.runner = none := by
      rw [Runner.turnsTo?, failed]
      cases scene.runner.worker <;> rfl
    rw [step.taken_enter, unmoved, Option.toList_none, List.append_nil]
    rcases step.failed_cases explains.pursuing failed with
      before | ⟨job, activity, busy, untimely⟩
    · exact explains.failed before
    · exact ⟨job, explains.running job activity busy, untimely⟩

end Ledger.Explains

/-! ## A run of an action that is not timely -/

namespace Runner

variable {runner : Runner} {job : Job} {done : Nat} {stage : Stage} {remaining : List Stage}

theorem workerSection_staging (link : Link)
    (busy : runner.worker = .busy job (.staging done (stage :: remaining)))
    (lowered : runner.signal.raised = false) :
    runner.workerSection link =
      some ((runner.note (.stageCalled runner.clock stage)).moveTo job
        (.calling done stage remaining (dueAfter runner.clock (link.stage stage).delay)
          (link.stage stage).outcome)) := by
  simp only [workerSection, busy, jobSection, callStage, lowered, Bool.false_eq_true, if_false]

theorem workerSection_calling (link : Link) {due : Option Nat} {answer : Except LinkError Outcome}
    (busy : runner.worker = .busy job (.calling done stage remaining due answer))
    (answered : isDue runner.clock due = true) :
    runner.workerSection link = some (runner.answerStage job done stage remaining answer) := by
  simp only [workerSection, busy, jobSection, answered, if_true]

theorem workerSection_resting (link : Link) {deadline : Nat}
    (busy : runner.worker = .busy job (.resting done remaining deadline))
    (lowered : runner.signal.raised = false) (elapsed : deadline ≤ runner.clock) :
    runner.workerSection link = some (runner.completeStage job done remaining) := by
  simp only [workerSection, busy, jobSection, CancelSignal.poll, lowered, elapsed,
    Bool.false_eq_true, if_false, if_true]

end Runner

namespace Scene

/-- The worker falls in a run in which nothing more is offered. -/
def MayFall (scene : Scene) : Prop :=
  ∃ beats, (∀ entry ∈ beats, entry.2.offered? = none)
    ∧ (scene.performAll beats).runner.worker = .failed

namespace MayFall

variable {scene : Scene}

theorem of_failed (failed : scene.runner.worker = .failed) : scene.MayFall :=
  ⟨[], nofun, failed⟩

theorem head (link : Link) {beat : Beat} (silent : beat.offered? = none)
    (rest : (scene.perform link beat).MayFall) : scene.MayFall := by
  rcases rest with ⟨beats, quiet, failed⟩
  exact ⟨(link, beat) :: beats, List.forall_mem_cons.mpr ⟨silent, quiet⟩, failed⟩

theorem work (link : Link) {runner : Runner}
    (performed : scene.runner.workerSection link = some runner)
    (rest : MayFall { scene with runner }) : scene.MayFall := by
  have performs : scene.perform link .work = { scene with runner } := by
    rw [perform, performed]
    rfl
  have silent : Beat.work.offered? = none := rfl
  exact .head link silent (performs ▸ rest)

theorem pass (milliseconds : Nat)
    (rest : MayFall
      { scene with
          runner := { scene.runner with clock := scene.runner.clock + milliseconds } }) :
    scene.MayFall := by
  have silent : (Beat.pass milliseconds).offered? = none := rfl
  exact .head .accepting silent rest

/-- The worker waits behind a stage. -/
theorem of_resting {job : Job} {remaining : List Stage} {done deadline : Nat}
    (busy : scene.runner.worker = .busy job (.resting done remaining deadline))
    (lowered : scene.runner.signal.raised = false)
    (rest : ∀ clock, MayFall
      { scene with
          runner := Runner.completeStage { scene.runner with clock } job done remaining }) :
    scene.MayFall := by
  refine .pass (deadline - scene.runner.clock) ?_
  have elapsed : deadline ≤ scene.runner.clock + (deadline - scene.runner.clock) :=
    Nat.sub_le_iff_le_add'.mp (Nat.le_refl _)
  exact .work .accepting (Runner.workerSection_resting _ busy lowered elapsed) (rest _)

/-- The worker comes to a stage with too long a wait behind it. -/
theorem of_staging {job : Job} {remaining : List Stage} {done : Nat}
    (busy : scene.runner.worker = .busy job (.staging done remaining))
    (lowered : scene.runner.signal.raised = false)
    (overlong : ∃ stage ∈ remaining, stage.wait.isOk = false) : scene.MayFall := by
  induction remaining generalizing done scene with
  | nil =>
      rcases overlong with ⟨stage, member, _⟩
      cases member
  | cons stage remaining induction =>
      have due : Runner.isDue scene.runner.clock (some (scene.runner.clock + 0)) = true := by
        simp [Runner.isDue]
      refine .work _ (Runner.workerSection_staging .accepting busy lowered) ?_
      refine .work .accepting (Runner.workerSection_calling _ rfl due) ?_
      rw [Runner.answerStage]
      cases fits : stage.wait with
      | error error => exact .of_failed rfl
      | ok wait =>
          have later : ∃ stage ∈ remaining, stage.wait.isOk = false := by
            rcases overlong with ⟨other, member, exceeded⟩
            rcases List.mem_cons.mp member with rfl | behind
            · rw [fits] at exceeded
              cases exceeded
            · exact ⟨other, behind, exceeded⟩
          have more : remaining.isEmpty = false := by
            rcases later with ⟨other, behind, _⟩
            exact List.isEmpty_eq_false_iff_exists_mem.mpr ⟨other, behind⟩
          refine .of_resting rfl lowered ?_
          intro clock
          rw [Runner.completeStage, more]
          exact induction rfl lowered later

/-- The worker comes to a script with too long a time limit. -/
theorem of_scripting {job : Job} (busy : scene.runner.worker = .busy job .scripting)
    (lowered : scene.runner.signal.raised = false) {script : String}
    (given : job.action.script = some script) (overlong : job.action.limit.isOk = false) :
    scene.MayFall := by
  cases fits : job.action.limit with
  | ok limit =>
      rw [fits] at overlong
      cases overlong
  | error error =>
      have falls : scene.runner.workerSection .accepting = some scene.runner.fail := by
        simp only [Runner.workerSection, busy, Runner.jobSection, Runner.callScript, given,
          lowered, fits, Bool.false_eq_true, if_false]
      exact .work _ falls (.of_failed rfl)

/-- The worker opens an action that is not timely. -/
theorem of_opening {job : Job} (busy : scene.runner.worker = .busy job .opening)
    (lowered : scene.runner.signal.raised = false) (untimely : job.action.isTimely = false) :
    scene.MayFall := by
  have opens : scene.runner.workerSection .accepting = some (scene.runner.openJob job) := by
    rw [Runner.workerSection, busy]
    rfl
  refine .work _ opens ?_
  rcases job.action.exists_overlong untimely with overlong | ⟨unstaged, script, given, overlong⟩
  · have staged : job.action.stages.isEmpty = false := by
      rcases overlong with ⟨stage, member, _⟩
      exact List.isEmpty_eq_false_iff_exists_mem.mpr ⟨stage, member⟩
    exact of_staging (scene.runner.openJob_worker_of_stages staged) lowered overlong
  · have unstaged : job.action.stages.isEmpty = true := List.isEmpty_iff.mpr unstaged
    exact of_scripting (scene.runner.openJob_worker_of_script unstaged) lowered given overlong

/-- An action that is not timely is taken. -/
theorem of_looking {job : Job} (looks : scene.runner.worker = .looking)
    (offered : scene.runner.intake.pending = some job)
    (lowered : scene.runner.signal.raised = false) (untimely : job.action.isTimely = false) :
    scene.MayFall := by
  have takes : scene.runner.workerSection .accepting =
      some ({ scene.runner with intake := scene.runner.intake.take }.moveTo job .opening) := by
    simp only [Runner.workerSection, looks, offered]
  exact .work _ takes (.of_opening rfl lowered untimely)

/-- An action that is not timely is offered to a new runner. -/
theorem of_offer (clock : Nat) {action : CustomAction} (untimely : action.isTimely = false) :
    ((initial clock).perform .accepting (.offer action)).MayFall := by
  have accepted : (initial clock).runner.offer action =
      .ok (0, { Runner.initial clock with
        intake := Intake.empty.accept action (clock * 1000) }) := rfl
  have offered : (initial clock).perform .accepting (.offer action) =
      ⟨{ Runner.initial clock with intake := Intake.empty.accept action (clock * 1000) },
        [0], none⟩ := by
    change (initial clock).offer action = _
    rw [offer, accepted]
    rfl
  rw [offered]
  exact of_looking rfl rfl rfl untimely

end MayFall

/-- While its reporter is alive an action has the worker, unless the worker is down. -/
theorem busy_of_reporter {chapters : List Chapter} {scene : Scene}
    (chronicle : Chronicle chapters scene) (alive : scene.runner.reporter ≠ none)
    (up : scene.runner.worker ≠ .failed) :
    ∃ job activity, scene.runner.worker = .busy job activity := by
  cases chronicle.latest with
  | closed _ _ silent _ _ => exact absurd silent alive
  | written tells =>
      have follows := tells.follows
      cases standing : scene.runner.worker with
      | busy job activity => exact ⟨job, activity, rfl⟩
      | failed => exact absurd standing up
      | looking | parked | ended =>
          rw [standing] at follows
          exact follows.elim

/--
In every run the worker is brought down only by the action that it took last, and only if that
action is not timely; unless it is down it is at the action whose reporter is alive.  In step with
the clock a timely action whose calls are answered in time is past at an instant that is known
beforehand, and the worker does not sleep while an action is pending.  The condition is needed:
every action that is not timely brings the worker of a new runner down.
-/
theorem worker_survives_timely_actions (clock : Nat) (beats : List (Link × Beat)) :
    let run := (initial clock).observe Ledger.enter .empty beats
    (run.1.runner.worker = .failed →
        ∃ job, run.2.taken.getLast? = some job ∧ job.action.isTimely = false)
      ∧ (run.1.runner.reporter ≠ none → run.1.runner.worker ≠ .failed →
          ∃ job activity, run.1.runner.worker = .busy job activity
            ∧ run.2.taken.getLast? = some job)
      ∧ (∀ runner : Runner, runner.Reached → ∀ job activity delay latest,
          job.action.isTimely = true → runner.worker = .busy job activity →
          activity.latest delay job.action runner.clock runner.reporter = some latest →
          ∀ later, Runner.LeadsPromptly job.action delay runner later → later.IsWaiting →
            latest ≤ later.clock → later.Past job.order)
      ∧ (∀ runner : Runner, runner.Reached → runner.IsWaiting → runner.worker = .parked →
          runner.intake.pending = none)
      ∧ ∀ action : CustomAction, action.isTimely = false →
          ∃ later : List (Link × Beat), (∀ entry ∈ later, entry.2.offered? = none)
            ∧ ((initial clock).performAll ((.accepting, .offer action) :: later)).runner.worker =
                .failed := by
  intro run
  have explains : run.2.Explains run.1 :=
    observe_preserves (fun _ _ _ _ _ step explains => explains.step step) (.initial clock) beats
  have chronicle := observe_preserves (fun _ _ _ _ _ step chronicle => chronicle.step step)
    (Chronicle.initial clock) beats
  rw [observe_fst, ← observe_fst Ledger.enter _ .empty] at chronicle
  refine ⟨explains.failed, ?_, ?_, fun _ reached waits => waits.pending_eq_none reached, ?_⟩
  · intro alive up
    rcases busy_of_reporter chronicle alive up with ⟨job, activity, busy⟩
    exact ⟨job, activity, busy, explains.running job activity busy⟩
  · intro runner reached job activity delay latest timely busy estimate later prompt
    exact prompt.past reached timely busy estimate
  · intro action untimely
    exact MayFall.of_offer clock untimely

/-! ## A stage of one second, and a script with too long a time limit -/

theorem slowLink_settles (seconds : Float) :
    Runner.slowLink.Settles (Runner.singleStage seconds) 1000 where
  stage := by
    intro stage _
    exact ⟨1000, Nat.le_refl _, rfl⟩
  script := by
    intro script limit none
    cases none

/-- An action with a script that may take longer than any duration. -/
def overlongScript : CustomAction :=
  ⟨7, [], some "survey", some 1e20⟩

/--
A stage of one second with one and a half behind it is past after three seconds and a bit.  A script
with too long a time limit brings the worker down, and it is the action that was taken last then.
-/
theorem stage_is_past_and_script_brings_worker_down :
    (∃ later, Runner.LeadsPromptly (Runner.singleStage 1.5) 1000 (Runner.amidStage 1.5) later
      ∧ later.clock = 3100
      ∧ later.Past 0)
    ∧ ∃ beats, ((initial 0).observe Ledger.enter .empty beats).1.runner.worker = .failed
      ∧ ∃ job, ((initial 0).observe Ledger.enter .empty beats).2.taken.getLast? = some job
          ∧ job.action.isTimely = false := by
  rcases worker_survives_timely_actions 0 [] with ⟨_, _, past, _, falls⟩
  refine ⟨?_, ?_⟩
  · rcases (Runner.amidStage 1.5).flowsUnder_to Runner.slowLink (by decide : 0 ≤ 3100) with
      ⟨later, flows, waits, clock⟩
    have prompt := flows.leadsPromptly (slowLink_settles 1.5)
    refine ⟨later, prompt, clock, ?_⟩
    exact past _ (Runner.amidStage_reached 1.5) ⟨0, Runner.singleStage 1.5⟩ _ 1000 3100 (by decide)
      rfl (by decide) later prompt waits (Nat.le_of_eq clock.symm)
  · rcases falls overlongScript (by decide) with ⟨later, _, failed⟩
    rw [← observe_fst Ledger.enter _ .empty] at failed
    exact ⟨_, failed, (worker_survives_timely_actions 0 _).1 failed⟩

/-- The worker does not survive every action. -/
theorem overlong_script_brings_worker_down :
    ¬ ∀ (clock : Nat) (beats : List (Link × Beat)),
      ((initial clock).performAll beats).runner.worker ≠ .failed := by
  intro survives
  have untimely : overlongScript.isTimely = false := by decide
  rcases MayFall.of_offer 0 untimely with ⟨beats, _, failed⟩
  exact survives 0 ((.accepting, .offer overlongScript) :: beats) failed

end Scene

end FlightGuard
