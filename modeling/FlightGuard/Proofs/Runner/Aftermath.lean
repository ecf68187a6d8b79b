import FlightGuard.Proofs.Runner.Glimpses
import FlightGuard.Proofs.Runner.Shutdown

/-!
# During and behind the last action

A worker that is at an action does not notice a request to stop, so all that is seen of the action
is the same with the request and without it.  Behind the last action nothing is left over: a worker
that has ended stays so and sends nothing.  It is the only way to stop as long as all actions that
are offered are timely.
-/

namespace FlightGuard

/-! ## A worker that has stopped -/

theorem Runner.WorkerSection.hasStopped_eq_false {runner next : Runner} {link : Link}
    (performed : WorkerSection link runner next) : runner.hasStopped = false := by
  cases performed with
  | takes standing _ | parks standing _ | wakes standing _ | ends standing _ _
  | acts standing _ => rw [hasStopped, standing]

/-- A worker that has stopped does not come back. -/
theorem Scene.Step.worker_eq_of_hasStopped {link : Link} {scene next : Scene} {beat : Scene.Beat}
    (step : Scene.Step link scene beat next) (stopped : scene.runner.hasStopped = true) :
    next.runner.worker = scene.runner.worker := by
  rcases step.worker_cases with same | performed | ⟨standing, _⟩ | ⟨_, _, _, _, standing, _⟩
  · exact same
  · rw [performed.hasStopped_eq_false] at stopped
    cases stopped
  all_goals
    rw [Runner.hasStopped, standing] at stopped
    cases stopped

/-! ## An action that a request comes upon -/

namespace Runner

/-- The worker is at an action, or was brought down. -/
def Engaged (job : Job) (runner : Runner) : Prop :=
  (∃ activity, runner.worker = .busy job activity) ∨ runner.worker = .failed

theorem Engaged.isAwake {job : Job} {runner : Runner} (engaged : runner.Engaged job) :
    runner.IsAwake := by
  intro parked
  rcases engaged with ⟨activity, busy⟩ | failed
  · rw [parked] at busy
    cases busy
  · rw [parked] at failed
    cases failed

/-- A section of an action is the last one, or leaves the worker at the action or down. -/
theorem ActionSection.engaged_or_past {runner next : Runner} {link : Link} {job : Job}
    {activity : Activity} (performed : ActionSection link job runner activity next)
    (busy : runner.worker = .busy job activity) (numbered : runner.Numbered) :
    next.Engaged job ∨ next.Past job.order := by
  by_cases last : activity = .retiring
  · subst last
    exact Or.inr (numbered.past busy performed)
  · left
    cases performed with
    | retires => exact absurd rfl last
    | falls _ _ | fallsBeforeScript _ _ _ => exact Or.inr rfl
    | _ => exact Or.inl ⟨_, rfl⟩

end Runner

/-- Whatever happens to a worker that is at an action, it stays there until the action is past. -/
theorem Scene.Step.engaged_or_past {link : Link} {scene next : Scene} {beat : Scene.Beat}
    {job : Job} (step : Scene.Step link scene beat next) (numbered : scene.runner.Numbered)
    (engaged : scene.runner.Engaged job) :
    next.runner.Engaged job ∨ next.runner.Past job.order := by
  rcases engaged with ⟨activity, busy⟩ | failed
  · rcases step.worker_cases with
      same | performed | ⟨parked, _⟩ | ⟨other, _, _, _, awaiting, settling⟩
    · exact Or.inl (Or.inl ⟨activity, same.trans busy⟩)
    · exact (performed.of_busy busy).engaged_or_past busy numbered
    · rw [parked] at busy
      cases busy
    · rw [awaiting] at busy
      cases busy
      exact Or.inl (Or.inl ⟨_, settling⟩)
  · have stopped : scene.runner.hasStopped = true := by rw [Runner.hasStopped, failed]
    exact Or.inl (Or.inr ((step.worker_eq_of_hasStopped stopped).trans failed))

/-- Nothing more is seen of an action that is past. -/
theorem Glimpse.observe_of_past {job : Job} {scene : Scene} (past : scene.runner.Past job.order)
    (glimpses : List Glimpse) (beats : List (Link × Scene.Beat)) :
    (scene.observe (enter job) glimpses beats).2 = glimpses := by
  induction beats generalizing scene with
  | nil => rfl
  | cons head beats induction =>
      rcases head with ⟨link, beat⟩
      rw [Scene.observe, enter_of_past past]
      exact induction ((scene.perform_step link beat).past past)

/-- What is seen of an action that a request to stop comes upon is the same without the request. -/
theorem Scene.observe_stop {job : Job} {scene : Scene} (numbered : scene.runner.Numbered)
    (engaged : scene.runner.Engaged job) (link : Link) (glimpses : List Glimpse)
    (later : List (Link × Scene.Beat)) :
    ((scene.perform link .stop).observe (Glimpse.enter job) glimpses later).2 =
      (scene.observe (Glimpse.enter job) glimpses later).2 := by
  induction later generalizing scene glimpses with
  | nil => rfl
  | cons head later induction =>
      rcases head with ⟨other, beat⟩
      have step := scene.perform_step other beat
      have same : Glimpse.enter job glimpses (scene.perform link .stop) beat
          ((scene.perform other beat).perform link .stop) =
            Glimpse.enter job glimpses scene beat (scene.perform other beat) := rfl
      rw [observe, observe, perform_stop engaged.isAwake, same]
      rcases step.engaged_or_past numbered engaged with engaged | past
      · exact induction (step.numbered numbered) engaged _
      · -- Behind the action the runs may part, but neither comes back to it.
        have behind := ((scene.perform other beat).perform_step link .stop).past past
        rw [Glimpse.observe_of_past past, Glimpse.observe_of_past behind]

/-! ## A worker that has ended -/

/-- A worker that has ended stays so, and nothing passes over the link any more. -/
theorem Chronicle.ended_for_good {chapters : List Chapter} {scene : Scene}
    (chronicle : Chronicle chapters scene) (ended : scene.runner.worker = .ended)
    (beats : List (Link × Scene.Beat)) :
    (scene.performAll beats).runner.worker = .ended
      ∧ (scene.performAll beats).runner.journal = scene.runner.journal := by
  induction beats generalizing scene chapters with
  | nil => exact ⟨ended, rfl⟩
  | cons head beats induction =>
      rcases head with ⟨link, beat⟩
      have step := scene.perform_step link beat
      have stopped : scene.runner.hasStopped = true := by rw [Runner.hasStopped, ended]
      have still := (step.worker_eq_of_hasStopped stopped).trans ended
      have silent : (scene.perform link beat).runner.journal = scene.runner.journal := by
        have record := (chronicle.closed (ended ▸ rfl)).1
        rcases chronicle.journal_head step with same | ⟨_, _, _, execution, _, recorded, _⟩
        · exact same
        · rw [record] at recorded
          cases recorded
      rcases induction (chronicle.step step) still with ⟨ends, journal⟩
      exact ⟨ends, journal.trans silent⟩

/-! ## A worker that nothing brings down -/

/-- A beat offers no action but a timely one. -/
def Scene.Beat.IsTimely (beat : Scene.Beat) : Prop :=
  ∀ action, beat.offered? = some action → action.isTimely = true

namespace Scene

/-- The worker is up, and neither its action nor the pending one will bring it down. -/
structure Untroubled (scene : Scene) : Prop where
  pursuing : scene.runner.Pursuing
  pending : ∀ job, scene.runner.intake.pending = some job → job.action.isTimely = true
  running : ∀ job activity, scene.runner.worker = .busy job activity → job.action.isTimely = true
  up : scene.runner.worker ≠ .failed

theorem Step.pending_cases {link : Link} {scene next : Scene} {beat : Beat}
    (step : Step link scene beat next) {job : Job}
    (pending : next.runner.intake.pending = some job) :
    scene.runner.intake.pending = some job ∨ beat.offered? = some job.action := by
  cases step with
  | idles _ | refuses _ _ | announces _ | stops | leaves _ _ | reads _ _ _ _ | sends _ _
  | ends _ _ _ | passes => exact Or.inl pending
  | accepts asked _ =>
      obtain rfl := Option.some.inj pending
      exact Or.inr asked
  | cancels =>
      rcases scene.runner.cancel_frame _ with ⟨signal, cancelled⟩
      rw [cancelled] at pending
      exact Or.inl pending
  | works performed =>
      cases performed with
      | takes _ _ => cases pending
      | parks _ _ | wakes _ _ | ends _ _ _ => exact Or.inl pending
      | acts _ performed => exact Or.inl (performed.intake_eq.1.symm.trans pending)
  | judges _ _ =>
      rcases scene.runner.judge_eq _ with ⟨change, _, judged⟩
      rw [judged] at pending
      exact Or.inl pending

namespace Untroubled

theorem initial (clock : Nat) : Untroubled (.initial clock) where
  pursuing := .initial clock
  pending := nofun
  running := nofun
  up := nofun

theorem step {link : Link} {scene next : Scene} {beat : Beat} (untroubled : scene.Untroubled)
    (step : Step link scene beat next) (timely : beat.IsTimely) : next.Untroubled where
  pursuing := step.pursuing untroubled.pursuing
  pending := by
    intro job pending
    rcases step.pending_cases pending with before | offered
    · exact untroubled.pending job before
    · exact timely job.action offered
  running := by
    intro job activity busy
    rcases step.busy_cases busy with ⟨before, working⟩ | turned
    · exact untroubled.running job before working
    · exact untroubled.pending job (step.found_of_turnsTo? turned).2
  up := by
    intro failed
    rcases step.failed_cases untroubled.pursuing failed with down | ⟨job, activity, busy, untimely⟩
    · exact untroubled.up down
    · rw [untroubled.running job activity busy] at untimely
      cases untimely

theorem performAll {scene : Scene} (untroubled : scene.Untroubled)
    {beats : List (Link × Beat)} (timely : ∀ entry ∈ beats, entry.2.IsTimely) :
    (scene.performAll beats).Untroubled := by
  induction beats generalizing scene with
  | nil => exact untroubled
  | cons head beats induction =>
      rcases List.forall_mem_cons.mp timely with ⟨first, rest⟩
      exact induction (untroubled.step (scene.perform_step head.1 head.2) first) rest

end Untroubled

end Scene

end FlightGuard
