import FlightGuard.Proofs.Runner.Scenes
import Mathlib.Data.List.Nodup

/-!
# What becomes of an accepted action

An accepted action is pending until a later acceptance supersedes it or the worker takes it, and
nothing else can become of it.  Clients come in anywhere: before the worker looks at the pending
action, between an empty look and its sleep, while it executes, and several times in a row, which
leaves wake-ups behind that wake the worker for nothing.  In no order does the worker sleep over a
pending action, unless its own client is still about to wake it.
-/

namespace FlightGuard

/-- The action that the worker turns to between two moments, if it turns to one. -/
def Runner.turnsTo? (before after : Runner) : Option Job :=
  match before.worker, after.worker with
  | .busy _ _, _ => none
  | _, .busy job _ => some job
  | _, _ => none

theorem Runner.turnsTo?_of_worker_eq {before after : Runner}
    (same : after.worker = before.worker) : before.turnsTo? after = none := by
  rw [turnsTo?, same]
  cases before.worker <;> rfl

theorem Runner.turnsTo?_of_busy {before : Runner} {job : Job} {activity : Activity}
    (busy : before.worker = .busy job activity) (after : Runner) :
    before.turnsTo? after = none := by
  rw [turnsTo?, busy]

/-- The accepted, the superseded and the taken actions, in the order in which they became so. -/
structure Ledger where
  accepted : List Job
  superseded : List Job
  taken : List Job

/-- What can become of an accepted action. -/
inductive Fate where
  | pending
  | superseded
  | taken

namespace Ledger

/-- Nothing has happened. -/
def empty : Ledger := ⟨[], [], []⟩

/--
Notes what a beat does: an acceptance, as its client gets to know it, supersedes the action that was
pending, and the worker may turn to an action.
-/
def enter (ledger : Ledger) (before : Scene) (beat : Scene.Beat) (after : Scene) : Ledger :=
  match beat.offered? with
  | some action =>
      match before.runner.offer action with
      | .ok (order, _) =>
          { ledger with
              accepted := ledger.accepted ++ [⟨order, action⟩]
              superseded := ledger.superseded ++ before.runner.intake.pending.toList }
      | .error _ => ledger
  | none =>
      { ledger with taken := ledger.taken ++ (before.runner.turnsTo? after.runner).toList }

/-- An action has met a fate. -/
def Met (ledger : Ledger) (slot : Option Job) (job : Job) : Fate → Prop
  | .pending => slot = some job
  | .superseded => job ∈ ledger.superseded
  | .taken => job ∈ ledger.taken

/-- The books are right about a scene. -/
structure Tracks (ledger : Ledger) (scene : Scene) : Prop where
  numbers : ledger.accepted.map Job.order = List.range scene.runner.intake.nextOrder
  latest : ∀ job, scene.runner.intake.pending = some job →
    ledger.accepted.getLast? = some job
  fates : (ledger.superseded ++ ledger.taken ++ scene.runner.intake.pending.toList).Perm
    ledger.accepted
  outdated : ∀ job ∈ ledger.superseded, ∃ later ∈ ledger.accepted, job.order < later.order
  rising : ledger.taken.Pairwise fun first second => first.order < second.order
  beyond : ∀ job ∈ ledger.taken, scene.runner.intake.Beyond job.order
  awake : ∀ job, scene.runner.intake.pending = some job → scene.runner.worker = .parked →
    scene.runner.wakeUp = true ∨ job.order ∈ scene.unannounced

namespace Tracks

variable {scene next : Scene} {ledger : Ledger}

theorem initial (clock : Nat) : empty.Tracks (.initial clock) where
  numbers := rfl
  latest := by
    intro job offered
    cases offered
  fates := .nil
  outdated := by
    intro job superseded
    cases superseded
  rising := .nil
  beyond := by
    intro job taken
    cases taken
  awake := by
    intro job offered
    cases offered

theorem order_lt (tracks : ledger.Tracks scene) {job : Job} (accepted : job ∈ ledger.accepted) :
    job.order < scene.runner.intake.nextOrder := by
  have number : job.order ∈ ledger.accepted.map Job.order := List.mem_map_of_mem accepted
  rw [tracks.numbers] at number
  exact List.mem_range.mp number

/-- Nothing is noted where slot and numbers stay, and all is right if no sleep begins over them. -/
theorem quiet {beat : Scene.Beat} (tracks : ledger.Tracks scene) (silent : beat.offered? = none)
    (turned : scene.runner.turnsTo? next.runner = none)
    (pending : next.runner.intake.pending = scene.runner.intake.pending)
    (nextOrder : next.runner.intake.nextOrder = scene.runner.intake.nextOrder)
    (awake : ∀ job, scene.runner.intake.pending = some job → next.runner.worker = .parked →
      next.runner.wakeUp = true ∨ job.order ∈ next.unannounced) :
    (ledger.enter scene beat next).Tracks next := by
  have unnoted : ledger.enter scene beat next = ledger := by
    rw [enter, silent, turned]
    simp
  rw [unnoted]
  exact {
    numbers := nextOrder ▸ tracks.numbers
    latest := pending ▸ tracks.latest
    fates := pending ▸ tracks.fates
    outdated := tracks.outdated
    rising := tracks.rising
    beyond := fun job taken => (tracks.beyond job taken).congr pending nextOrder
    awake := pending ▸ awake }

/-- A worker that does not sleep sleeps over nothing. -/
theorem quiet_of_awake {beat : Scene.Beat} (tracks : ledger.Tracks scene)
    (silent : beat.offered? = none) (turned : scene.runner.turnsTo? next.runner = none)
    (pending : next.runner.intake.pending = scene.runner.intake.pending)
    (nextOrder : next.runner.intake.nextOrder = scene.runner.intake.nextOrder)
    (busy : next.runner.worker ≠ .parked) : (ledger.enter scene beat next).Tracks next :=
  tracks.quiet silent turned pending nextOrder fun _ _ sleeps => absurd sleeps busy

/-- An accepted action goes into the slot, and the one that was there is superseded. -/
theorem accept (tracks : ledger.Tracks scene) (action : CustomAction) (now : Nat) :
    Tracks
      { ledger with
          accepted := ledger.accepted ++ [⟨scene.runner.intake.nextOrder, action⟩]
          superseded := ledger.superseded ++ scene.runner.intake.pending.toList }
      { scene with
          runner := { scene.runner with intake := scene.runner.intake.accept action now }
          unannounced := scene.runner.intake.nextOrder :: scene.unannounced } where
  numbers := by
    change (ledger.accepted ++ [_]).map Job.order = List.range (_ + 1)
    rw [List.map_append, tracks.numbers, List.range_succ]
    rfl
  latest := by
    intro job offered
    obtain rfl := Option.some.inj offered
    exact List.getLast?_concat
  fates := by
    have before : (ledger.superseded ++ scene.runner.intake.pending.toList ++ ledger.taken).Perm
        ledger.accepted := by
      rw [List.append_assoc]
      refine (List.Perm.append_left _ List.perm_append_comm).trans ?_
      rw [← List.append_assoc]
      exact tracks.fates
    exact before.append_right _
  outdated := by
    intro job superseded
    rcases List.mem_append.mp superseded with before | replaced
    · rcases tracks.outdated job before with ⟨later, accepted, lower⟩
      exact ⟨later, List.mem_append_left _ accepted, lower⟩
    · refine ⟨_, List.mem_append_right _ List.mem_cons_self, ?_⟩
      have offered : scene.runner.intake.pending = some job := Option.mem_toList.mp replaced
      exact tracks.order_lt (List.mem_of_getLast? (tracks.latest job offered))
  rising := tracks.rising
  beyond := fun job taken => (tracks.beyond job taken).accept action now
  awake := by
    intro job offered parked
    obtain rfl := Option.some.inj offered
    exact Or.inr List.mem_cons_self

/-- The worker takes the pending action, which is the latest that was accepted. -/
theorem take (tracks : ledger.Tracks scene) {job : Job}
    (offered : scene.runner.intake.pending = some job) {worker : Worker}
    (busy : worker ≠ .parked) :
    Tracks { ledger with taken := ledger.taken ++ [job] }
      { scene with
          runner := { scene.runner with intake := scene.runner.intake.take, worker } } where
  numbers := tracks.numbers
  latest := by
    intro other none
    cases none
  fates := by
    have before := tracks.fates
    rw [offered] at before
    change (ledger.superseded ++ (ledger.taken ++ [job]) ++ []).Perm ledger.accepted
    rw [List.append_nil, ← List.append_assoc]
    exact before
  outdated := tracks.outdated
  rising := by
    refine List.pairwise_append.mpr ⟨tracks.rising, List.pairwise_singleton _ _, ?_⟩
    intro first taken second last
    rw [List.mem_singleton.mp last]
    exact (tracks.beyond first taken).pending job offered
  beyond := by
    intro other taken
    rcases List.mem_append.mp taken with before | new
    · exact (tracks.beyond other before).take
    · rw [List.mem_singleton.mp new]
      refine ⟨tracks.order_lt (List.mem_of_getLast? (tracks.latest job offered)), ?_⟩
      intro later none
      cases none
  awake := fun _ _ parked => absurd parked busy

/-- The books stay right whatever the worker does. -/
theorem workerSection {link : Link} {runner : Runner} (tracks : ledger.Tracks scene)
    (performed : Runner.WorkerSection link scene.runner runner) :
    (ledger.enter scene .work { scene with runner }).Tracks { scene with runner } := by
  cases performed with
  | @takes job looks offered =>
      have turned : scene.runner.turnsTo?
          ({ scene.runner with intake := scene.runner.intake.take }.moveTo job .opening) =
            some job := by
        rw [Runner.turnsTo?, looks]
        rfl
      simp only [enter, Scene.Beat.offered?, turned]
      exact tracks.take offered Worker.noConfusion
  | parks looks nothing =>
      refine tracks.quiet rfl (by rw [Runner.turnsTo?, looks]) rfl rfl ?_
      intro job offered
      rw [nothing] at offered
      cases offered
  | wakes parked _ | ends parked _ _ =>
      exact tracks.quiet_of_awake rfl (by rw [Runner.turnsTo?, parked]) rfl rfl
        Worker.noConfusion
  | acts busy performed =>
      rcases performed.intake_eq with ⟨pending, nextOrder, _⟩
      exact tracks.quiet_of_awake rfl (Runner.turnsTo?_of_busy busy _) pending nextOrder
        performed.not_parked

/-- The books stay right whatever happens. -/
theorem step {link : Link} {beat : Scene.Beat} (tracks : ledger.Tracks scene)
    (step : Scene.Step link scene beat next) : (ledger.enter scene beat next).Tracks next := by
  cases step with
  | idles silent =>
      exact tracks.quiet silent (Runner.turnsTo?_of_worker_eq rfl) rfl rfl tracks.awake
  | refuses asked refused =>
      simp only [enter, asked, refused]
      exact tracks
  | accepts asked accepted =>
      simp only [enter, asked, accepted]
      exact tracks.accept _ _
  | announces waiting =>
      exact tracks.quiet rfl (Runner.turnsTo?_of_worker_eq rfl) rfl rfl fun _ _ _ => Or.inl rfl
  | cancels =>
      rcases scene.runner.cancel_frame _ with ⟨signal, cancelled⟩
      rw [cancelled]
      exact tracks.quiet rfl (Runner.turnsTo?_of_worker_eq rfl) rfl rfl tracks.awake
  | stops | reads _ _ _ _ | sends _ _ | passes =>
      exact tracks.quiet rfl (Runner.turnsTo?_of_worker_eq rfl) rfl rfl tracks.awake
  | ends silent _ _ =>
      exact tracks.quiet silent (Runner.turnsTo?_of_worker_eq rfl) rfl rfl tracks.awake
  | works performed => exact tracks.workerSection performed
  | leaves parked _ =>
      exact tracks.quiet_of_awake rfl (by rw [Runner.turnsTo?, parked]) rfl rfl
        Worker.noConfusion
  | judges busy _ =>
      rcases scene.runner.judge_eq _ with ⟨change, _, judged⟩
      rw [judged]
      exact tracks.quiet_of_awake rfl (Runner.turnsTo?_of_busy busy _) rfl rfl
        Worker.noConfusion

theorem nodup_fates (tracks : ledger.Tracks scene) :
    (ledger.superseded ++ ledger.taken ++ scene.runner.intake.pending.toList).Nodup := by
  have numbers : (ledger.accepted.map Job.order).Nodup := by
    rw [tracks.numbers]
    exact List.nodup_range
  exact tracks.fates.nodup_iff.mpr (List.Nodup.of_map _ numbers)

theorem mem_accepted_of_met (tracks : ledger.Tracks scene) {job : Job} {fate : Fate}
    (met : ledger.Met scene.runner.intake.pending job fate) : job ∈ ledger.accepted := by
  apply tracks.fates.mem_iff.mp
  cases fate with
  | pending => exact List.mem_append_right _ (Option.mem_toList.mpr met)
  | superseded => exact List.mem_append_left _ (List.mem_append_left _ met)
  | taken => exact List.mem_append_left _ (List.mem_append_right _ met)

theorem existsUnique_met (tracks : ledger.Tracks scene) {job : Job}
    (accepted : job ∈ ledger.accepted) :
    ∃! fate, ledger.Met scene.runner.intake.pending job fate := by
  rcases List.nodup_append'.mp tracks.nodup_fates with ⟨past, _, notPending⟩
  rcases List.nodup_append'.mp past with ⟨_, _, notBoth⟩
  have offered {other : Job} (offered : scene.runner.intake.pending = some other) :
      other ∈ scene.runner.intake.pending.toList := Option.mem_toList.mpr offered
  rcases List.mem_append.mp (tracks.fates.mem_iff.mpr accepted) with settled | waiting
  · rcases List.mem_append.mp settled with superseded | taken
    · refine ⟨.superseded, superseded, ?_⟩
      intro fate met
      cases fate with
      | pending => exact absurd (offered met) (notPending settled)
      | superseded => rfl
      | taken => exact absurd met (notBoth superseded)
    · refine ⟨.taken, taken, ?_⟩
      intro fate met
      cases fate with
      | pending => exact absurd (offered met) (notPending settled)
      | superseded => exact absurd taken (notBoth met)
      | taken => rfl
  · refine ⟨.pending, Option.mem_toList.mp waiting, ?_⟩
    intro fate met
    cases fate with
    | pending => rfl
    | superseded => exact absurd waiting (notPending (List.mem_append_left _ met))
    | taken => exact absurd waiting (notPending (List.mem_append_right _ met))

end Tracks

end Ledger

namespace Scene

/-- The worker turns only to the action that it finds when it looks for one. -/
theorem Step.found_of_turnsTo? {link : Link} {scene next : Scene} {beat : Beat} {job : Job}
    (step : Step link scene beat next)
    (turned : scene.runner.turnsTo? next.runner = some job) :
    scene.runner.worker = .looking ∧ scene.runner.intake.pending = some job := by
  rcases step.worker_cases with same | performed | ⟨parked, ended⟩ | ⟨_, _, _, _, busy, _⟩
  · rw [Runner.turnsTo?_of_worker_eq same] at turned
    cases turned
  · generalize next.runner = after at performed turned
    cases performed with
    | takes looks offered =>
        rw [Runner.turnsTo?, looks] at turned
        cases turned
        exact ⟨looks, offered⟩
    | parks standing _ | wakes standing _ | ends standing _ _ =>
        rw [Runner.turnsTo?, standing] at turned
        cases turned
    | acts busy _ =>
        rw [Runner.turnsTo?_of_busy busy] at turned
        cases turned
  · rw [Runner.turnsTo?, parked, ended] at turned
    cases turned
  · rw [Runner.turnsTo?_of_busy busy] at turned
    cases turned

/-- The worker is at the action that it was at, unless it has just turned to another one. -/
theorem Step.busy_cases {link : Link} {scene next : Scene} {beat : Beat} {job : Job}
    {activity : Activity} (step : Step link scene beat next)
    (busy : next.runner.worker = .busy job activity) :
    (∃ before, scene.runner.worker = .busy job before)
      ∨ scene.runner.turnsTo? next.runner = some job := by
  rcases step.worker_cases with same | performed | ⟨_, ended⟩ | ⟨_, _, _, _, working, settling⟩
  · exact Or.inl ⟨activity, same ▸ busy⟩
  · generalize next.runner = after at performed busy
    cases performed with
    | takes looks _ =>
        cases busy
        right
        rw [Runner.turnsTo?, looks]
        rfl
    | parks _ _ | wakes _ _ | ends _ _ _ => cases busy
    | acts working performed => exact Or.inl ⟨_, performed.same_job busy ▸ working⟩
  · rw [ended] at busy
    cases busy
  · rw [settling] at busy
    cases busy
    exact Or.inl ⟨_, working⟩

/-- What the worker turns to is noted as taken. -/
theorem Step.taken_enter {link : Link} {scene next : Scene} {beat : Beat}
    (step : Step link scene beat next) (ledger : Ledger) :
    (ledger.enter scene beat next).taken =
      ledger.taken ++ (scene.runner.turnsTo? next.runner).toList := by
  cases asked : beat.offered? with
  | none => rw [Ledger.enter, asked]
  | some action =>
      have unmoved : scene.runner.turnsTo? next.runner = none := by
        cases step with
        | refuses _ _ | accepts _ _ => exact Runner.turnsTo?_of_worker_eq rfl
        | idles silent | ends silent _ _ =>
            rw [silent] at asked
            cases asked
        | _ => cases asked
      rw [Ledger.enter, asked, unmoved, Option.toList_none, List.append_nil]
      dsimp only
      split <;> rfl

/--
In every run, each accepted action is at any time either pending, or superseded by a later one, or
taken, and it is taken once; nothing else is.  The worker turns only to the latest accepted action,
so the numbers of those that it takes rise.  And it never sleeps over a pending action without a
wake-up, unless the client of that very action is still about to wake it.
-/
theorem accepted_actions_meet_one_fate (clock : Nat) (beats : List (Link × Beat)) :
    let run := (initial clock).observe Ledger.enter .empty beats
    let runner := run.1.runner
    let ledger := run.2
    (∀ job ∈ ledger.accepted, ∃! fate, ledger.Met runner.intake.pending job fate)
      ∧ (∀ job fate, ledger.Met runner.intake.pending job fate → job ∈ ledger.accepted)
      ∧ (∀ job ∈ ledger.superseded, ∃ later ∈ ledger.accepted, job.order < later.order)
      ∧ (∀ link beat job, runner.turnsTo? (run.1.perform link beat).runner = some job →
          ledger.accepted.getLast? = some job)
      ∧ (ledger.taken.Pairwise fun first second => first.order < second.order)
      ∧ ∀ job, runner.intake.pending = some job → runner.worker = .parked →
          runner.wakeUp = false → job.order ∈ run.1.unannounced := by
  intro run runner ledger
  have tracks : ledger.Tracks run.1 :=
    observe_preserves (fun _ _ _ _ _ step tracks => tracks.step step) (.initial clock) beats
  refine ⟨?_, ?_, tracks.outdated, ?_, tracks.rising, ?_⟩
  · intro job accepted
    exact tracks.existsUnique_met accepted
  · intro job fate met
    exact tracks.mem_accepted_of_met met
  · intro link beat job turned
    exact tracks.latest job ((run.1.perform_step link beat).found_of_turnsTo? turned).2
  · intro job offered parked asleep
    rcases tracks.awake job offered parked with woken | unannounced
    · exact absurd (asleep.symm.trans woken) Bool.false_ne_true
    · exact unannounced

end Scene

end FlightGuard
