import FlightGuard.Proofs.Supervision.Mission
import FlightGuard.Supervisor

/-!
# The supervisor is a mission

The supervisor, in step with its clock, is one of the missions.  Whatever is done with it from the
outside is made of beats: a tick is one in which nothing comes in between, and the runner takes its
turns.  So what holds of all missions holds of the supervisor.
-/

namespace FlightGuard

/-- What a client does of an operation offers the action of the operation, if any. -/
theorem Scene.Beat.Serves.offered? {operation : Runner.Operation} {beat : Scene.Beat}
    (serves : beat.Serves operation) {action : CustomAction}
    (asked : beat.offered? = some action) : operation.offered? = some action := by
  cases beat with
  | offer other => exact serves.trans asked
  | announce _ | cancel _ | stop => cases asked
  | request | work | leave | judgeLate | read | send | cease | pass => exact serves.elim

theorem Runner.FlowsUnder.stopping_eq {link : Link} {runner next : Runner}
    (flows : FlowsUnder link runner next) : next.stopping = runner.stopping := by
  induction flows with
  | refl => rfl
  | tail _ turn induction =>
      rcases turn with performed | turn
      · rcases nextSection_cases performed with byWorker | byReporter
        · exact byWorker.stopping_eq.trans induction
        · rcases byReporter.frame with ⟨reporter, journal, rfl⟩
          exact induction
      · cases turn with
        | pass _ _ _ => exact induction

/-- Only a request to stop asks the runner to stop. -/
theorem Runner.operate_stopping_eq (runner : Runner) {operation : Operation}
    (other : operation ≠ .stop) : (runner.operate operation).stopping = runner.stopping := by
  have submits : ∀ action, (runner.afterIntake (runner.submit action)).stopping =
      runner.stopping := by
    intro action
    rcases runner.afterIntake_submit_eq action with ⟨intake, wakeUp, submitted⟩
    rw [submitted]
  cases operation with
  | submit action => exact submits action
  | request file path id =>
      rw [operate, request]
      cases Catalog.lookUp file path id with
      | ok action => exact submits action
      | error rejection => rfl
  | cancel raised =>
      rcases runner.cancel_frame raised with ⟨signal, cancelled⟩
      rw [operate, cancelled]
  | stop => exact absurd rfl other

namespace Supervisor

/-- What is done with a supervisor from the outside, with the passage of time. -/
inductive Operation where
  | feed (news : Feed) (timeless : ∀ microseconds, news ≠ .time microseconds)
  | ask (operation : Runner.Operation)
  | wait (target : Nat)

/-- The action that an operation submits, if it submits one. -/
def Operation.offered? : Operation → Option CustomAction
  | .ask operation => operation.offered?
  | .feed _ _ | .wait _ => none

/-- Does what is asked for. -/
def operate (supervisor : Supervisor) (link : Link) : Operation → Supervisor
  | .feed news _ => supervisor.update news
  | .ask .stop => supervisor.stop link
  | .ask operation => supervisor.serve link (·.operate operation)
  | .wait target => supervisor.runTo link target

/-- Performs operations one after another, each under the link as it answers at that time. -/
def operateAll (supervisor : Supervisor) : List (Link × Operation) → Supervisor
  | [] => supervisor
  | (link, operation) :: operations => (supervisor.operate link operation).operateAll operations

/-- The mission that a supervisor is at. -/
def mission (supervisor : Supervisor) : Mission :=
  ⟨.still supervisor.runner, supervisor.watch,
   if supervisor.nextTick.isSome then .resting else .ended, supervisor.sent⟩

/--
The clocks of a supervisor agree, its runner waits, and a request to stop has ended the watch.
-/
structure InStep (supervisor : Supervisor) : Prop where
  feeds : supervisor.watch.feeds.clock = supervisor.clock * 1000
  clock : supervisor.runner.clock = supervisor.clock
  reached : supervisor.runner.Reached
  waits : supervisor.runner.IsWaiting
  stopped : supervisor.runner.stopping = true → supervisor.nextTick = none

variable {property : Mission.Beat → Prop} {supervisor : Supervisor}

/-! ## Ticks -/

theorem mission_of_isSome (ticking : supervisor.nextTick.isSome = true) :
    supervisor.mission =
      ⟨.still supervisor.runner, supervisor.watch, .resting, supervisor.sent⟩ := by
  rw [mission, ticking]
  rfl

theorem mission_of_eq_none (silent : supervisor.nextTick = none) :
    supervisor.mission = ⟨.still supervisor.runner, supervisor.watch, .ended, supervisor.sent⟩ := by
  rw [mission, silent]
  rfl

/-- The watch of a supervisor is never within a tick. -/
theorem mission_between (supervisor : Supervisor) :
    supervisor.mission.vigil = .resting ∨ supervisor.mission.vigil = .ended := by
  cases awaited : supervisor.nextTick with
  | none => exact Or.inr (congrArg Mission.vigil (mission_of_eq_none awaited))
  | some instant =>
      have ticking : supervisor.nextTick.isSome = true := by rw [awaited]; rfl
      exact Or.inl (congrArg Mission.vigil (mission_of_isSome ticking))

/-- The clock of the feeds is set, and nothing comes in between while the watch ticks. -/
theorem reaches_tickAt (quiet : Mission.HoldsQuietly property) (link : Link) {instant : Nat}
    (ticking : supervisor.nextTick.isSome = true)
    (early : supervisor.watch.feeds.clock ≤ instant * 1000) :
    Mission.Reaches property supervisor.mission (supervisor.tickAt link instant).mission := by
  let timed : Watch :=
    { supervisor.watch with feeds := { supervisor.watch.feeds with clock := instant * 1000 } }
  let waiting : Mission := ⟨.still supervisor.runner, timed, .resting, supervisor.sent⟩
  have arrives : Mission.Reaches property supervisor.mission waiting := by
    rw [mission_of_isSome ticking]
    exact Mission.reaches_of_time quiet early
  have ticks : Mission.Reaches property waiting _ :=
    Mission.reaches_of_tick quiet link supervisor.wallClock rfl
  have present : timed.feeds.clock / 1000 = instant := Nat.mul_div_cancel instant (by decide)
  rw [present] at ticks
  exact arrives.trans ticks

/-- Ticks up to a target leave the runner and the existence of a next tick alone. -/
theorem reaches_tickThrough (quiet : Mission.HoldsQuietly property) (link : Link)
    (target now : Nat) (supervisor : Supervisor)
    (early : supervisor.watch.feeds.clock ≤ now * 1000) (ahead : now ≤ target) :
    let ticked := tickThrough link target now supervisor
    Mission.Reaches property supervisor.mission ticked.mission
      ∧ ticked.runner = supervisor.runner
      ∧ ticked.nextTick.isSome = supervisor.nextTick.isSome
      ∧ ticked.watch.feeds.clock ≤ target * 1000 := by
  induction now, supervisor using tickThrough.induct link target with
  | case1 now supervisor instant awaited between induction =>
      have ticking : supervisor.nextTick.isSome = true := by rw [awaited]; rfl
      have soon : supervisor.watch.feeds.clock ≤ instant * 1000 :=
        Nat.le_trans early (Nat.mul_le_mul_right 1000 (Nat.le_of_lt between.1))
      have first := reaches_tickAt quiet link ticking soon
      rcases induction (Nat.le_refl _) between.2 with ⟨rest, runner, next, feeds⟩
      rw [tickThrough, awaited]
      simp only [between, and_self, if_true]
      exact ⟨first.trans rest, runner, next, feeds⟩
  | case2 now supervisor instant awaited passed =>
      have stays : tickThrough link target now supervisor = supervisor := by
        rw [tickThrough, awaited]
        exact if_neg passed
      rw [stays]
      exact ⟨.refl _, rfl, rfl, Nat.le_trans early (Nat.mul_le_mul_right 1000 ahead)⟩
  | case3 now supervisor nothing =>
      have stays : tickThrough link target now supervisor = supervisor := by
        rw [tickThrough, nothing]
      rw [stays]
      exact ⟨.refl _, rfl, rfl, Nat.le_trans early (Nat.mul_le_mul_right 1000 ahead)⟩

/-! ## The runner -/

/-- What the runner does on its own, and what a client does of an operation, is what may happen. -/
theorem reaches_serve (link : Link) (operation : Runner.Operation)
    (admits : ∀ beat : Mission.Beat,
      (∀ action, beat.offered? = some action → operation.offered? = some action) → property beat) :
    Mission.Reaches property supervisor.mission
      (supervisor.serve link (·.operate operation)).mission := by
  have own : ∀ beat : Scene.Beat, beat.isOwn = true → property (.runner beat) := by
    intro beat own
    refine admits (.runner beat) ?_
    intro action asked
    rw [Mission.Beat.offered?, Scene.Beat.offered?_of_isOwn own] at asked
    cases asked
  have serves : ∀ beat : Scene.Beat, beat.Serves operation → property (.runner beat) :=
    fun beat serves => admits (.runner beat) fun _ asked => serves.offered? asked
  have operates : Scene.Reaches (fun _ _ beat => property (.runner beat))
      (.still supervisor.runner) (.still (supervisor.runner.operate operation)) :=
    Scene.reaches_of_operate operation link fun _ beat _ => serves beat
  have settles : Scene.Reaches (fun _ _ beat => property (.runner beat))
      (.still (supervisor.runner.operate operation))
      (.still ((supervisor.runner.operate operation).settle link)) :=
    (Runner.settle_turns _ link).1.reaches fun _ beat => own beat
  have reached : Mission.Reaches property supervisor.mission _ := .runner (operates.trans settles)
  exact reached

/-- What a client does of an operation does not change the clock, and the runner waits again. -/
theorem InStep.operate (inStep : supervisor.InStep) (link : Link) (operation : Runner.Operation) :
    ((supervisor.runner.operate operation).settle link).clock = supervisor.clock
      ∧ ((supervisor.runner.operate operation).settle link).Reached
      ∧ ((supervisor.runner.operate operation).settle link).IsWaiting
      ∧ ((supervisor.runner.operate operation).settle link).stopping =
          (supervisor.runner.operate operation).stopping := by
  rcases (supervisor.runner.operate operation).settle_turns link with ⟨flows, waits, clock⟩
  have operated : Runner.Leads supervisor.runner (supervisor.runner.operate operation) :=
    .single ⟨_, .operate inStep.waits operation⟩
  refine ⟨clock.trans ?_, inStep.reached.leads (operated.trans flows.flows.leads), waits,
    flows.stopping_eq⟩
  rcases supervisor.runner.operate_eq operation with ⟨intake, wakeUp, signal, stopping, operated⟩
  rw [operated]
  exact inStep.clock

theorem InStep.serve (inStep : supervisor.InStep) (link : Link) {operation : Runner.Operation}
    (other : operation ≠ .stop) : (supervisor.serve link (·.operate operation)).InStep := by
  rcases inStep.operate link operation with ⟨clock, reached, waits, stopping⟩
  refine ⟨inStep.feeds, clock, reached, waits, ?_⟩
  intro stopped
  apply inStep.stopped
  rw [← supervisor.runner.operate_stopping_eq other, ← stopping]
  exact stopped

theorem InStep.stop (inStep : supervisor.InStep) (link : Link) : (supervisor.stop link).InStep := by
  rcases inStep.operate link .stop with ⟨clock, reached, waits, _⟩
  exact ⟨inStep.feeds, clock, reached, waits, fun _ => rfl⟩

/-- Behind the request the runner performs what it can, and then the watch notices it. -/
theorem reaches_stop (quiet : Mission.HoldsQuietly property) (link : Link) :
    Mission.Reaches property (supervisor.mission.perform link (.runner .stop))
      (supervisor.stop link).mission := by
  have settles := (supervisor.runner.stop.settle_turns link).1
  let served : Supervisor := supervisor.serve link Runner.stop
  have serves : Mission.Reaches property (supervisor.mission.perform link (.runner .stop))
      served.mission := .runner (quiet.reaches_of_flows settles)
  have stopping : served.mission.scene.runner.stopping = true := settles.stopping_eq
  refine serves.trans (.head link .leave (quiet .leave rfl) ?_)
  rw [Mission.perform, Mission.leave_eq served.mission_between stopping]
  exact .refl _

/-! ## Time -/

/-- The watch ticks up to the target first, then the runner goes there on its own. -/
theorem reaches_runTo (quiet : Mission.HoldsQuietly property) (inStep : supervisor.InStep)
    (link : Link) (target : Nat) :
    Mission.Reaches property supervisor.mission (supervisor.runTo link target).mission
      ∧ (supervisor.runTo link target).InStep := by
  rw [runTo]
  split
  next ahead =>
    rcases reaches_tickThrough quiet link target supervisor.clock supervisor
      (Nat.le_of_eq inStep.feeds) ahead with ⟨ticks, runner, next, feeds⟩
    rcases Runner.runTo_turns inStep.waits link (inStep.clock.symm ▸ ahead) with
      ⟨flows, waits, clock⟩
    let ticked := tickThrough link target supervisor.clock supervisor
    have arrives : Mission.Reaches property ticked.mission _ :=
      Mission.reaches_of_time quiet feeds
    have goes : Scene.Reaches (fun _ _ beat => property (.runner beat)) (.still ticked.runner)
        (.still (supervisor.runner.runTo link target)) := by
      rw [runner]
      exact quiet.reaches_of_flows flows
    have runs := arrives.trans (.runner goes)
    refine ⟨ticks.trans runs, rfl, clock, inStep.reached.leads flows.flows.leads, waits, ?_⟩
    · intro stopped
      rw [flows.stopping_eq] at stopped
      rw [inStep.stopped stopped] at next
      exact Option.not_isSome_iff_eq_none.mp (Bool.eq_false_iff.mp next)
  next => exact ⟨.refl _, inStep⟩

/-! ## Operations -/

theorem update_clock (feeds : Feeds) {news : Feed}
    (timeless : ∀ microseconds, news ≠ .time microseconds) :
    (feeds.update news).clock = feeds.clock := by
  cases news with
  | time microseconds => exact absurd rfl (timeless microseconds)
  | telemetry _ | configuration _ | landing _ | noLandingData | obstacle _ => rfl

/-- An operation is made of beats that offer nothing but the action of the operation. -/
theorem reaches_operate (inStep : supervisor.InStep) (link : Link) (operation : Operation)
    (admits : ∀ beat : Mission.Beat,
      (∀ action, beat.offered? = some action → operation.offered? = some action) → property beat) :
    Mission.Reaches property supervisor.mission (supervisor.operate link operation).mission
      ∧ (supervisor.operate link operation).InStep := by
  have quiet : Mission.HoldsQuietly property := by
    intro beat silent
    refine admits beat ?_
    intro action asked
    rw [silent] at asked
    cases asked
  cases operation with
  | feed news timeless =>
      refine ⟨.head link (.feed news) (quiet (.feed news) rfl) (.refl _), ?_⟩
      exact ⟨(update_clock _ timeless).trans inStep.feeds, inStep.clock, inStep.reached,
        inStep.waits, inStep.stopped⟩
  | ask operation =>
      cases operation with
      | stop =>
          have asks := quiet (.runner .stop) rfl
          exact ⟨.head link (.runner .stop) asks (reaches_stop quiet link), inStep.stop link⟩
      | submit _ | request _ _ _ | cancel _ =>
          exact ⟨reaches_serve link _ admits, inStep.serve link Runner.Operation.noConfusion⟩
  | wait target => exact reaches_runTo quiet inStep link target

theorem reaches_operateAll (inStep : supervisor.InStep) (operations : List (Link × Operation))
    (admits : ∀ entry ∈ operations, ∀ beat : Mission.Beat,
      (∀ action, beat.offered? = some action → entry.2.offered? = some action) → property beat) :
    Mission.Reaches property supervisor.mission (supervisor.operateAll operations).mission
      ∧ (supervisor.operateAll operations).InStep := by
  induction operations generalizing supervisor with
  | nil => exact ⟨.refl _, inStep⟩
  | cons head operations induction =>
      rcases List.forall_mem_cons.mp admits with ⟨first, rest⟩
      rcases reaches_operate inStep head.1 head.2 first with ⟨reaches, next⟩
      rcases induction next rest with ⟨onward, last⟩
      exact ⟨reaches.trans onward, last⟩

/-! ## The beginning -/

/-- A supervisor begins with the first tick, and with the worker that looks for work. -/
theorem reaches_begin (quiet : Mission.HoldsQuietly property)
    (configuration : Configuration) (link : Link) (wallClock : Int) (clock : Nat) :
    Mission.Reaches property (.initial configuration clock)
        (begin configuration link wallClock clock).mission
      ∧ (begin configuration link wallClock clock).InStep := by
  -- The first tick is that of a supervisor that was to tick at this very instant.
  let idle : Supervisor :=
    ⟨clock, wallClock, .initial configuration, some clock, [], .initial clock⟩
  have ticks : Mission.Reaches property idle.mission (idle.tickAt link clock).mission :=
    reaches_tickAt quiet link rfl (Nat.zero_le _)
  rcases (Runner.initial clock).settle_turns link with ⟨flows, waits, same⟩
  have settles : Mission.Reaches property (idle.tickAt link clock).mission _ :=
    .runner (quiet.reaches_of_flows flows)
  refine ⟨ticks.trans settles, rfl, same, ⟨clock, flows.flows.leads⟩, waits, ?_⟩
  intro stopped
  have asked := flows.stopping_eq.symm.trans stopped
  cases asked

theorem reaches_start (quiet : Mission.HoldsQuietly property)
    {discovery : Discovery} {limit : Duration} {configuration : Configuration} {link : Link}
    {wallClock : Int} (started : start discovery limit configuration link wallClock =
      .ok supervisor) :
    Mission.Reaches property (.initial configuration supervisor.clock) supervisor.mission
      ∧ supervisor.InStep := by
  rw [start] at started
  cases found : discovery.outcome limit with
  | error error =>
      rw [found] at started
      cases started
  | ok delay =>
      rw [found] at started
      cases started
      exact reaches_begin quiet configuration link wallClock delay

end Supervisor

end FlightGuard
