import FlightGuard.Proofs.Runner.Aftermath
import FlightGuard.Proofs.Supervision.Operations

/-!
# A shutdown is clean

A request to stop that comes upon an action makes no difference to it.  When watch and worker have
both come to their end nothing is sent any more, whatever is fed, submitted or cancelled.
-/

namespace FlightGuard

namespace Mission

/-- A beat offers no action but a timely one. -/
def Beat.IsTimely (beat : Beat) : Prop :=
  ∀ action, beat.offered? = some action → action.isTimely = true

/-- What is seen of an action in a run: its calls, its reports and what becomes of its record. -/
def glimpses (mission : Mission) (job : Job) (beats : List (Link × Beat)) : List Glimpse :=
  (mission.scene.observe (Glimpse.enter job) [] (runnerBeats beats)).2

/-- The watch has ended, and the worker will never act again. -/
def HasReturned (mission : Mission) : Prop :=
  mission.vigil = .ended ∧ mission.scene.runner.hasStopped = true

/-- What is known of every run in which all actions that are offered are timely. -/
structure Sound (mission : Mission) : Prop where
  chronicle : ∃ chapters, Chronicle chapters mission.scene
  untroubled : mission.scene.Untroubled

/-- A beat that offers nothing offers nothing but timely actions. -/
theorem isTimely_holdsQuietly : HoldsQuietly Beat.IsTimely := by
  intro beat silent action asked
  rw [silent] at asked
  cases asked

theorem Sound.initial (configuration : Configuration) (clock : Nat) :
    Sound (.initial configuration clock) :=
  ⟨⟨[], .initial clock⟩, .initial clock⟩

theorem Sound.performAll {mission : Mission} (sound : mission.Sound) {beats : List (Link × Beat)}
    (timely : ∀ entry ∈ beats, entry.2.IsTimely) : (mission.performAll beats).Sound := by
  let chronicled (scene : Scene) : Prop := ∃ chapters, Chronicle chapters scene
  have preserved : ∀ (link : Link) (beat : Scene.Beat) (scene next : Scene),
      Scene.Step link scene beat next → chronicled scene → chronicled next := by
    rintro link beat scene next step ⟨chapters, chronicle⟩
    exact ⟨_, chronicle.step step⟩
  have chronicle : chronicled (mission.scene.performAll (runnerBeats beats)) :=
    Scene.performAll_preserves preserved sound.chronicle (runnerBeats beats)
  have untroubled : (mission.scene.performAll (runnerBeats beats)).Untroubled := by
    refine sound.untroubled.performAll ?_
    rintro ⟨link, beat⟩ member
    exact timely (link, .runner beat) (mem_runnerBeats member)
  rw [← performAll_scene] at chronicle untroubled
  exact ⟨chronicle, untroubled⟩

theorem Sound.ended {mission : Mission} (sound : mission.Sound) (returned : mission.HasReturned) :
    mission.scene.runner.worker = .ended := by
  have stopped := returned.2
  rw [Runner.hasStopped.eq_def] at stopped
  split at stopped
  next ended => exact ended
  next failed => exact absurd failed sound.untroubled.up
  next => cases stopped

/-- A mission that has returned has no reporter left over. -/
theorem Sound.reporter_eq_none {mission : Mission} (sound : mission.Sound)
    (returned : mission.HasReturned) : mission.scene.runner.reporter = none := by
  rcases sound.chronicle with ⟨chapters, chronicle⟩
  have absent : mission.scene.runner.worker.recordState = .absent := by
    rw [sound.ended returned, Worker.recordState]
  exact (chronicle.closed absent).2.1

/-- A mission that has returned sends nothing any more, on either side. -/
theorem Sound.silent {mission : Mission} (sound : mission.Sound) (returned : mission.HasReturned)
    (after : List (Link × Beat)) :
    (mission.performAll after).sent = mission.sent
      ∧ (mission.performAll after).scene.runner.journal = mission.scene.runner.journal := by
  rcases sound.chronicle with ⟨chapters, chronicle⟩
  have ended := sound.ended returned
  rw [performAll_scene]
  exact ⟨(performAll_of_ended returned.1 after).2, (chronicle.ended_for_good ended _).2⟩

end Mission

namespace Supervisor

/-- A supervisor that has stopped is a mission that has returned. -/
theorem InStep.hasReturned {supervisor : Supervisor} (inStep : supervisor.InStep)
    (stopped : supervisor.hasStopped = true) : supervisor.mission.HasReturned := by
  rw [hasStopped, Bool.and_eq_true] at stopped
  exact ⟨congrArg Mission.vigil (mission_of_eq_none (inStep.stopped stopped.1)), stopped.2⟩

/-- A supervisor that has stopped sends nothing any more, whatever is done with it. -/
theorem InStep.silent {supervisor : Supervisor} (inStep : supervisor.InStep)
    (sound : supervisor.mission.Sound) (stopped : supervisor.hasStopped = true)
    (further : List (Link × Operation)) :
    (supervisor.operateAll further).sent = supervisor.sent
      ∧ (supervisor.operateAll further).runner.journal = supervisor.runner.journal := by
  have onward : Mission.Reaches (fun _ => True) supervisor.mission
      (supervisor.operateAll further).mission :=
    (reaches_operateAll inStep further fun _ _ _ _ => trivial).1
  rcases onward with ⟨beats, _, performed⟩
  have silent := sound.silent (inStep.hasReturned stopped) beats
  rw [performed] at silent
  exact silent

/-- What is done with a supervisor that was asked to stop is what may follow a request. -/
theorem InStep.reaches_behind_stop {supervisor : Supervisor} (inStep : supervisor.InStep)
    (link : Link) (further : List (Link × Operation)) :
    Mission.Reaches (fun _ => True) (supervisor.mission.perform link (.runner .stop))
      ((supervisor.stop link).operateAll further).mission := by
  have stops : Mission.Reaches (fun _ => True) (supervisor.mission.perform link (.runner .stop))
      (supervisor.stop link).mission := reaches_stop (fun _ _ => trivial) link
  exact stops.trans (reaches_operateAll (inStep.stop link) further fun _ _ _ _ => trivial).1

/-- A supervisor that is given timely actions only is a mission that is given such actions only. -/
theorem reaches_of_timely {discovery : Discovery} {limit : Duration}
    {configuration : Configuration} {link : Link} {wallClock : Int} {supervisor : Supervisor}
    (started : start discovery limit configuration link wallClock = .ok supervisor)
    {operations : List (Link × Operation)}
    (timely : ∀ entry ∈ operations, ∀ action, entry.2.offered? = some action →
      action.isTimely = true) :
    Mission.Reaches Mission.Beat.IsTimely (.initial configuration supervisor.clock)
        (supervisor.operateAll operations).mission
      ∧ (supervisor.operateAll operations).InStep := by
  rcases reaches_start Mission.isTimely_holdsQuietly started with ⟨begins, inStep⟩
  have admits : ∀ entry ∈ operations, ∀ beat : Mission.Beat,
      (∀ action, beat.offered? = some action → entry.2.offered? = some action) →
        beat.IsTimely := by
    intro entry member beat offers action asked
    exact timely entry member action (offers action asked)
  rcases reaches_operateAll inStep operations admits with ⟨goes, last⟩
  exact ⟨begins.trans goes, last⟩

/-- Behind a timely action whose calls are answered in time the supervisor stops in time. -/
theorem InStep.stops {supervisor : Supervisor} (inStep : supervisor.InStep) {job : Job}
    {activity : Activity} (busy : supervisor.runner.worker = .busy job activity)
    (timely : job.action.isTimely = true) (nothing : supervisor.runner.intake.pending = none)
    {link : Link} {delay latest target : Nat} (settles : link.Settles job.action delay)
    (estimate : activity.latest delay job.action supervisor.runner.clock
      supervisor.runner.reporter = some latest)
    (elapsed : latest ≤ target) (ahead : supervisor.clock ≤ target) :
    ((supervisor.stop link).runTo link target).hasStopped = true := by
  have stop := inStep.stop link
  rcases Runner.runTo_turns stop.waits link (stop.clock.symm ▸ ahead) with ⟨flows, waits, clock⟩
  let last := (supervisor.stop link).runner.runTo link target
  have onward : Runner.FlowsUnder link supervisor.runner.stop last :=
    (supervisor.runner.stop.settle_turns link).1.trans flows
  have asked : supervisor.runner.stop.Reached :=
    inStep.reached.leads (.single ⟨_, .operate inStep.waits .stop⟩)
  have unclaimed : supervisor.runner.stop.intake.pending = none := nothing
  have unfollowed := Runner.FlowsUnder.leadsUnfollowed settles unclaimed onward
  have ended : last.worker = .ended :=
    unfollowed.ended asked timely busy estimate waits
      (Nat.le_trans elapsed (Nat.le_of_eq clock.symm))
  have stopping : last.stopping = true := onward.stopping_eq
  have present : (supervisor.stop link).clock ≤ target := ahead
  rw [runTo, if_pos present]
  change (last.stopping && last.hasStopped) = true
  rw [stopping, Runner.hasStopped, ended]
  rfl

end Supervisor

namespace Mission

/--
An action that a request to stop comes upon makes the calls and the reports, and its record shows
the results, that they would have been without the request.  In a run in which only timely actions
were offered nothing is sent any more, on either side, when the watch and the worker have come to
their end, whatever happens then.  A supervisor is such a mission, before a request and behind it,
so nothing more is sent once it has stopped, whatever is done with it.
-/
theorem shutdown_is_clean (configuration : Configuration) (clock : Nat)
    (before : List (Link × Beat)) (link : Link) (later : List (Link × Beat)) :
    let asked := (initial configuration clock).performAll before
    let stopped := asked.perform link (.runner .stop)
    let run := stopped.performAll later
    (∀ job activity, asked.scene.runner.worker = .busy job activity →
        stopped.glimpses job later = asked.glimpses job later)
      ∧ ((∀ entry ∈ before ++ later, entry.2.IsTimely) → run.HasReturned →
          run.scene.runner.reporter = none
            ∧ ∀ after, (run.performAll after).sent = run.sent
                ∧ (run.performAll after).scene.runner.journal = run.scene.runner.journal)
      ∧ ∀ discovery limit wallClock supervisor,
          Supervisor.start discovery limit configuration link wallClock = .ok supervisor →
          ∀ operations : List (Link × Supervisor.Operation),
            (∀ entry ∈ operations, ∀ action, entry.2.offered? = some action →
              action.isTimely = true) →
            let managed := supervisor.operateAll operations
            Reaches Beat.IsTimely (initial configuration supervisor.clock) managed.mission
              ∧ (∀ other further, Reaches (fun _ => True)
                  (managed.mission.perform other (.runner .stop))
                  ((managed.stop other).operateAll further).mission)
              ∧ (managed.hasStopped = true → ∀ further,
                  (managed.operateAll further).sent = managed.sent
                    ∧ (managed.operateAll further).runner.journal = managed.runner.journal) := by
  intro asked stopped run
  refine ⟨?_, ?_, ?_⟩
  · intro job activity busy
    have numbered : asked.scene.runner.Numbered := by
      change ((initial configuration clock).performAll before).scene.runner.Numbered
      rw [performAll_scene]
      exact Scene.performAll_preserves (fun _ _ _ _ step numbered => step.numbered numbered)
        (Runner.Numbered.initial clock) (runnerBeats before)
    exact Scene.observe_stop numbered (Or.inl ⟨activity, busy⟩) link [] (runnerBeats later)
  · intro timely returned
    rcases List.forall_mem_append.mp timely with ⟨first, rest⟩
    have timelyStop : ∀ entry ∈ (link, Beat.runner .stop) :: later, entry.2.IsTimely :=
      List.forall_mem_cons.mpr ⟨nofun, rest⟩
    have sound : run.Sound := ((Sound.initial configuration clock).performAll first).performAll
      timelyStop
    exact ⟨sound.reporter_eq_none returned, sound.silent returned⟩
  · intro discovery limit wallClock supervisor started operations timely managed
    rcases Supervisor.reaches_of_timely started timely with ⟨reaches, inStep⟩
    refine ⟨reaches, inStep.reaches_behind_stop, ?_⟩
    intro ended
    rcases reaches with ⟨beats, offered, performed⟩
    have sound : managed.mission.Sound :=
      performed ▸ (Sound.initial configuration supervisor.clock).performAll offered
    exact inStep.silent sound ended

/-! ## A tick and a script, and a stage of one second -/

/-- Safe landing is switched on. -/
def guarding : Configuration :=
  ⟨true, .safeLanding, { LandingPolicy.default with enabled := true }, .default⟩

/-- The vehicle lands, a tick begins, and an action is taken whose script is called. -/
def amidTick : List (Link × Beat) :=
  (.accepting, .feed (.telemetry (.phase .landing))) :: (.accepting, .tick 0)
    :: Scene.beginning.map fun (link, beat) => (link, .runner beat)

/-- The tick goes on to its end, the script is finished, and both sides end. -/
def toTheEnd : List (Link × Beat) :=
  List.replicate 5 (.accepting, .proceed)
    ++ (Scene.ending ++ Scene.onward).map (fun (link, beat) => (link, .runner beat))
    ++ [(.accepting, .leave)]

/-- The mission when it is asked to stop. -/
def askedAmidTick : Mission :=
  (initial guarding 0).performAll amidTick

/-- The same mission behind the request. -/
def stoppedAmidTick : Mission :=
  askedAmidTick.perform Runner.slowLink (.runner .stop)

theorem stoppedAmidTick_hasReturned : (stoppedAmidTick.performAll toTheEnd).HasReturned :=
  ⟨by rfl, by rfl⟩

/-- A supervisor whose autopilot is found at once. -/
def newSupervisor : Supervisor :=
  .begin guarding Runner.slowLink 0 0

/-- A stage is submitted, and the supervisor is asked to stop while it is called. -/
def stopAmidStage : List (Link × Supervisor.Operation) :=
  [.ask (.submit (Runner.singleStage 1.5)), .ask .stop, .wait 3100].map (Runner.slowLink, ·)

theorem stopAmidStage_hasStopped :
    (newSupervisor.operateAll stopAmidStage).hasStopped = true := by
  let amid := newSupervisor.serve Runner.slowLink (·.operate (.submit (Runner.singleStage 1.5)))
  have inStep : newSupervisor.InStep :=
    (Supervisor.reaches_begin (fun _ _ => trivial : ∀ beat : Beat, _ → True) _ _ _ _).2
  have parked : (Runner.initial 0).settle Runner.slowLink =
      (Runner.initial 0).sections Runner.slowLink 1 := Runner.settle_eq_sections rfl
  have called : amid.runner = Runner.amidStage 1.5 := by
    change (((Runner.initial 0).settle Runner.slowLink).operate
      (.submit (Runner.singleStage 1.5))).settle Runner.slowLink = _
    rw [parked]
    exact Runner.settle_eq_sections rfl
  have served : amid.InStep := inStep.serve Runner.slowLink Runner.Operation.noConfusion
  have busy : amid.runner.worker = .busy ⟨0, Runner.singleStage 1.5⟩
      (.calling 0 ⟨.ofCode 16, 1.5⟩ [] (some 1000) (.ok .success)) := by
    rw [called]
    rfl
  have nothing : amid.runner.intake.pending = none := by
    rw [called]
    rfl
  have estimate : (Activity.calling 0 ⟨.ofCode 16, 1.5⟩ [] (some 1000) (.ok .success)).latest 1000
      (Runner.singleStage 1.5) amid.runner.clock amid.runner.reporter = some 3100 := by
    rw [called]
    decide
  exact served.stops busy (by decide) nothing (Scene.slowLink_settles 1.5) estimate
    (Nat.le_refl 3100) (Nat.zero_le 3100)

/-- Where all actions that are offered pass a check, each of them does. -/
theorem isTimely_of_all {Entry : Type} {entries : List Entry}
    {offered? : Entry → Option CustomAction}
    (checked : entries.all (fun entry => (offered? entry).all CustomAction.isTimely) = true) :
    ∀ entry ∈ entries, ∀ action, offered? entry = some action → action.isTimely = true := by
  intro entry member action offered
  have timely := List.all_eq_true.mp checked entry member
  rw [offered] at timely
  exact timely

/--
A request amid a tick and a script makes no difference to the script, lets the signals of the tick
out, and nothing is sent when both are over.  A supervisor that is asked to stop during a stage of
one second sends nothing after three seconds and a bit.
-/
theorem tick_and_script_are_finished :
    stoppedAmidTick.glimpses ⟨0, Scene.scripted 7⟩ toTheEnd =
        askedAmidTick.glimpses ⟨0, Scene.scripted 7⟩ toTheEnd
      ∧ askedAmidTick.sent = []
      ∧ (stoppedAmidTick.performAll toTheEnd).sent.map (·.2.signal) =
          [.message .warning "Unknown landing state. Holding...", .command .hold]
      ∧ (∀ after, ((stoppedAmidTick.performAll toTheEnd).performAll after).sent =
          (stoppedAmidTick.performAll toTheEnd).sent)
      ∧ ∀ further, ((newSupervisor.operateAll stopAmidStage).operateAll further).sent =
          (newSupervisor.operateAll stopAmidStage).sent := by
  rcases shutdown_is_clean guarding 0 amidTick Runner.slowLink toTheEnd with
    ⟨same, returns, supervised⟩
  refine ⟨same ⟨0, Scene.scripted 7⟩ _ rfl, by rfl, by rfl, ?_, ?_⟩
  · have timely : ∀ entry ∈ amidTick ++ toTheEnd, entry.2.IsTimely := isTimely_of_all (by rfl)
    rcases returns timely stoppedAmidTick_hasReturned with ⟨_, silent⟩
    exact fun after => (silent after).1
  · have found : (⟨some 0, none⟩ : Discovery).outcome Discovery.defaultLimit = .ok 0 := by decide
    have started : Supervisor.start ⟨some 0, none⟩ Discovery.defaultLimit guarding
        Runner.slowLink 0 = .ok newSupervisor := by
      rw [Supervisor.start, found]
      rfl
    have timely : ∀ entry ∈ stopAmidStage, ∀ action, entry.2.offered? = some action →
        action.isTimely = true := isTimely_of_all (by rfl)
    rcases supervised _ _ _ _ started stopAmidStage timely with ⟨_, _, silent⟩
    exact fun further => (silent stopAmidStage_hasStopped further).1

end Mission

end FlightGuard
