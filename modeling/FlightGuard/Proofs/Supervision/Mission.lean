import FlightGuard.Proofs.Runner.TurnsAsBeats
import FlightGuard.Protection.Watch

/-!
# The watch beside the runner

A tick of the watch takes its time: it reads the configuration, then the telemetry, then what was
perceived, and it sends its signals one by one.  Here a tick is taken apart at these points, and
the beats of the runner, of its clients and of the feeds may come in between.  The watch looks at
the request to stop only between two ticks, and there it may still prefer a tick that is due.

Watch and runner share the request and nothing else, so each of them has its own clock.
-/

namespace FlightGuard

/-- What the runner does itself offers nothing. -/
theorem Scene.Beat.offered?_of_isOwn {beat : Scene.Beat} (own : beat.isOwn = true) :
    beat.offered? = none := by
  cases beat with
  | work | leave | judgeLate | read | send | cease | pass _ => rfl
  | offer | request | announce | cancel | stop => cases own

/-- Where the watch stands in its tick. -/
inductive Vigil where
  /-- Waits for the next tick or for the request to stop. -/
  | resting
  /-- About to read the telemetry. -/
  | configured (configuration : Configuration) (now : Int)
  /-- About to read what was perceived, and to decide. -/
  | briefed (configuration : Configuration) (telemetry : Telemetry) (now : Int)
  /-- About to send the first of the remaining signals. -/
  | sending (signals : List Signal)
  /-- Has stopped on request. -/
  | ended

/-- The runner among its clients, the watch, and what the watch has sent, the latest first. -/
structure Mission where
  scene : Scene
  watch : Watch
  vigil : Vigil
  sent : List (Nat × Transmission)

namespace Mission

/-- One thing that happens and that nothing interrupts. -/
inductive Beat where
  | runner (beat : Scene.Beat)
  | feed (news : Feed)
  /-- A tick is due, and its configuration is read. -/
  | tick (now : Int)
  /-- The watch goes on with its tick. -/
  | proceed
  /-- The watch, between two ticks, notices the request to stop. -/
  | leave

/-- The action that a beat offers, if it offers one. -/
def Beat.offered? : Beat → Option CustomAction
  | .runner beat => beat.offered?
  | .feed _ | .tick _ | .proceed | .leave => none

/-- Something holds of every beat that offers no action. -/
def HoldsQuietly (property : Beat → Prop) : Prop :=
  ∀ beat : Beat, beat.offered? = none → property beat

/-- A watch at its beginning beside a new runner. -/
def initial (configuration : Configuration) (clock : Nat) : Mission :=
  ⟨.initial clock, .initial configuration, .resting, []⟩

/-- Begins a tick at an instant of the wall clock. -/
def tick (mission : Mission) (now : Int) : Mission :=
  match mission.vigil with
  | .resting =>
      { mission with vigil := .configured mission.watch.feeds.configuration now }
  | _ => mission

/-- Goes on with a tick. -/
def proceed (mission : Mission) (link : Link) : Mission :=
  match mission.vigil with
  | .configured configuration now =>
      { mission with vigil := .briefed configuration mission.watch.feeds.telemetry now }
  | .briefed configuration telemetry now =>
      let situation := { mission.watch.feeds.situation with configuration, telemetry }
      let (sentinel, signals) := mission.watch.sentinel.tick situation now
      { mission with watch := { mission.watch with sentinel }, vigil := .sending signals }
  | .sending (signal :: signals) =>
      { mission with
          vigil := .sending signals
          sent := (mission.watch.feeds.clock / 1000, ⟨signal, link.signal signal⟩)
            :: mission.sent }
  | .sending [] => { mission with vigil := .resting }
  | .resting | .ended => mission

/-- Ends the watch on request. -/
def leave (mission : Mission) : Mission :=
  match mission.vigil with
  | .resting =>
      if mission.scene.runner.stopping then { mission with vigil := .ended } else mission
  | _ => mission

/-- Performs a beat; what is not possible changes nothing. -/
def perform (mission : Mission) (link : Link) : Beat → Mission
  | .runner beat => { mission with scene := mission.scene.perform link beat }
  | .feed news => { mission with watch := mission.watch.update news }
  | .tick now => mission.tick now
  | .proceed => mission.proceed link
  | .leave => mission.leave

/-- Performs beats one after another, each under the link as it answers at that time. -/
def performAll (mission : Mission) : List (Link × Beat) → Mission
  | [] => mission
  | (link, beat) :: beats => (mission.perform link beat).performAll beats

/-! ## The runner in a mission -/

/-- The beats of the runner, of its reporter and of its clients. -/
def runnerBeats (beats : List (Link × Beat)) : List (Link × Scene.Beat) :=
  beats.filterMap fun (link, beat) =>
    match beat with
    | .runner beat => some (link, beat)
    | .feed _ | .tick _ | .proceed | .leave => none

theorem mem_runnerBeats {beats : List (Link × Beat)} {link : Link} {beat : Scene.Beat}
    (member : (link, beat) ∈ runnerBeats beats) : (link, Beat.runner beat) ∈ beats := by
  rcases List.mem_filterMap.mp member with ⟨⟨other, origin⟩, present, same⟩
  cases origin with
  | runner _ =>
      cases same
      exact present
  | feed _ | tick _ | proceed | leave => cases same

theorem tick_scene (mission : Mission) (now : Int) : (mission.tick now).scene = mission.scene := by
  rw [tick]
  split <;> rfl

theorem proceed_scene (mission : Mission) (link : Link) :
    (mission.proceed link).scene = mission.scene := by
  rw [proceed.eq_def]
  split <;> rfl

theorem leave_scene (mission : Mission) : mission.leave.scene = mission.scene := by
  rw [leave]
  split
  next => split <;> rfl
  next => rfl

/-- On request the watch has ended behind a beat in which it is not within a tick. -/
theorem leave_eq {mission : Mission} (between : mission.vigil = .resting ∨ mission.vigil = .ended)
    (stopping : mission.scene.runner.stopping = true) :
    mission.leave = { mission with vigil := .ended } := by
  rcases between with resting | ended
  · rw [leave, resting, stopping]
    rfl
  · rcases mission with ⟨scene, watch, vigil, sent⟩
    obtain rfl : vigil = .ended := ended
    rfl

/-- The watch does not touch the runner. -/
theorem performAll_scene (mission : Mission) (beats : List (Link × Beat)) :
    (mission.performAll beats).scene = mission.scene.performAll (runnerBeats beats) := by
  induction beats generalizing mission with
  | nil => rfl
  | cons head beats induction =>
      rcases head with ⟨link, beat⟩
      rw [performAll, induction]
      cases beat with
      | runner beat => rfl
      | feed news => rfl
      | tick now => exact congrArg (Scene.performAll · _) (mission.tick_scene now)
      | proceed => exact congrArg (Scene.performAll · _) (mission.proceed_scene link)
      | leave => exact congrArg (Scene.performAll · _) mission.leave_scene

/-! ## A watch that has ended -/

theorem perform_of_ended {mission : Mission} (ended : mission.vigil = .ended) (link : Link)
    (beat : Beat) :
    (mission.perform link beat).vigil = .ended
      ∧ (mission.perform link beat).sent = mission.sent := by
  cases beat with
  | runner _ | feed _ => exact ⟨ended, rfl⟩
  | tick now =>
      rw [perform, tick, ended]
      exact ⟨ended, rfl⟩
  | proceed =>
      rw [perform, proceed, ended]
      exact ⟨ended, rfl⟩
  | leave =>
      rw [perform, leave, ended]
      exact ⟨ended, rfl⟩

/-- A watch that has ended stays so and sends nothing. -/
theorem performAll_of_ended {mission : Mission} (ended : mission.vigil = .ended)
    (beats : List (Link × Beat)) :
    (mission.performAll beats).vigil = .ended
      ∧ (mission.performAll beats).sent = mission.sent := by
  induction beats generalizing mission with
  | nil => exact ⟨ended, rfl⟩
  | cons head beats induction =>
      rcases perform_of_ended ended head.1 head.2 with ⟨still, silent⟩
      rcases induction still with ⟨ends, same⟩
      exact ⟨ends, same.trans silent⟩

/-! ## Beats that lead somewhere -/

/-- Some beats, all with a property, lead from one mission to another. -/
def Reaches (property : Beat → Prop) (mission next : Mission) : Prop :=
  ∃ beats : List (Link × Beat), (∀ entry ∈ beats, property entry.2)
    ∧ mission.performAll beats = next

namespace Reaches

variable {property : Beat → Prop} {mission next last : Mission}

theorem refl (mission : Mission) : Reaches property mission mission :=
  ⟨[], List.forall_mem_nil _, rfl⟩

theorem head (link : Link) (beat : Beat) (holds : property beat)
    (reaches : Reaches property (mission.perform link beat) last) :
    Reaches property mission last := by
  rcases reaches with ⟨beats, all, reached⟩
  exact ⟨(link, beat) :: beats, List.forall_mem_cons.mpr ⟨holds, all⟩, reached⟩

theorem trans (first : Reaches property mission next) (second : Reaches property next last) :
    Reaches property mission last := by
  rcases first with ⟨beats, all, reached⟩
  induction beats generalizing mission with
  | nil =>
      obtain rfl : mission = next := reached
      exact second
  | cons head beats induction =>
      rcases List.forall_mem_cons.mp all with ⟨holds, rest⟩
      exact .head head.1 head.2 holds (induction rest reached)

/-- What the runner does in a scene it does in a mission. -/
theorem runner {scene : Scene}
    (reaches : Scene.Reaches (fun _ _ beat => property (.runner beat)) mission.scene scene) :
    Reaches property mission { mission with scene } := by
  rcases reaches with ⟨beats, along, reached⟩
  induction beats generalizing mission with
  | nil =>
      obtain rfl : mission.scene = scene := reached
      exact .refl _
  | cons head beats induction =>
      have rest : Reaches property (mission.perform head.1 (.runner head.2))
          { mission with scene } := induction along.2 reached
      exact .head head.1 (.runner head.2) along.1 rest

end Reaches

variable {property : Beat → Prop} {mission : Mission}

/-- The clock of the feeds may go on to any later instant. -/
theorem reaches_of_time (quiet : HoldsQuietly property) {instant : Nat}
    (early : mission.watch.feeds.clock ≤ instant) :
    Reaches property mission
      { mission with
          watch := { mission.watch with
            feeds := { mission.watch.feeds with clock := instant } } } := by
  let elapsed := instant - mission.watch.feeds.clock
  refine .head .accepting (.feed (.time elapsed)) (quiet (.feed (.time elapsed)) rfl) ?_
  change Reaches property (Mission.mk _ ⟨{ mission.watch.feeds with
    clock := mission.watch.feeds.clock + elapsed }, _⟩ _ _) _
  rw [Nat.add_sub_cancel' early]
  exact .refl _

/-- What the runner does on its own it may do in a mission. -/
theorem HoldsQuietly.reaches_of_flows (quiet : HoldsQuietly property) {link : Link}
    {runner next : Runner} (flows : Runner.FlowsUnder link runner next) :
    Scene.Reaches (fun _ _ beat => property (.runner beat)) (.still runner) (.still next) :=
  flows.reaches fun _ beat own => quiet (.runner beat) (Scene.Beat.offered?_of_isOwn own)

/-- Signals are sent one after another. -/
theorem reaches_of_sending (quiet : HoldsQuietly property) (link : Link) {signals : List Signal}
    (sending : mission.vigil = .sending signals) :
    Reaches property mission
      { mission with
          vigil := .resting
          sent := ((link.transmit signals).map (mission.watch.feeds.clock / 1000, ·)).reverse
            ++ mission.sent } := by
  induction signals generalizing mission with
  | nil =>
      refine .head link .proceed (quiet .proceed rfl) ?_
      rw [perform, proceed, sending]
      exact .refl _
  | cons signal signals induction =>
      let next : Mission := { mission with
        vigil := .sending signals
        sent := (mission.watch.feeds.clock / 1000, ⟨signal, link.signal signal⟩) :: mission.sent }
      have rest := @induction next rfl
      have sends : mission.perform link .proceed = next := by
        rw [perform, proceed, sending]
      refine .head link .proceed (quiet .proceed rfl) ?_
      rw [Link.transmit, List.map_cons, List.map_cons, List.reverse_cons, List.append_assoc, sends]
      exact rest

/-- A tick in which nothing comes in between is a tick of the watch. -/
theorem reaches_of_tick (quiet : HoldsQuietly property) (link : Link) (now : Int)
    (resting : mission.vigil = .resting) :
    Reaches property mission
      { mission with
          watch := (mission.watch.tick link now).1
          sent := ((mission.watch.tick link now).2.map
            (mission.watch.feeds.clock / 1000, ·)).reverse ++ mission.sent } := by
  let situation := mission.watch.feeds.situation
  let decided := mission.watch.sentinel.tick situation now
  let deciding : Mission := { mission with
    watch := { mission.watch with sentinel := decided.1 }
    vigil := .sending decided.2 }
  have begins : ((mission.perform link (.tick now)).perform link .proceed).perform link .proceed =
      deciding := by
    rw [perform, perform, perform, tick, resting]
    rfl
  have proceeds := quiet .proceed rfl
  refine .head link (.tick now) (quiet (.tick now) rfl) (.head link .proceed proceeds ?_)
  refine .head link .proceed proceeds ?_
  rw [begins]
  have sends := reaches_of_sending quiet link (rfl : deciding.vigil = .sending decided.2)
  rw [← resting] at sends
  exact sends

end Mission

end FlightGuard
