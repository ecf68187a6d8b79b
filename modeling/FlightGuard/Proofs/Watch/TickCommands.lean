import FlightGuard.Proofs.Watch.Ticks

/-!
# The flight commands of one tick

A tick sends the one command of its reaction if it fires and none otherwise.  Behind it there is
room for one landing, which only follows where the vehicle is at the active target of a guarded
landing that is to be tried again.

A reposition to the place where the vehicle already is makes that place the active target, so both
commands may go out on the same tick.
-/

namespace FlightGuard

namespace Sentinel

/-- Only a reaction to the landing site sends the vehicle somewhere. -/
theorem guardsLanding_of_goTo {situation : Situation} {waypoints : WaypointMemory}
    {response : Response} {position : GlobalPosition} {heading : Float}
    (called : danger situation waypoints = some response)
    (moves : response.command = .goTo position heading) :
    situation.GuardsLanding ∧ situation.telemetry.phase = .landing := by
  rcases danger_cases called with
    ⟨guards, landing, _, _⟩ | ⟨guards, landing, _, _⟩ | ⟨_, _, _, rfl⟩
  · exact ⟨guards, landing⟩
  · exact ⟨guards, landing⟩
  · rw [avoidanceResponse] at moves
    split at moves <;> cases moves

end Sentinel

namespace Tick

/-- A tick that sends the vehicle somewhere does so by its reaction. -/
theorem response_of_goTo {tick : Tick} {position : GlobalPosition} {heading : Float}
    (moves : .goTo position heading ∈ tick.commands) :
    ∃ response, tick.response? = some response ∧ response.command = .goTo position heading := by
  have reaction : .goTo position heading ∈ tick.reaction := by
    rw [tick.commands_eq, List.mem_append] at moves
    rcases moves with reaction | arrival
    · exact reaction
    · rcases tick.arrival_cases with none | landing
      · simp [none] at arrival
      · simp [landing] at arrival
  rw [Tick.reaction, Option.mem_toList, Option.map_eq_some_iff] at reaction
  exact reaction

/-- After a reposition the landing follows at once if the vehicle is there already. -/
theorem retriesLanding_iff_of_goTo {tick : Tick} {position : GlobalPosition} {heading : Float}
    (moves : .goTo position heading ∈ tick.commands) :
    tick.RetriesLanding ↔
      position.isNear tick.situation.telemetry.position = true
        ∧ tick.situation.configuration.landing.retryLanding = true := by
  rcases response_of_goTo moves with ⟨response, called, command⟩
  rcases Sentinel.guardsLanding_of_goTo (danger_of_response called) command with
    ⟨guards, landing⟩
  have target : tick.target? = some position := by
    rw [tick.target_eq, tick.reacted_target, reaction, called]
    simp [command, FlightCommand.destination?]
  rw [RetriesLanding, target, landing]
  simp [guards]

theorem land_mem_iff_of_goTo {tick : Tick} {position : GlobalPosition} {heading : Float}
    (moves : .goTo position heading ∈ tick.commands) :
    .land ∈ tick.commands ↔ tick.RetriesLanding := by
  rcases response_of_goTo moves with ⟨response, called, command⟩
  have reaction : tick.reaction = [.goTo position heading] := by
    rw [Tick.reaction, called, Option.map_some, command]
    rfl
  rw [← tick.arrival_eq_land_iff, tick.commands_eq, reaction]
  rcases tick.arrival_cases with none | landing
  · simp [none]
  · simp [landing]

/--
A tick sends the command of its reaction if it fires, and no other command but the landing of an
arrival.  Without a reaction the landing is sent exactly if it is to be tried again, and so it is
behind a reposition, for which that means that the vehicle is already there.
-/
theorem commands_of_tick (tick : Tick) :
    (∃ reaction arrival, tick.commands = reaction ++ arrival
        ∧ reaction.length = (if tick.fires then 1 else 0)
        ∧ (arrival = [] ∨ (arrival = [.land] ∧ tick.RetriesLanding)))
      ∧ (¬ tick.RetriesLanding → tick.commands.length = if tick.fires then 1 else 0)
      ∧ (tick.fires = false → tick.RetriesLanding → tick.commands = [.land])
      ∧ ∀ position heading, .goTo position heading ∈ tick.commands →
          (.land ∈ tick.commands ↔
            position.isNear tick.situation.telemetry.position = true
              ∧ tick.situation.configuration.landing.retryLanding = true) := by
  refine ⟨⟨tick.reaction, tick.arrival, tick.commands_eq, tick.reaction_length, ?_⟩, ?_, ?_, ?_⟩
  · rcases tick.arrival_cases with none | landing
    · exact Or.inl none
    · exact Or.inr ⟨landing, tick.arrival_eq_land_iff.mp landing⟩
  · intro settled
    have silent : tick.arrival = [] :=
      tick.arrival_cases.resolve_right (settled ∘ tick.arrival_eq_land_iff.mp)
    rw [tick.commands_eq, silent, List.append_nil]
    exact tick.reaction_length
  · intro quiet retries
    have silent : tick.reaction = [] := by
      rw [← List.length_eq_zero_iff, tick.reaction_length, quiet]
      rfl
    rw [tick.commands_eq, silent, List.nil_append]
    exact tick.arrival_eq_land_iff.mpr retries
  · intro position heading moves
    rw [land_mem_iff_of_goTo moves]
    exact retriesLanding_iff_of_goTo moves

end Tick

namespace Watch

/-- A landing that is to be moved to the very place where the vehicle is. -/
def landingAtWaypoint : List (Link × Event) :=
  let place : GlobalPosition := ⟨47, 8, 500⟩
  let guarded : Configuration :=
    { Configuration.default with
        enabled := true
        mode := .safeLanding
        landing := ⟨true, .goToWaypoint, true, place, .zero⟩ }
  [.feed (.configuration guarded), .feed (.telemetry (.position place)),
   .feed (.telemetry (.phase .landing)), .feed (.landing .cannotLand), .tick 0].map
    fun event => (.accepting, event)

/-- Two commands can leave on one tick, and the second one lands the vehicle that was moved. -/
theorem reposition_and_landing_share_tick :
    ¬ ∀ (configuration : Configuration) (events : List (Link × Event)),
      ∀ tick ∈ (initial configuration).ticks events,
        tick.commands.length ≤ 1
          ∧ (tick.fires = true → tick.commands.length = 1)
          ∧ ((∃ command ∈ tick.commands, command.destination?.isSome = true) →
              .land ∉ tick.commands) := by
  intro claim
  have single := (claim .default landingAtWaypoint _ (List.mem_cons_self ..)).1
  exact absurd single (by decide)

end Watch

end FlightGuard
