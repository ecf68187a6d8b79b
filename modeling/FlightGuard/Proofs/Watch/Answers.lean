import FlightGuard.Proofs.Watch.LandingRetries

/-!
# The answers to what is sent

A link may refuse any call of a run, each for a reason of its own.  No refusal makes a difference to
what is sent afterwards or to what is remembered: a run is what it would be over a link on which
all goes well (`run_accepting`).

The links of a run can give any answers whatever.  A tick sends no signal twice, so that an answer
to each signal is an answer to each call.
-/

namespace FlightGuard

theorem signals_transmit (link : Link) (signals : List Signal) :
    (link.transmit signals).map Transmission.signal = signals := by
  rw [Link.transmit, List.map_map]
  exact List.map_id signals

/-- Signals that differ from one another can be answered one by one. -/
theorem exists_transmit_eq {signals : List Signal} (distinct : signals.Nodup)
    {answers : List (Option LinkError)} (enough : answers.length = signals.length) :
    ∃ link : Link, link.transmit signals = signals.zipWith Transmission.mk answers := by
  induction signals generalizing answers with
  | nil => exact ⟨.accepting, rfl⟩
  | cons signal signals induction =>
      obtain ⟨new, distinct⟩ := List.nodup_cons.mp distinct
      obtain ⟨answer, answers, rfl⟩ := List.exists_cons_of_length_eq_add_one enough
      obtain ⟨link, answered⟩ := induction distinct (Nat.succ.inj enough)
      refine ⟨{ link with signal := fun other =>
        if other = signal then answer else link.signal other }, ?_⟩
      rw [List.zipWith_cons_cons, ← answered, Link.transmit, Link.transmit, List.map_cons]
      congr 1
      · simp only [if_true]
      · apply List.map_congr_left
        intro other member
        have older : other ≠ signal := fun same => new (same ▸ member)
        simp only [if_neg older]

/-! ## One tick -/

namespace Sentinel

theorem Response.signals_nodup (response : Response) : response.signals.Nodup := by
  rw [Response.signals]
  cases response.message with
  | none => simp
  | some message => simp

end Sentinel

namespace Tick

/-- No signal of a tick is like another one of it. -/
theorem signals_nodup (tick : Tick) : tick.signals.Nodup := by
  rw [signals_eq, arrive_signals]
  cases answer : tick.response? with
  | none =>
      rw [react_of_no_response answer]
      rcases tick.arrival_cases with none | landing
      · simp [none]
      · simp [landing]
  | some response =>
      rw [react_of_response answer]
      rcases tick.arrival_cases with none | landing
      · simpa [none] using response.signals_nodup
      · -- A landing behind a reaction is no second one.
        have other : response.command ≠ .land := by
          intro lands
          have guards := (tick.arrival_eq_land_iff.mp landing).1
          apply land_not_mem_reaction guards.2.1
          rw [reaction, answer, Option.map_some, lands]
          exact List.mem_singleton_self _
        have new : Signal.command .land ∉ response.signals := by
          intro member
          have sent : FlightCommand.land ∈ response.signals.filterMap Signal.command? :=
            List.mem_filterMap.mpr ⟨_, member, rfl⟩
          rw [response.signals_commands, List.mem_singleton] at sent
          exact other sent.symm
        rw [landing, List.map_singleton, ← List.concat_eq_append]
        exact response.signals_nodup.concat new

end Tick

/-! ## Runs -/

namespace Watch

theorem step_accepting (watch : Watch) (link : Link) (event : Event) :
    (watch.step .accepting event).1 = (watch.step link event).1
      ∧ (watch.step .accepting event).2.map Transmission.signal =
          (watch.step link event).2.map Transmission.signal := by
  cases event with
  | feed news => exact ⟨rfl, rfl⟩
  | tick now =>
      refine ⟨rfl, ?_⟩
      exact (signals_transmit _ _).trans (signals_transmit _ _).symm

/-- A run sends and remembers what it would over a link on which all goes well. -/
theorem run_accepting (watch : Watch) (events : List (Link × Event)) :
    (watch.run (events.map fun event => (.accepting, event.2))).1 = (watch.run events).1
      ∧ (watch.run (events.map fun event => (.accepting, event.2))).2.map Transmission.signal =
          (watch.run events).2.map Transmission.signal := by
  induction events generalizing watch with
  | nil => exact ⟨rfl, rfl⟩
  | cons first events induction =>
      rcases first with ⟨link, event⟩
      obtain ⟨next, sent⟩ := watch.step_accepting link event
      obtain ⟨last, later⟩ := induction (watch.step link event).1
      simp only [List.map_cons, run, next, List.map_append]
      exact ⟨last, by rw [sent, later]⟩

/-- The calls of a run can be answered in any way whatever. -/
theorem exists_run_eq (watch : Watch) (events : List (Link × Event))
    {answers : List (Option LinkError)}
    (enough : answers.length = (watch.run events).2.length) :
    ∃ answered : List (Link × Event), answered.map Prod.snd = events.map Prod.snd
      ∧ (watch.run answered).2 =
          ((watch.run events).2.map Transmission.signal).zipWith Transmission.mk answers := by
  induction events generalizing watch answers with
  | nil =>
      obtain rfl := List.length_eq_zero_iff.mp enough
      exact ⟨[], rfl, rfl⟩
  | cons first events induction =>
      rcases first with ⟨link, news | now⟩
      · obtain ⟨answered, same, sent⟩ := induction (watch.update news) enough
        exact ⟨(link, .feed news) :: answered, congrArg (List.cons _) same, sent⟩
      · let tick := watch.tickAt link now
        have calls : (watch.tick link now).2.map Transmission.signal = tick.signals :=
          signals_transmit link tick.signals
        -- The first answers are for the calls of this tick, and the others for the rest of the run.
        rw [run_tick, List.length_append, ← List.length_map Transmission.signal, calls] at enough
        obtain ⟨front, back, rfl, here⟩ : ∃ front back,
            answers = front ++ back ∧ front.length = tick.signals.length :=
          ⟨_, _, (List.take_append_drop tick.signals.length answers).symm,
            List.length_take_of_le (by omega)⟩
        have rest : back.length = ((watch.tick link now).1.run events).2.length := by
          rw [List.length_append] at enough
          omega
        obtain ⟨answering, first⟩ := exists_transmit_eq tick.signals_nodup here
        obtain ⟨answered, same, later⟩ := induction (watch.tick link now).1 rest
        refine ⟨(answering, .tick now) :: answered, congrArg (List.cons _) same, ?_⟩
        rw [run_tick, run_tick, List.map_append, calls, List.zipWith_append here.symm]
        exact congrArg₂ (· ++ ·) first later

/--
Two runs with the same news and ticks send the same signals in the same order and remember the same
after each of their steps, whatever their links answer to each signal.  The answers can be any.
-/
theorem answers_never_steer (watch : Watch) (events : List (Link × Event)) :
    (∀ other : List (Link × Event), other.map Prod.snd = events.map Prod.snd →
        ∀ steps,
          let one := watch.run (events.take steps)
          let second := watch.run (other.take steps)
          second.2.map Transmission.signal = one.2.map Transmission.signal
            ∧ second.1 = one.1)
      ∧ ∀ answers : List (Option LinkError),
          answers.length = (watch.run events).2.length →
          ∃ other : List (Link × Event), other.map Prod.snd = events.map Prod.snd
            ∧ (watch.run other).2 =
                ((watch.run events).2.map Transmission.signal).zipWith Transmission.mk answers := by
  refine ⟨?_, fun answers enough => exists_run_eq watch events enough⟩
  intro other same steps one second
  have accepted (run : List (Link × Event)) :
      (run.take steps).map (fun event => (Link.accepting, event.2)) =
        ((run.map Prod.snd).take steps).map fun event => (Link.accepting, event) := by
    rw [← List.map_take, List.map_map]
    rfl
  obtain ⟨one_left, one_sent⟩ := watch.run_accepting (events.take steps)
  obtain ⟨second_left, second_sent⟩ := watch.run_accepting (other.take steps)
  rw [accepted] at one_left one_sent
  rw [accepted, same] at second_left second_sent
  exact ⟨second_sent.symm.trans one_sent, second_left.symm.trans one_left⟩

/-- A landing that is moved to a waypoint and tried again there. -/
def retriedLanding : List Event :=
  let waypoint : GlobalPosition := ⟨47, 8, 520⟩
  [.feed (.configuration
      { Configuration.default with
          enabled := true
          mode := .safeLanding
          landing := ⟨true, .goToWaypoint, true, waypoint, .zero⟩ }),
   .feed (.telemetry (.phase .landing)), .feed (.landing .cannotLand), .tick 0,
   .feed (.telemetry (.position waypoint)), .tick 50000, .tick 5000000]

/-- The reposition times out and the landing is rejected, and the next reaction is the same. -/
theorem signals_of_refused_retriedLanding :
    let refusing : Link :=
      { Link.accepting with
          signal := fun signal =>
            match signal with
            | .command (.goTo _ _) => some .timeout
            | .command _ => some .rejected
            | .message _ _ => some .noConnection }
    let accepted := (initial .default).run (retriedLanding.map fun event => (.accepting, event))
    let refused := (initial .default).run (retriedLanding.map fun event => (refusing, event))
    refused.2.map Transmission.answer =
        [some .timeout, some .noConnection, some .rejected, some .rejected, some .noConnection]
      ∧ accepted.2.map Transmission.answer = List.replicate 5 none
      ∧ refused.2.map Transmission.signal = accepted.2.map Transmission.signal
      ∧ refused.1 = accepted.1 := by
  intro refusing accepted refused
  exact ⟨by decide, by decide,
    ((initial .default).answers_never_steer
      (retriedLanding.map fun event => (.accepting, event))).1
      (retriedLanding.map fun event => (refusing, event)) (by decide) 7⟩

end Watch

end FlightGuard
