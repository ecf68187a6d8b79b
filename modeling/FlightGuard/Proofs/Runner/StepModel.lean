import FlightGuard.Proofs.Runner.Cancellation
import FlightGuard.Proofs.Runner.Course
import FlightGuard.Proofs.Runner.Orders
import FlightGuard.Proofs.Runner.Waiting
import Mathlib.Logic.Relation

/-!
# The runner in step with its clock

Here the parts of the runner take turns.  A section is performed wherever one is possible, clients
come in only while every part waits, and time passes no further than to the next instant that a
part waits for.  All that the clock of the runner does, and every client between, is made of such
turns.
-/

namespace FlightGuard.Runner

/-- What a client asks of the runner. -/
inductive Operation where
  | submit (action : CustomAction)
  | request (file : StoredFile) (path : String) (id : UInt32)
  | cancel (raised : Bool)
  | stop

/-- The runner behind an intake, which a rejection leaves as it is. -/
def afterIntake (runner : Runner) : Except Rejection (Nat × Runner) → Runner
  | .ok (_, next) => next
  | .error _ => runner

/-- Does what a client asks for. -/
def operate (runner : Runner) : Operation → Runner
  | .submit action => runner.afterIntake (runner.submit action)
  | .request file path id => runner.afterIntake (runner.request file path id)
  | .cancel raised => runner.cancel raised
  | .stop => runner.stop

/-- What a turn is about. -/
inductive Event where
  | act
  | operate (operation : Operation)
  | pass

/-- One turn. -/
inductive Turn (runner : Runner) : Event → Runner → Prop where
  | act (link : Link) {next : Runner} (performed : runner.nextSection link = some next) :
      Turn runner .act next
  | operate (waits : runner.IsWaiting) (operation : Operation) :
      Turn runner (.operate operation) (runner.operate operation)
  | pass (waits : runner.IsWaiting) {instant : Nat} (forward : runner.clock ≤ instant)
      (inTime : ∀ due, runner.due? = some due → instant ≤ due) :
      Turn runner .pass { runner with clock := instant }

/-- Some turns lead from one runner to another. -/
def Leads : Runner → Runner → Prop :=
  Relation.ReflTransGen fun runner next => ∃ event, Turn runner event next

/-- Turns in which no client comes in lead from one runner to another. -/
def Flows : Runner → Runner → Prop :=
  Relation.ReflTransGen fun runner next => Turn runner .act next ∨ Turn runner .pass next

/-- The same, with one link that answers in all of them. -/
def FlowsUnder (link : Link) : Runner → Runner → Prop :=
  Relation.ReflTransGen fun runner next =>
    runner.nextSection link = some next ∨ Turn runner .pass next

/-- Some turns lead from a new runner to this one. -/
def Reached (runner : Runner) : Prop :=
  ∃ clock, Leads (initial clock) runner

/-- Performs a number of sections, or fewer where every part waits before. -/
def sections (runner : Runner) (link : Link) : Nat → Runner
  | 0 => runner
  | count + 1 =>
      match runner.nextSection link with
      | some next => next.sections link count
      | none => runner

/-! ## Turns are moves -/

/-- A submission is an offer, with a wake-up behind it if the action is accepted. -/
theorem afterIntake_submit (runner : Runner) (action : CustomAction) :
    ∃ moves, runner.afterIntake (runner.submit action) = runner.performAll moves := by
  rcases runner.offer_cases action with ⟨rejection, rejected⟩ | accepted
  · refine ⟨[], ?_⟩
    rw [submit, rejected]
    rfl
  · refine ⟨[(.accepting, .offer action), (.accepting, .wake)], ?_⟩
    rw [submit, accepted, performAll, performAll, performAll, perform, perform, accepted]
    rfl

theorem operate_moves (runner : Runner) (operation : Operation) :
    ∃ moves, runner.operate operation = runner.performAll moves := by
  cases operation with
  | submit action => exact runner.afterIntake_submit action
  | request file path id =>
      rw [operate, request]
      cases Catalog.lookUp file path id with
      | ok action => exact runner.afterIntake_submit action
      | error rejection => exact ⟨[], rfl⟩
  | cancel raised => exact ⟨[(.accepting, .cancel raised)], rfl⟩
  | stop => exact ⟨[(.accepting, .stop)], rfl⟩

theorem Turn.moves {runner next : Runner} {event : Event} (turn : Turn runner event next) :
    ∃ moves, next = runner.performAll moves := by
  cases turn with
  | act link performed =>
      rcases Option.or_eq_some_iff.mp performed with byWorker | ⟨_, byReporter⟩
      · refine ⟨[(link, .worker)], ?_⟩
        rw [performAll, performAll, perform, byWorker]
        rfl
      · refine ⟨[(link, .reporter)], ?_⟩
        rw [performAll, performAll, perform, byReporter]
        rfl
  | operate waits operation => exact runner.operate_moves operation
  | pass waits forward inTime =>
      rename_i instant
      refine ⟨[(.accepting, .pass (instant - runner.clock))], ?_⟩
      rw [performAll, performAll, perform, Nat.add_sub_cancel' forward]

/-- A submission is rejected, or the action is pending and the worker woken. -/
theorem afterIntake_submit_cases (runner : Runner) (action : CustomAction) :
    runner.afterIntake (runner.submit action) = runner
      ∨ runner.afterIntake (runner.submit action) =
          { runner with
              intake := runner.intake.accept action (runner.clock * 1000)
              wakeUp := true } := by
  rcases runner.offer_cases action with ⟨rejection, rejected⟩ | accepted
  · rw [submit, rejected]
    exact Or.inl rfl
  · rw [submit, accepted]
    exact Or.inr rfl

theorem afterIntake_submit_eq (runner : Runner) (action : CustomAction) :
    ∃ intake wakeUp,
      runner.afterIntake (runner.submit action) = { runner with intake, wakeUp } := by
  rcases runner.afterIntake_submit_cases action with rejected | accepted
  · exact ⟨runner.intake, runner.wakeUp, rejected⟩
  · exact ⟨_, true, accepted⟩

/-- A client cancels, or leaves the flag alone. -/
theorem operate_cases (runner : Runner) (operation : Operation) :
    (∃ raised, operation = .cancel raised)
      ∨ ∃ intake wakeUp stopping,
          runner.operate operation = { runner with intake, wakeUp, stopping } := by
  cases operation with
  | submit action =>
      rcases runner.afterIntake_submit_eq action with ⟨intake, wakeUp, submitted⟩
      exact Or.inr ⟨intake, wakeUp, runner.stopping, submitted⟩
  | request file path id =>
      rw [operate, request]
      cases Catalog.lookUp file path id with
      | ok action =>
          rcases runner.afterIntake_submit_eq action with ⟨intake, wakeUp, submitted⟩
          exact Or.inr ⟨intake, wakeUp, runner.stopping, submitted⟩
      | error rejection => exact Or.inr ⟨runner.intake, runner.wakeUp, runner.stopping, rfl⟩
  | cancel raised => exact Or.inl ⟨raised, rfl⟩
  | stop => exact Or.inr ⟨runner.intake, runner.wakeUp, true, rfl⟩

/-- Clients change nothing but the intake, the wake-up, the flag and the request to stop. -/
theorem operate_eq (runner : Runner) (operation : Operation) :
    ∃ intake wakeUp signal stopping,
      runner.operate operation = { runner with intake, wakeUp, signal, stopping } := by
  rcases runner.operate_cases operation with ⟨raised, rfl⟩ | ⟨intake, wakeUp, stopping, operated⟩
  · rcases runner.cancel_frame raised with ⟨signal, cancelled⟩
    exact ⟨runner.intake, runner.wakeUp, signal, runner.stopping, cancelled⟩
  · exact ⟨intake, wakeUp, runner.signal, stopping, operated⟩

/-- What every move preserves is preserved by every turn. -/
theorem Turn.preserves (invariant : Runner → Prop)
    (preserved : ∀ (runner : Runner) (link : Link) (move : Move),
      invariant runner → invariant (runner.perform link move))
    {runner next : Runner} {event : Event} (turn : Turn runner event next)
    (start : invariant runner) : invariant next := by
  rcases turn.moves with ⟨moves, rfl⟩
  exact performAll_preserves preserved start moves

theorem Past.turn {runner next : Runner} {event : Event} {order : Nat}
    (past : runner.Past order) (turn : Turn runner event next) : next.Past order :=
  turn.preserves (Past · order) (fun _ link move past => past.perform link move) past

theorem Leads.preserves (invariant : Runner → Prop)
    (preserved : ∀ (runner next : Runner) (event : Event),
      Turn runner event next → invariant runner → invariant next)
    {runner next : Runner} (leads : Leads runner next) (start : invariant runner) :
    invariant next := by
  induction leads with
  | refl => exact start
  | tail _ turn induction =>
      rcases turn with ⟨event, turn⟩
      exact preserved _ _ event turn induction

theorem Flows.leads {runner next : Runner} (flows : Flows runner next) : Leads runner next := by
  refine Relation.ReflTransGen.mono ?_ runner next flows
  rintro runner next (turn | turn)
  · exact ⟨.act, turn⟩
  · exact ⟨.pass, turn⟩

theorem FlowsUnder.flows {link : Link} {runner next : Runner}
    (flows : FlowsUnder link runner next) : Flows runner next := by
  refine Relation.ReflTransGen.mono ?_ runner next flows
  rintro runner next (performed | turn)
  · exact Or.inl (.act link performed)
  · exact Or.inr turn

theorem Reached.leads {runner next : Runner} (reached : runner.Reached)
    (leads : Leads runner next) : next.Reached := by
  rcases reached with ⟨clock, before⟩
  exact ⟨clock, before.trans leads⟩

/-- What holds of a new runner and is preserved by every move holds of all that is reached. -/
theorem Reached.invariant (invariant : Runner → Prop)
    (preserved : ∀ (runner : Runner) (link : Link) (move : Move),
      invariant runner → invariant (runner.perform link move))
    (start : ∀ clock, invariant (initial clock))
    {runner : Runner} (reached : runner.Reached) : invariant runner := by
  rcases reached with ⟨clock, leads⟩
  exact leads.preserves invariant (fun _ _ _ turn => turn.preserves invariant preserved)
    (start clock)

theorem Reached.coherent {runner : Runner} (reached : runner.Reached) : runner.Coherent :=
  reached.invariant Coherent (fun _ link move coherent => coherent.perform link move) .initial

theorem Reached.numbered {runner : Runner} (reached : runner.Reached) : runner.Numbered :=
  reached.invariant Numbered (fun _ link move numbered => numbered.perform link move) .initial

theorem Reached.pursuing {runner : Runner} (reached : runner.Reached) : runner.Pursuing :=
  reached.invariant Pursuing (fun _ link move pursuing => pursuing.perform link move) .initial

/-- The worker does not sleep over a pending action without a wake-up. -/
def Attentive (runner : Runner) : Prop :=
  ∀ job, runner.intake.pending = some job → runner.worker = .parked → runner.wakeUp = true

namespace Attentive

variable {runner next : Runner}

theorem workerSection {link : Link} (performed : WorkerSection link runner next) :
    next.Attentive := by
  intro job offered parked
  cases performed with
  | parks _ nothing =>
      rw [nothing] at offered
      cases offered
  | takes _ _ | wakes _ _ | ends _ _ _ => cases parked
  | acts _ performed => exact absurd parked performed.not_parked

theorem operate (attentive : runner.Attentive) (operation : Operation) :
    (runner.operate operation).Attentive := by
  have submits : ∀ action, (runner.afterIntake (runner.submit action)).Attentive := by
    intro action
    rcases runner.afterIntake_submit_cases action with rejected | accepted
    · rw [rejected]
      exact attentive
    · rw [accepted]
      exact fun _ _ _ => rfl
  cases operation with
  | submit action => exact submits action
  | request file path id =>
      rw [Runner.operate, request]
      cases Catalog.lookUp file path id with
      | ok action => exact submits action
      | error rejection => exact attentive
  | cancel raised =>
      rcases runner.cancel_frame raised with ⟨signal, cancelled⟩
      rw [Runner.operate, cancelled]
      exact attentive
  | stop => exact attentive

theorem turn {event : Event} (attentive : runner.Attentive) (turn : Turn runner event next) :
    next.Attentive := by
  cases turn with
  | act link performed =>
      rcases nextSection_cases performed with byWorker | byReporter
      · exact workerSection byWorker
      · rcases byReporter.frame with ⟨reporter, journal, rfl⟩
        exact attentive
  | operate _ operation => exact attentive.operate operation
  | pass _ _ _ => exact attentive

end Attentive

theorem Reached.attentive {runner : Runner} (reached : runner.Reached) : runner.Attentive := by
  rcases reached with ⟨clock, leads⟩
  refine leads.preserves Attentive (fun _ _ _ turn attentive => attentive.turn turn) ?_
  intro job none
  cases none

/-- A worker that sleeps has no action to turn to. -/
theorem IsWaiting.pending_eq_none {runner : Runner} (waits : runner.IsWaiting)
    (reached : runner.Reached) (parked : runner.worker = .parked) :
    runner.intake.pending = none := by
  have asleep := (runner.isWaiting_iff.mp waits).1
  rw [WorkerWaits, parked] at asleep
  cases offered : runner.intake.pending with
  | none => rfl
  | some job =>
      have woken := reached.attentive job offered parked
      rw [asleep.1] at woken
      cases woken

/-! ## The clock takes turns -/

theorem nextSection_clock {runner next : Runner} {link : Link}
    (performed : runner.nextSection link = some next) : next.clock = runner.clock := by
  rcases nextSection_cases performed with byWorker | byReporter
  · exact byWorker.clock_eq
  · exact byReporter.clock_eq

theorem sections_flowsUnder (runner : Runner) (link : Link) (count : Nat) :
    FlowsUnder link runner (runner.sections link count) := by
  induction count generalizing runner with
  | zero => exact .refl
  | succ count induction =>
      rw [sections]
      split
      next next performed => exact .head (Or.inl performed) (induction next)
      next => exact .refl

theorem sections_flows (runner : Runner) (link : Link) (count : Nat) :
    Flows runner (runner.sections link count) :=
  (runner.sections_flowsUnder link count).flows

/-- All that is possible at an instant is done in turns, after which every part waits. -/
theorem settle_turns (runner : Runner) (link : Link) :
    FlowsUnder link runner (runner.settle link)
      ∧ (runner.settle link).IsWaiting
      ∧ (runner.settle link).clock = runner.clock := by
  induction runner using settle.induct link with
  | case1 runner next performed induction =>
      rcases induction with ⟨flows, waits, clock⟩
      rw [settle, performed]
      exact ⟨.head (Or.inl performed) flows, waits, clock.trans (nextSection_clock performed)⟩
  | case2 runner idle =>
      rw [settle, idle]
      exact ⟨.refl, isWaiting_of_nextSection link idle, rfl⟩

/-- What is possible at an instant is done when a number of sections leaves nothing to do. -/
theorem settle_eq_sections {runner : Runner} {link : Link} {count : Nat}
    (idle : (runner.sections link count).nextSection link = none) :
    runner.settle link = runner.sections link count := by
  induction count generalizing runner with
  | zero =>
      rw [settle, show runner.nextSection link = none from idle]
      rfl
  | succ count induction =>
      rw [sections] at idle ⊢
      cases performed : runner.nextSection link with
      | none => rw [settle, performed]
      | some next =>
          rw [performed] at idle
          rw [settle, performed]
          exact induction idle

/-- Time may pass up to a target that lies before the next instant that is waited for. -/
theorem IsWaiting.pass_turns {runner : Runner} (waits : runner.IsWaiting) (link : Link)
    {target : Nat} (ahead : runner.clock ≤ target)
    (early : ∀ due, runner.due? = some due → target < due) :
    FlowsUnder link runner { runner with clock := target }
      ∧ IsWaiting { runner with clock := target } := by
  have turn : Turn runner .pass { runner with clock := target } :=
    .pass waits ahead fun due waited => Nat.le_of_lt (early due waited)
  exact ⟨.single (Or.inr turn), waits.later early⟩

/-- The way to a target is made of turns, and every part waits at its end. -/
theorem advance_turns (link : Link) (target now : Nat) (runner : Runner)
    (waits : runner.IsWaiting) (present : runner.clock = now) (ahead : now ≤ target) :
    FlowsUnder link runner (advance link target now runner)
      ∧ (advance link target now runner).IsWaiting
      ∧ (advance link target now runner).clock = target := by
  induction now, runner using advance.induct link target with
  | case1 now runner instant waited between induction =>
      have turn : Turn runner .pass { runner with clock := instant } := by
        refine .pass waits (present ▸ Nat.le_of_lt between.1) ?_
        intro due later
        rw [waited] at later
        exact Nat.le_of_eq (Option.some.inj later)
      rcases settle_turns { runner with clock := instant } link with ⟨settles, waiting, clock⟩
      rcases induction waiting clock between.2 with ⟨flows, rest⟩
      have first : FlowsUnder link runner (runner.settleAt link instant) :=
        .trans (.single (Or.inr turn)) settles
      rw [advance, waited]
      simp only [between, and_self, if_true]
      exact ⟨first.trans flows, rest⟩
  | case2 now runner instant waited passed =>
      -- What is waited for lies ahead, so it can only lie behind the target.
      have early : ∀ due, runner.due? = some due → target < due := by
        intro due later
        have pending : now < due := present ▸ waits.lt_due later
        rw [waited] at later
        obtain rfl := Option.some.inj later
        exact Nat.lt_of_not_le fun reached => passed ⟨pending, reached⟩
      rcases waits.pass_turns link (present ▸ ahead) early with ⟨flows, waiting⟩
      have stays : advance link target now runner = { runner with clock := target } := by
        rw [advance, waited]
        simp only [passed, if_false]
      rw [stays]
      exact ⟨flows, waiting, rfl⟩
  | case3 now runner nothing =>
      have early : ∀ due, runner.due? = some due → target < due := by
        intro due later
        rw [nothing] at later
        cases later
      rcases waits.pass_turns link (present ▸ ahead) early with ⟨flows, waiting⟩
      rw [advance, nothing]
      exact ⟨flows, waiting, rfl⟩

theorem runTo_turns {runner : Runner} (waits : runner.IsWaiting) (link : Link) {target : Nat}
    (ahead : runner.clock ≤ target) :
    FlowsUnder link runner (runner.runTo link target)
      ∧ (runner.runTo link target).IsWaiting
      ∧ (runner.runTo link target).clock = target := by
  rw [runTo, if_pos ahead]
  exact advance_turns link target runner.clock runner waits rfl ahead

/-- Without clients every later instant is reached under any link, and every part waits there. -/
theorem flowsUnder_to (runner : Runner) (link : Link) {target : Nat}
    (ahead : runner.clock ≤ target) :
    ∃ later, FlowsUnder link runner later ∧ later.IsWaiting ∧ later.clock = target := by
  rcases settle_turns runner link with ⟨settles, waits, clock⟩
  rcases runTo_turns waits link (clock ▸ ahead) with ⟨flows, waiting, reached⟩
  exact ⟨_, settles.trans flows, waiting, reached⟩

theorem flows_to (runner : Runner) {target : Nat} (ahead : runner.clock ≤ target) :
    ∃ later, Flows runner later ∧ later.IsWaiting ∧ later.clock = target := by
  rcases runner.flowsUnder_to .accepting ahead with ⟨later, flows, waits, clock⟩
  exact ⟨later, flows.flows, waits, clock⟩

end FlightGuard.Runner
