import FlightGuard.Proofs.Runner.Moves

/-!
# The order of the actions

Accepted actions are numbered in their order, and the worker takes them in that order.  So whatever
comes behind an action has a higher number, and an action that is past does not come back.
-/

namespace FlightGuard

/-- All that is still to come has a higher number. -/
structure Intake.Beyond (intake : Intake) (order : Nat) : Prop where
  next : order < intake.nextOrder
  pending : ∀ job, intake.pending = some job → order < job.order

/-- What was beyond an order still is after an acceptance. -/
theorem Intake.Beyond.accept {intake : Intake} {order : Nat} (beyond : intake.Beyond order)
    (action : CustomAction) (now : Nat) : (intake.accept action now).Beyond order where
  next := Nat.lt_succ_of_lt beyond.next
  pending := by
    intro job offered
    obtain rfl := Option.some.inj offered
    exact beyond.next

theorem Intake.Beyond.take {intake : Intake} {order : Nat} (beyond : intake.Beyond order) :
    intake.take.Beyond order where
  next := beyond.next
  pending := by
    intro job offered
    cases offered

theorem Intake.Beyond.congr {intake other : Intake} {order : Nat} (beyond : intake.Beyond order)
    (pending : other.pending = intake.pending) (next : other.nextOrder = intake.nextOrder) :
    other.Beyond order where
  next := next ▸ beyond.next
  pending := pending ▸ beyond.pending

namespace Runner

/-- The number of the pending action is given, and all behind the running one has a higher one. -/
structure Numbered (runner : Runner) : Prop where
  pending : ∀ job, runner.intake.pending = some job → job.order < runner.intake.nextOrder
  running : ∀ job activity, runner.worker = .busy job activity → runner.intake.Beyond job.order

/-- The action with an order is struck off the history, and so is every action before it. -/
structure Past (runner : Runner) (order : Nat) : Prop where
  beyond : runner.intake.Beyond order
  running : ∀ job activity, runner.worker = .busy job activity → order < job.order
  listed : ∀ job ∈ runner.intake.history, order < job.order

namespace Numbered

theorem initial (clock : Nat) : (Runner.initial clock).Numbered := by
  constructor
  · intro job offered
    cases offered
  · intro job activity busy
    cases busy

theorem workerSection {runner next : Runner} {link : Link} (numbered : runner.Numbered)
    (performed : WorkerSection link runner next) : next.Numbered := by
  cases performed with
  | takes looks offered =>
      constructor
      · intro job none
        cases none
      · intro job activity busy
        cases busy
        refine ⟨numbered.pending _ offered, ?_⟩
        intro job none
        cases none
  | parks _ _ | wakes _ _ | ends _ _ _ =>
      refine ⟨numbered.pending, ?_⟩
      intro job activity busy
      cases busy
  | @acts job activity next busy performed =>
      rcases performed.intake_eq with ⟨pending, nextOrder, _⟩
      constructor
      · rw [pending, nextOrder]
        exact numbered.pending
      · intro other following working
        rw [performed.same_job working]
        exact (numbered.running job activity busy).congr pending nextOrder

/-- An accepted action gets the next number. -/
theorem accept {runner : Runner} (numbered : runner.Numbered) (action : CustomAction)
    (now : Nat) : Numbered { runner with intake := runner.intake.accept action now } where
  pending := by
    intro job offered
    obtain rfl := Option.some.inj offered
    exact Nat.lt_succ_self _
  running := by
    intro job activity busy
    exact (numbered.running job activity busy).accept action now

/-- Nothing is renumbered where the intake stays and the worker turns to no other action. -/
theorem congr {runner next : Runner} (numbered : runner.Numbered)
    (intake : next.intake = runner.intake)
    (worker : ∀ job activity, next.worker = .busy job activity →
      ∃ standing, runner.worker = .busy job standing) : next.Numbered where
  pending := by
    rw [intake]
    exact numbered.pending
  running := by
    intro job activity busy
    rcases worker job activity busy with ⟨standing, working⟩
    rw [intake]
    exact numbered.running job standing working

theorem perform {runner : Runner} (numbered : runner.Numbered) (link : Link) (move : Move) :
    (runner.perform link move).Numbered := by
  rcases runner.perform_cases link move with ⟨action, accepted⟩ | performed | ⟨intake, worker⟩
  · rw [accepted]
    exact numbered.accept action _
  · exact numbered.workerSection performed
  · refine numbered.congr intake ?_
    intro job activity busy
    exact ⟨activity, worker ▸ busy⟩

end Numbered

namespace Past

variable {order : Nat}

theorem not_busy {runner : Runner} {job : Job} (past : runner.Past job.order)
    (activity : Activity) : ¬ runner.worker = .busy job activity := by
  intro busy
  exact Nat.lt_irrefl job.order (past.running job activity busy)

theorem workerSection {runner next : Runner} {link : Link} (past : runner.Past order)
    (performed : WorkerSection link runner next) : next.Past order := by
  cases performed with
  | takes looks offered =>
      refine ⟨past.beyond.take, ?_, past.listed⟩
      intro job activity busy
      cases busy
      exact past.beyond.pending _ offered
  | parks _ _ | wakes _ _ | ends _ _ _ =>
      refine ⟨past.beyond, ?_, past.listed⟩
      intro job activity busy
      cases busy
  | @acts job activity next busy performed =>
      rcases performed.intake_eq with ⟨pending, nextOrder, history⟩
      constructor
      · exact past.beyond.congr pending nextOrder
      · intro other following working
        rw [performed.same_job working]
        exact past.running job activity busy
      · intro other listed
        exact past.listed other (history listed)

theorem perform {runner : Runner} (past : runner.Past order) (link : Link) (move : Move) :
    (runner.perform link move).Past order := by
  rcases runner.perform_cases link move with ⟨action, accepted⟩ | performed | ⟨intake, worker⟩
  · rw [accepted]
    refine ⟨past.beyond.accept _ _, past.running, ?_⟩
    intro job listed
    rcases List.mem_append.mp listed with before | new
    · exact past.listed job before
    · rw [List.mem_singleton.mp new]
      exact past.beyond.next
  · exact past.workerSection performed
  · constructor
    · rw [intake]
      exact past.beyond
    · rw [worker]
      exact past.running
    · rw [intake]
      exact past.listed

end Past

/-- An action that is struck off the history is past. -/
theorem Numbered.past {runner next : Runner} {link : Link} {job : Job}
    (numbered : runner.Numbered) (busy : runner.worker = .busy job .retiring)
    (performed : ActionSection link job runner .retiring next) : next.Past job.order := by
  cases performed with
  | retires =>
      refine ⟨(numbered.running job .retiring busy).congr rfl rfl, ?_, ?_⟩
      · intro other activity working
        cases working
      · intro other listed
        exact of_decide_eq_true (List.mem_filter.mp listed).2

end Runner

end FlightGuard
