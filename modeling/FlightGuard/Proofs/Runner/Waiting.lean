import FlightGuard.Runner.Clock

/-!
# When the runner waits

Whether a part of the runner can act depends on its position, on the flag of the cancellation and
on the clock, and not on the link.  Here the conditions under which each part waits are listed
once.  A runner that waits does so until the next instant that one of its parts waits for.
-/

namespace FlightGuard.Runner

theorem isDue_eq_false_iff (clock : Nat) (due : Option Nat) :
    isDue clock due = false ↔ ∀ instant, due = some instant → clock < instant := by
  cases due <;> simp [isDue]

theorem isDue_eq_true_iff (clock : Nat) (due : Option Nat) :
    isDue clock due = true ↔ ∃ instant, due = some instant ∧ instant ≤ clock := by
  cases due <;> simp [isDue]

/-- An action waits at an activity. -/
def ActionWaits (runner : Runner) : Activity → Prop
  | .calling _ _ _ due _ => ∀ instant, due = some instant → runner.clock < instant
  | .resting _ _ deadline => runner.signal.raised = false ∧ runner.clock < deadline
  | .awaiting due _ =>
      runner.signal.raised = false ∧ ∀ instant, due = some instant → runner.clock < instant
  | .settling deadline => runner.clock < deadline
  | .lingering => runner.reporter ≠ none
  | .opening | .staging _ _ | .scripting | .sweeping | .retiring => False

/-- The worker waits. -/
def WorkerWaits (runner : Runner) : Prop :=
  match runner.worker with
  | .looking => False
  | .parked => runner.wakeUp = false ∧ runner.stopping = false
  | .busy _ activity => runner.ActionWaits activity
  | .ended | .failed => True

/-- The reporter waits, or there is none. -/
def ReporterWaits (runner : Runner) : Prop :=
  ∀ due, runner.reporter = some due → runner.signal.raised = false ∧ runner.clock < due

/-- Every part waits for time to pass or for a client, however the link answers. -/
def IsWaiting (runner : Runner) : Prop :=
  ∀ link, runner.nextSection link = none

theorem jobSection_eq_none_iff (runner : Runner) (link : Link) (job : Job)
    (activity : Activity) :
    runner.jobSection link job activity = none ↔ runner.ActionWaits activity := by
  cases activity with
  | staging done remaining => cases remaining <;> simp [jobSection, ActionWaits]
  | calling done stage remaining due answer =>
      rw [ActionWaits, ← isDue_eq_false_iff, jobSection]
      cases isDue runner.clock due <;> simp
  | resting done remaining deadline =>
      rw [ActionWaits, jobSection, CancelSignal.poll]
      cases runner.signal.raised with
      | true => simp
      | false =>
          by_cases elapsed : deadline ≤ runner.clock
          · simp [elapsed]
          · simp [elapsed, Nat.lt_of_not_le elapsed]
  | awaiting due verdict =>
      rw [ActionWaits, ← isDue_eq_false_iff, jobSection]
      cases runner.signal.raised <;> cases isDue runner.clock due <;> simp
  | settling deadline => simp [jobSection, ActionWaits]
  | lingering => simp [jobSection, ActionWaits, Option.isNone_iff_eq_none]
  | opening | scripting | sweeping | retiring => simp [jobSection, ActionWaits]

theorem workerSection_eq_none_iff (runner : Runner) (link : Link) :
    runner.workerSection link = none ↔ runner.WorkerWaits := by
  rw [workerSection.eq_def, WorkerWaits]
  cases runner.worker with
  | looking => cases runner.intake.pending <;> simp
  | parked => cases runner.wakeUp <;> cases runner.stopping <;> simp
  | busy job activity => exact runner.jobSection_eq_none_iff link job activity
  | ended | failed => simp

theorem reporterSection_eq_none_iff (runner : Runner) (link : Link) :
    runner.reporterSection link = none ↔ runner.ReporterWaits := by
  rw [reporterSection.eq_def, ReporterWaits]
  cases runner.reporter with
  | none => simp
  | some due =>
      cases runner.signal.raised with
      | true => simp
      | false =>
          by_cases reached : due ≤ runner.clock
          · cases openReport runner.record <;> simp [reached]
          · simp [reached, Nat.lt_of_not_le reached]

theorem nextSection_eq_none_iff (runner : Runner) (link : Link) :
    runner.nextSection link = none ↔ runner.WorkerWaits ∧ runner.ReporterWaits := by
  rw [nextSection, Option.or_eq_none_iff, workerSection_eq_none_iff, reporterSection_eq_none_iff]

/-- Whether the runner waits does not depend on the link. -/
theorem isWaiting_iff (runner : Runner) :
    runner.IsWaiting ↔ runner.WorkerWaits ∧ runner.ReporterWaits := by
  constructor
  · intro waits
    exact (runner.nextSection_eq_none_iff .accepting).mp (waits .accepting)
  · intro waits link
    exact (runner.nextSection_eq_none_iff link).mpr waits

theorem isWaiting_of_nextSection {runner : Runner} (link : Link)
    (idle : runner.nextSection link = none) : runner.IsWaiting :=
  runner.isWaiting_iff.mpr ((runner.nextSection_eq_none_iff link).mp idle)

namespace IsWaiting

variable {runner : Runner}

theorem action (waits : runner.IsWaiting) {job : Job} {activity : Activity}
    (busy : runner.worker = .busy job activity) : runner.ActionWaits activity := by
  have worker : runner.WorkerWaits := (runner.isWaiting_iff.mp waits).1
  rw [WorkerWaits, busy] at worker
  exact worker

theorem reporter (waits : runner.IsWaiting) : runner.ReporterWaits :=
  (runner.isWaiting_iff.mp waits).2

/-- Under a flag that is up no reporter waits. -/
theorem reporter_eq_none (waits : runner.IsWaiting) (raised : runner.signal.raised = true) :
    runner.reporter = none := by
  cases running : runner.reporter with
  | none => rfl
  | some due =>
      have lowered := (waits.reporter due running).1
      rw [raised] at lowered
      cases lowered

end IsWaiting

/-! ## The next instant -/

/-- A bound on the earlier of two instants is a bound on both. -/
theorem forall_earlier_iff (first second : Option Nat) {bound : Nat → Prop}
    (upward : ∀ low high, low ≤ high → bound low → bound high) :
    (∀ due, earlier first second = some due → bound due) ↔
      (∀ due, first = some due → bound due) ∧ ∀ due, second = some due → bound due := by
  cases first with
  | none => cases second <;> simp [earlier]
  | some low =>
      cases second with
      | none => simp [earlier]
      | some high =>
          simp only [earlier, Option.some.injEq, forall_eq']
          constructor
          · intro least
            exact ⟨upward _ _ (Nat.min_le_left low high) least,
              upward _ _ (Nat.min_le_right low high) least⟩
          · rintro ⟨left, right⟩
            rcases Nat.le_total low high with ordered | ordered
            · rwa [Nat.min_eq_left ordered]
            · rwa [Nat.min_eq_right ordered]

/-- An instant before all that the parts of the runner wait for. -/
theorem lt_due_iff (runner : Runner) (instant : Nat) :
    (∀ due, runner.due? = some due → instant < due) ↔
      (∀ due, runner.workerDue? = some due → instant < due)
        ∧ ∀ due, runner.reporter = some due → instant < due :=
  forall_earlier_iff _ _ fun _ _ ordered early => Nat.lt_of_lt_of_le early ordered

/-- An action is never passed over by an instant that is not past what the runner waits for. -/
theorem le_due_of_busy {runner : Runner} {job : Job} {activity : Activity} {instant due : Nat}
    (busy : runner.worker = .busy job activity)
    (inTime : ∀ due, runner.due? = some due → instant ≤ due)
    (waited : activity.due? = some due) : instant ≤ due := by
  have both := (forall_earlier_iff runner.workerDue? runner.reporter
    (fun _ _ ordered early => Nat.le_trans early ordered)).mp inTime
  apply both.1
  rw [workerDue?, busy]
  exact waited

namespace IsWaiting

variable {runner : Runner}

/-- A runner that waits has nothing due. -/
theorem lt_due (waits : runner.IsWaiting) {due : Nat} (waited : runner.due? = some due) :
    runner.clock < due := by
  refine (runner.lt_due_iff runner.clock).mpr ⟨?_, ?_⟩ due waited
  · intro due waited
    cases worker : runner.worker with
    | busy job activity =>
        have waiting := waits.action worker
        rw [workerDue?, worker] at waited
        cases activity with
        | calling => exact waiting due waited
        | resting => exact Option.some.inj waited ▸ waiting.2
        | awaiting => exact waiting.2 due waited
        | settling => exact Option.some.inj waited ▸ waiting
        | opening | staging | scripting | lingering | sweeping | retiring => cases waited
    | looking | parked | ended | failed =>
        rw [workerDue?, worker] at waited
        cases waited
  · intro due running
    exact (waits.reporter due running).2

/-- A runner that waits still does so before the next instant that is waited for. -/
theorem later (waits : runner.IsWaiting) {instant : Nat}
    (early : ∀ due, runner.due? = some due → instant < due) :
    IsWaiting { runner with clock := instant } := by
  rcases (runner.lt_due_iff instant).mp early with ⟨worker, reporter⟩
  refine (isWaiting_iff _).mpr ⟨?_, ?_⟩
  · have waiting := (runner.isWaiting_iff.mp waits).1
    rw [WorkerWaits.eq_def] at waiting ⊢
    rw [workerDue?.eq_def] at worker
    cases standing : runner.worker with
    | busy job activity =>
        simp only [standing] at waiting worker ⊢
        cases activity with
        | calling => exact worker
        | resting => exact ⟨waiting.1, worker _ rfl⟩
        | awaiting => exact ⟨waiting.1, worker⟩
        | settling => exact worker _ rfl
        | lingering => exact waiting
        | opening | staging | scripting | sweeping | retiring => exact waiting
    | parked =>
        simp only [standing] at waiting ⊢
        exact waiting
    | looking | ended | failed => simp only [standing] at waiting ⊢
  · intro due running
    exact ⟨(waits.reporter due running).1, reporter due running⟩

end IsWaiting

end FlightGuard.Runner
