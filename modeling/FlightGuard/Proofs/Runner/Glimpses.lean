import FlightGuard.Proofs.Runner.Scenes

/-!
# Glimpses of an action

As long as the worker is at an action, every beat gives a glimpse of it: what passed over the link
in this beat, and what the record holds behind it.  The glimpses are all that there is to see of the
action, since the worker does not come back to an action that is past.
-/

namespace FlightGuard

namespace Runner

/-- Whether the worker is at an action. -/
def isAt (runner : Runner) (job : Job) : Bool :=
  match runner.worker with
  | .busy other _ => other = job
  | _ => false

theorem isAt_of_busy {runner : Runner} {job : Job} {activity : Activity}
    (busy : runner.worker = .busy job activity) : runner.isAt job = true := by
  rw [isAt, busy]
  exact decide_eq_true rfl

theorem isAt_iff (runner : Runner) (job : Job) :
    runner.isAt job = true ↔ ∃ activity, runner.worker = .busy job activity := by
  constructor
  · intro atJob
    cases standing : runner.worker with
    | busy other activity =>
        rw [isAt, standing] at atJob
        exact ⟨activity, of_decide_eq_true atJob ▸ rfl⟩
    | looking | parked | ended | failed =>
        rw [isAt, standing] at atJob
        cases atJob
  · rintro ⟨activity, busy⟩
    exact isAt_of_busy busy

theorem Past.isAt_eq_false {runner : Runner} {job : Job} (past : runner.Past job.order) :
    runner.isAt job = false := by
  refine Bool.eq_false_iff.mpr ?_
  rw [ne_eq, isAt_iff]
  rintro ⟨activity, busy⟩
  exact past.not_busy activity busy

/-- What was entered into the journal since a moment, the latest first. -/
def enteredSince (runner before : Runner) : List JournalEntry :=
  runner.journal.take (runner.journal.length - before.journal.length)

theorem enteredSince_eq {runner before : Runner} {entries : List JournalEntry}
    (journal : runner.journal = entries ++ before.journal) :
    runner.enteredSince before = entries := by
  rw [enteredSince, journal, List.length_append, Nat.add_sub_cancel, List.take_left]

end Runner

/-- An action that is past is not taken up again. -/
theorem Scene.Step.past {link : Link} {scene next : Scene} {beat : Scene.Beat} {order : Nat}
    (step : Scene.Step link scene beat next) (past : scene.runner.Past order) :
    next.runner.Past order := by
  cases step with
  | idles _ | refuses _ _ => exact past
  | accepts _ _ =>
      refine ⟨past.beyond.accept _ _, past.running, ?_⟩
      intro job listed
      rcases List.mem_append.mp listed with before | new
      · exact past.listed job before
      · rw [List.mem_singleton.mp new]
        exact past.beyond.next
  | announces _ | stops | reads _ _ _ _ | sends _ _ | ends _ _ _ | passes =>
      exact ⟨past.beyond, past.running, past.listed⟩
  | cancels =>
      rcases scene.runner.cancel_frame _ with ⟨signal, cancelled⟩
      rw [cancelled]
      exact ⟨past.beyond, past.running, past.listed⟩
  | works performed => exact past.workerSection performed
  | leaves _ _ =>
      refine ⟨past.beyond, ?_, past.listed⟩
      intro job activity busy
      cases busy
  | judges busy _ =>
      rcases scene.runner.judge_eq _ with ⟨change, _, judged⟩
      rw [judged]
      refine ⟨past.beyond, ?_, past.listed⟩
      intro job activity settling
      cases settling
      exact past.running _ _ busy

/-- What is seen of an action in one beat. -/
structure Glimpse where
  instant : Nat
  /-- What passed over the link, the latest first. -/
  entries : List JournalEntry
  /-- What the record holds behind the beat. -/
  record : Option Execution

namespace Glimpse

/-- Takes a glimpse of an action, if the worker is at it. -/
def enter (job : Job) (glimpses : List Glimpse) (before : Scene) (_beat : Scene.Beat)
    (after : Scene) : List Glimpse :=
  if before.runner.isAt job then
    ⟨after.runner.clock, after.runner.enteredSince before.runner, after.runner.record⟩ :: glimpses
  else glimpses

/-- All that passed over the link, the latest first. -/
def journal (glimpses : List Glimpse) : List JournalEntry :=
  glimpses.flatMap entries

/-- What the record showed last. -/
def lastShown (glimpses : List Glimpse) : Option Execution :=
  glimpses.findSome? record

theorem enter_of_past {job : Job} {glimpses : List Glimpse} {before after : Scene}
    {beat : Scene.Beat} (past : before.runner.Past job.order) :
    enter job glimpses before beat after = glimpses := by
  rw [enter, past.isAt_eq_false]
  rfl

theorem journal_enter {job : Job} {glimpses : List Glimpse} {before after : Scene}
    {beat : Scene.Beat} {activity : Activity} {entries : List JournalEntry}
    (busy : before.runner.worker = .busy job activity)
    (journal : after.runner.journal = entries ++ before.runner.journal) :
    Glimpse.journal (enter job glimpses before beat after) =
      entries ++ Glimpse.journal glimpses := by
  rw [enter, Runner.isAt_of_busy busy, if_pos rfl, Glimpse.journal, List.flatMap_cons,
    Runner.enteredSince_eq journal]
  rfl

theorem lastShown_enter {job : Job} {glimpses : List Glimpse} {before after : Scene}
    {beat : Scene.Beat} {activity : Activity} (busy : before.runner.worker = .busy job activity) :
    lastShown (enter job glimpses before beat after) =
      after.runner.record.or (lastShown glimpses) := by
  rw [enter, Runner.isAt_of_busy busy, if_pos rfl, lastShown, List.findSome?_cons]
  cases after.runner.record <;> rfl

end Glimpse

end FlightGuard
