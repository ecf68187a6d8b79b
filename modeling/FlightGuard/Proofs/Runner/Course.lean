import FlightGuard.Proofs.Runner.Moves

/-!
# The course of an action

Seen from its record, an action opens, is executed for a while, gets its final result, is consumed,
cleared and struck off the history.  Every section of an action is a phase of this course.  Calls
are made only while the action is executed, and each call is one that the action asks for.
-/

namespace FlightGuard

namespace Activity

/-- The action has a record and no final result yet. -/
def isExecuting : Activity → Bool
  | .staging _ _ | .calling _ _ _ _ _ | .resting _ _ _ | .scripting | .awaiting _ _ => true
  | .opening | .settling _ | .lingering | .sweeping | .retiring => false

/-- What an activity has left to do is what is left of the action. -/
def Pursues (action : CustomAction) : Activity → Prop
  | .staging done remaining => remaining = action.stages.drop done
  | .calling done stage remaining _ _ => stage :: remaining = action.stages.drop done
  | .resting done remaining _ => remaining = action.stages.drop (done + 1)
  | .scripting | .awaiting _ _ => action.stages = []
  | .opening | .settling _ | .lingering | .sweeping | .retiring => True

end Activity

/-- An action asks for a call, or the entry is the answer to one. -/
def JournalEntry.IsCallOf (action : CustomAction) : JournalEntry → Prop
  | .stageCalled _ stage => stage ∈ action.stages
  | .stageAnswered _ _ => True
  | .scriptCalled _ script => action.stages = [] ∧ action.script = some script
  | .reported _ _ _ => False

/-- What of a record changes only when it opens, is consumed or is cleared. -/
def Execution.identity (execution : Execution) : CustomAction × Bool :=
  (execution.action, execution.consumed)

/-- A change of progress and outcome leaves the identity of a record alone. -/
theorem Execution.identity_map {change : Execution → Execution}
    (kept : ∀ execution, (change execution).action = execution.action
      ∧ (change execution).consumed = execution.consumed)
    (record : Option Execution) :
    (record.map change).map identity = record.map identity := by
  cases record with
  | none => rfl
  | some execution => simp [identity, kept execution]

theorem Execution.map_action_eq {before after : Option Execution}
    (kept : after.map identity = before.map identity) :
    after.map action = before.map action := by
  have first : (after.map identity).map Prod.fst = (before.map identity).map Prod.fst :=
    congrArg (Option.map Prod.fst) kept
  rw [Option.map_map, Option.map_map] at first
  exact first

namespace Runner

/-- A section of an action at an activity, as its record sees it. -/
inductive Phase (job : Job) (runner : Runner) : Activity → Runner → Prop where
  | opens : Phase job runner .opening (runner.openJob job)
  | executes {activity : Activity} {worker : Worker} {record : Option Execution}
      {journal : List JournalEntry} (executing : activity.isExecuting = true)
      (following : worker = .failed ∨ ∃ following, worker = .busy job following
        ∧ following.isExecuting = true)
      (kept : record.map Execution.identity = runner.record.map Execution.identity)
      (calls : journal = runner.journal
        ∨ ∃ entry, journal = entry :: runner.journal ∧ entry.IsCallOf job.action) :
      Phase job runner activity { runner with worker, record, journal }
  | concludes {activity : Activity} {record : Option Execution}
      (executing : activity.isExecuting = true)
      (kept : record.map Execution.identity = runner.record.map Execution.identity) :
      Phase job runner activity
        { runner with worker := .busy job (.settling (runner.clock + settleTime)), record }
  | consumes {ends : Nat} (elapsed : ends ≤ runner.clock) :
      Phase job runner (.settling ends) (runner.consumeRecord job)
  | clears (alone : runner.reporter = none) :
      Phase job runner .lingering ({ runner with record := none }.moveTo job .sweeping)
  | sweeps :
      Phase job runner .sweeping
        ({ runner with signal := runner.signal.apply (.set false) }.moveTo job .retiring)
  | retires :
      Phase job runner .retiring
        { runner with intake := runner.intake.retire job.order, worker := .looking }

/-- A verdict gives an action its final result, also one that was cancelled meanwhile. -/
theorem Phase.judges (runner : Runner) (job : Job) (due : Option Nat) (verdict : Verdict) :
    Phase job runner (.awaiting due verdict) ((runner.judge verdict).settleDown job) := by
  rcases runner.judge_eq verdict with ⟨change, kept, judged⟩
  rw [judged]
  exact .concludes rfl (Execution.identity_map kept _)

namespace ActionSection

variable {runner next : Runner} {link : Link} {job : Job} {activity : Activity}

theorem phase (performed : ActionSection link job runner activity next)
    (pursues : activity.Pursues job.action) : Phase job runner activity next := by
  have untold : ∀ change : Execution → Execution,
      (∀ execution, (change execution).action = execution.action
        ∧ (change execution).consumed = execution.consumed) →
      (runner.record.map change).map Execution.identity =
        runner.record.map Execution.identity :=
    fun change kept => Execution.identity_map kept runner.record
  cases performed with
  | opens => exact .opens
  | runsOut => exact .concludes rfl rfl
  | dropsStage _ | cutsRest _ | dropsScript _ _ | cutsScript _ | lacksScript _
  | completesLast _ _ => exact .concludes rfl (untold _ fun _ => ⟨rfl, rfl⟩)
  | judges _ _ => exact .judges runner job _ _
  | callsStage _ =>
      refine .executes rfl (Or.inr ⟨_, rfl, rfl⟩) rfl (Or.inr ⟨_, rfl, ?_⟩)
      exact List.mem_of_mem_drop (pursues ▸ List.mem_cons_self)
  | rests _ _ => exact .executes rfl (Or.inr ⟨_, rfl, rfl⟩) rfl (Or.inr ⟨_, rfl, trivial⟩)
  | falls _ _ => exact .executes rfl (Or.inl rfl) rfl (Or.inr ⟨_, rfl, trivial⟩)
  | completesStage _ _ =>
      exact .executes rfl (Or.inr ⟨_, rfl, rfl⟩) (untold _ fun _ => ⟨rfl, rfl⟩) (Or.inl rfl)
  | fallsBeforeScript _ _ _ => exact .executes rfl (Or.inl rfl) rfl (Or.inl rfl)
  | callsScript given _ _ =>
      exact .executes rfl (Or.inr ⟨_, rfl, rfl⟩) rfl (Or.inr ⟨_, rfl, pursues, given⟩)
  | consumes elapsed => exact .consumes elapsed
  | clears alone => exact .clears alone
  | sweeps => exact .sweeps
  | retires => exact .retires

/-- What is left to do behind a section is still what is left of the action. -/
theorem pursues (performed : ActionSection link job runner activity next)
    (pursues : activity.Pursues job.action) {following : Activity}
    (busy : next.worker = .busy job following) : following.Pursues job.action := by
  cases performed with
  | opens =>
      rw [openJob] at busy
      cases stages : job.action.stages with
      | nil =>
          simp only [stages, List.isEmpty_nil, if_true] at busy
          cases busy
          exact stages
      | cons stage remaining =>
          simp only [stages, List.isEmpty_cons, Bool.false_eq_true, if_false] at busy
          cases busy
          exact stages.symm
  | callsStage _ | callsScript _ _ _ =>
      cases busy
      exact pursues
  | rests _ _ =>
      cases busy
      change _ = job.action.stages.drop _ at pursues
      rw [Activity.Pursues, ← List.tail_drop, ← pursues]
      rfl
  | completesStage _ _ =>
      cases busy
      exact pursues
  | judges _ _ =>
      rcases runner.judge_eq _ with ⟨change, _, judged⟩
      rw [judged] at busy
      cases busy
      trivial
  | falls _ _ | fallsBeforeScript _ _ _ | retires => cases busy
  | runsOut | dropsStage _ | cutsRest _ | dropsScript _ _ | cutsScript _ | lacksScript _
  | completesLast _ _ | consumes _ | clears _ | sweeps =>
      cases busy
      trivial

end ActionSection

/-! ## What is left to do, in every run -/

/-- What the worker has left to do is what is left of its action. -/
def Pursuing (runner : Runner) : Prop :=
  ∀ job activity, runner.worker = .busy job activity → activity.Pursues job.action

namespace Pursuing

theorem initial (clock : Nat) : (Runner.initial clock).Pursuing := by
  intro job activity busy
  cases busy

theorem workerSection {runner next : Runner} {link : Link} (pursuing : runner.Pursuing)
    (performed : WorkerSection link runner next) : next.Pursuing := by
  intro job activity busy
  cases performed with
  | takes _ _ =>
      cases busy
      trivial
  | parks _ _ | wakes _ _ | ends _ _ _ => cases busy
  | @acts standing before _ working performed =>
      obtain rfl := performed.same_job busy
      exact performed.pursues (pursuing _ before working) busy

theorem perform {runner : Runner} (pursuing : runner.Pursuing) (link : Link) (move : Move) :
    (runner.perform link move).Pursuing := by
  rcases runner.perform_cases link move with ⟨action, accepted⟩ | performed | ⟨_, worker⟩
  · rw [accepted]
    exact pursuing
  · exact pursuing.workerSection performed
  · rw [Pursuing, worker]
    exact pursuing

end Pursuing

end Runner

end FlightGuard
