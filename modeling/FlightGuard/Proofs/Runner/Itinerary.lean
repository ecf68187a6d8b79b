import FlightGuard.Proofs.Action.Progress
import FlightGuard.Proofs.Runner.Completion

/-!
# The itinerary of an action

An action calls its stages in their order, with a wait behind each of them, or else its script.  As
long as nobody cancels it, the place where it stands tells which calls it has made, what it has
waited for and what its record shows.  The record of stages depends on how many of them are done,
and that of a script on the reply to it.  Every section of the worker moves on along the itinerary.
-/

namespace FlightGuard

/-! ## What an action asks for -/

/-- A call that an action makes. -/
inductive Call where
  | stage (stage : Stage)
  | script (text : String)
deriving DecidableEq

namespace JournalEntry

/-- The call that an entry is about, if it is about one. -/
def call? : JournalEntry → Option Call
  | .stageCalled _ stage => some (.stage stage)
  | .scriptCalled _ script => some (.script script)
  | .stageAnswered _ _ | .reported _ _ _ => none

/-- The instant at which a stage was answered. -/
def answered? : JournalEntry → Option Nat
  | .stageAnswered instant _ => some instant
  | .stageCalled _ _ | .scriptCalled _ _ | .reported _ _ _ => none

end JournalEntry

/-- The calls in a journal, the earliest first. -/
def callsIn (journal : List JournalEntry) : List Call :=
  (journal.filterMap JournalEntry.call?).reverse

/-- The instants at which the stages in a journal were answered, the earliest first. -/
def answersIn (journal : List JournalEntry) : List Nat :=
  (journal.filterMap JournalEntry.answered?).reverse

theorem callsIn_append (entries journal : List JournalEntry) :
    callsIn (entries ++ journal) = callsIn journal ++ callsIn entries := by
  rw [callsIn, List.filterMap_append, List.reverse_append]
  rfl

theorem answersIn_append (entries journal : List JournalEntry) :
    answersIn (entries ++ journal) = answersIn journal ++ answersIn entries := by
  rw [answersIn, List.filterMap_append, List.reverse_append]
  rfl

namespace Reply

/-- A script is answered before its time limit is over. -/
def isInTime (reply : Reply) (limit : Option Duration) : Bool :=
  limit.all fun limit => reply.delay.any (· ≤ limit.waitMilliseconds)

/-- Progress and outcome that a script makes of its answer. -/
def result (reply : Reply) : Float32 × Outcome :=
  match reply.outcome with
  | .ok .success => (100, .success)
  | .ok outcome => (0, outcome)
  | .error _ => (0, .failed)

end Reply

namespace CustomAction

/-- The calls that an action asks for; where there are stages the script does not count. -/
def calls (action : CustomAction) : List Call :=
  if action.stages.isEmpty then (action.script.map Call.script).toList
  else action.stages.map Call.stage

/-- Progress and outcome at the end, the script being replied to in a certain way. -/
def conclusion (action : CustomAction) (reply : Reply) : Float32 × Outcome :=
  if action.stages.isEmpty then
    match action.script, action.limit with
    | some _, .ok limit => if reply.isInTime limit then reply.result else (0, .failed)
    | _, _ => (0, .failed)
  else (100, .success)

/-- The record after a number of stages that are not all. -/
def underway (action : CustomAction) (done : Nat) : Execution :=
  if done = 0 then .start action
  else ⟨action, Execution.stageProgress done action.stages.length, .inProgress, false⟩

/-- The record at the end. -/
def concluded (action : CustomAction) (reply : Reply) (consumed : Bool) : Execution :=
  ⟨action, (action.conclusion reply).1, (action.conclusion reply).2, consumed⟩

end CustomAction

/-- Stages were answered at certain instants, and the waits behind them are over. -/
def HasWaited (stages : List Stage) (answers : List Nat) (clock : Nat) : Prop :=
  List.Forall₂ (fun stage answered => answered + stage.pause ≤ clock) stages answers

/-- The script of an action ends with a verdict when it is replied to in a certain way. -/
def Verdict.IsOf (action : CustomAction) (reply : Reply) (verdict : Verdict) : Prop :=
  ∃ script limit, action.script = some script ∧ action.limit = .ok limit
    ∧ verdict = if reply.isInTime limit then .answered reply.outcome else .timedOut

namespace Activity

/-- The calls that an action has made when it is at an activity. -/
def callsMade (action : CustomAction) : Activity → List Call
  | .opening | .scripting => []
  | .staging done _ => action.calls.take done
  | .calling done _ _ _ _ | .resting done _ _ => action.calls.take (done + 1)
  | .awaiting _ _ | .settling _ | .lingering | .sweeping | .retiring => action.calls

/-- What the record shows at an activity. -/
def recordShown (action : CustomAction) (reply : Reply) : Activity → Option Execution
  | .opening | .sweeping | .retiring => none
  | .staging done _ | .calling done _ _ _ _ | .resting done _ _ => some (action.underway done)
  | .scripting | .awaiting _ _ => some (.start action)
  | .settling _ => some (action.concluded reply false)
  | .lingering => some (action.concluded reply true)

/-- What the record showed last when an action is at an activity. -/
def lastShown (action : CustomAction) (reply : Reply) : Activity → Option Execution
  | .sweeping | .retiring => some (action.concluded reply true)
  | activity => activity.recordShown action reply

theorem recordShown_or_lastShown (activity : Activity) (action : CustomAction) (reply : Reply) :
    (activity.recordShown action reply).or (activity.lastShown action reply) =
      activity.lastShown action reply := by
  cases activity <;> rfl

/-- The waits that are over at an activity, and the one that is under way. -/
def Waited (action : CustomAction) (answers : List Nat) (clock : Nat) : Activity → Prop
  | .opening | .scripting | .awaiting _ _ => answers = []
  | .staging done _ | .calling done _ _ _ _ => HasWaited (action.stages.take done) answers clock
  | .resting done _ deadline =>
      ∃ earlier last stage, answers = earlier ++ [last]
        ∧ HasWaited (action.stages.take done) earlier clock
        ∧ action.stages[done]? = some stage ∧ deadline = last + stage.pause
  | .settling _ | .lingering | .sweeping | .retiring => HasWaited action.stages answers clock

/-- There is a stage to call next, and the verdict on a script is the one on a reply. -/
def Expects (action : CustomAction) (reply : Reply) : Activity → Prop
  | .staging _ remaining => remaining ≠ []
  | .awaiting _ verdict => verdict.IsOf action reply
  | _ => True

end Activity

/-! ## Along the stages -/

section

variable {action : CustomAction} {done : Nat} {stage : Stage} {remaining : List Stage}

theorem getElem?_of_drop (left : stage :: remaining = action.stages.drop done) :
    action.stages[done]? = some stage := by
  rw [← List.head?_drop, ← left]
  rfl

theorem take_succ_of_drop (left : stage :: remaining = action.stages.drop done) :
    action.stages.take (done + 1) = action.stages.take done ++ [stage] := by
  rw [List.take_add_one, getElem?_of_drop left]
  rfl

theorem calls_of_drop (left : stage :: remaining = action.stages.drop done) :
    action.calls = action.stages.map Call.stage := by
  have staged : action.stages.isEmpty = false := by
    refine List.isEmpty_eq_false_iff_exists_mem.mpr ⟨stage, ?_⟩
    exact List.mem_of_mem_drop (left ▸ List.mem_cons_self)
  rw [CustomAction.calls, staged]
  rfl

theorem calls_take_succ (left : stage :: remaining = action.stages.drop done) :
    action.calls.take (done + 1) = action.calls.take done ++ [.stage stage] := by
  rw [calls_of_drop left, ← List.map_take, take_succ_of_drop left, List.map_append, List.map_take]
  rfl

end

theorem HasWaited.mono {stages : List Stage} {answers : List Nat} {clock later : Nat}
    (waited : HasWaited stages answers clock) (forward : clock ≤ later) :
    HasWaited stages answers later :=
  waited.imp fun _ _ elapsed => Nat.le_trans elapsed forward

theorem HasWaited.concat {stages : List Stage} {answers : List Nat} {clock last : Nat}
    {stage : Stage} (waited : HasWaited stages answers clock)
    (elapsed : last + stage.pause ≤ clock) :
    HasWaited (stages ++ [stage]) (answers ++ [last]) clock :=
  List.rel_append waited (.cons elapsed .nil)

/-- What was waited for is waited for later as well. -/
theorem Activity.Waited.mono {action : CustomAction} {answers : List Nat} {clock later : Nat}
    {activity : Activity} (waited : activity.Waited action answers clock)
    (forward : clock ≤ later) : activity.Waited action answers later := by
  cases activity with
  | opening | scripting | awaiting => exact waited
  | staging | calling | settling | lingering | sweeping | retiring =>
      exact HasWaited.mono waited forward
  | resting =>
      rcases waited with ⟨earlier, last, stage, answered, before, found, deadline⟩
      exact ⟨earlier, last, stage, answered, before.mono forward, found, deadline⟩

/-! ## Along the course -/

/-- Lowering a flag that is down leaves it down. -/
theorem CancelSignal.lowered_apply {signal : CancelSignal} (lowered : signal.raised = false) :
    (signal.apply (.set false)).raised = false := by
  rw [apply]
  split
  · exact lowered
  · rfl

/-- How the runner stands with an action that nobody has cancelled, and with its journal. -/
structure Runner.Progressing (job : Job) (reply : Reply) (journal : List JournalEntry)
    (runner : Runner) (activity : Activity) : Prop where
  busy : runner.worker = .busy job activity
  lowered : runner.signal.raised = false
  pursues : activity.Pursues job.action
  expects : activity.Expects job.action reply
  calls : callsIn journal = activity.callsMade job.action
  waited : activity.Waited job.action (answersIn journal) runner.clock
  recorded : runner.record = activity.recordShown job.action reply

namespace Runner

/-- Behind the last record nothing more is shown. -/
theorem ActionSection.lastShown {runner next : Runner} {link : Link} {job : Job}
    {activity following : Activity} (performed : ActionSection link job runner activity next)
    (busy : next.worker = .busy job following) (reply : Reply) :
    (following.recordShown job.action reply).or (activity.lastShown job.action reply) =
      following.lastShown job.action reply := by
  cases performed with
  | opens =>
      cases staged : job.action.stages.isEmpty with
      | true =>
          rw [runner.openJob_worker_of_script staged] at busy
          cases busy
          rfl
      | false =>
          rw [runner.openJob_worker_of_stages staged] at busy
          cases busy
          rfl
  | falls _ _ | fallsBeforeScript _ _ _ | retires => cases busy
  | _ =>
      cases busy
      rfl

/-- An answer makes its result of the record of a script. -/
theorem judge_answered {runner : Runner} {action : CustomAction}
    (recorded : runner.record = some (.start action)) (reply : Reply) :
    (runner.judge (.answered reply.outcome)).record =
      some ⟨action, reply.result.1, reply.result.2, false⟩ := by
  rw [Reply.result]
  cases reply.outcome with
  | error error =>
      change runner.record.map _ = _
      rw [recorded]
      rfl
  | ok outcome =>
      cases outcome with
      | success | unknown | inProgress | failed | canceled =>
          change runner.record.map _ = _
          rw [recorded]
          rfl

theorem judge_timedOut {runner : Runner} {action : CustomAction}
    (recorded : runner.record = some (.start action)) :
    (runner.judge .timedOut).record = some ⟨action, 0, .failed, false⟩ := by
  change runner.record.map _ = _
  rw [recorded]
  rfl

theorem scriptEnd_verdict (clock : Nat) (limit : Option Duration) (reply : Reply) :
    (scriptEnd clock (limit.map Duration.waitMilliseconds) reply).2 =
      if reply.isInTime limit then .answered reply.outcome else .timedOut := by
  cases limit with
  | none => rfl
  | some limit =>
      change (if _ then _ else _ : Option Nat × Verdict).2 = _
      rw [apply_ite Prod.snd]
      rfl

/-- The verdict on a script makes its conclusion of the record. -/
theorem judge_record {runner : Runner} {action : CustomAction} {reply : Reply} {verdict : Verdict}
    (recorded : runner.record = some (.start action)) (unstaged : action.stages = [])
    (expected : verdict.IsOf action reply) :
    (runner.judge verdict).record = some (action.concluded reply false) := by
  rcases expected with ⟨script, limit, given, fits, rfl⟩
  have conclusion : action.conclusion reply =
      if reply.isInTime limit then reply.result else (0, .failed) := by
    rw [CustomAction.conclusion, unstaged, given, fits]
    rfl
  rw [CustomAction.concluded, conclusion]
  cases inTime : reply.isInTime limit with
  | true => exact judge_answered recorded reply
  | false => exact judge_timedOut recorded

/-- After a stage the record shows the progress that is entered. -/
theorem record_setProgress {runner : Runner} {action : CustomAction} {done : Nat}
    (recorded : runner.record = some (action.underway done)) (progress : Float32)
    (outcome : Outcome) :
    (runner.setProgress progress outcome).record = some ⟨action, progress, outcome, false⟩ := by
  change runner.record.map _ = _
  rw [recorded, CustomAction.underway]
  split <;> rfl

namespace Progressing

variable {job : Job} {reply : Reply} {journal : List JournalEntry}
  {runner next : Runner} {activity : Activity}

/-- Nothing is lost by a change that is neither about the worker nor about the record. -/
theorem congr (progressing : Progressing job reply journal runner activity)
    (entries : List JournalEntry) (worker : next.worker = runner.worker)
    (lowered : next.signal.raised = false) (record : next.record = runner.record)
    (forward : runner.clock ≤ next.clock) (calls : callsIn entries = [])
    (answers : answersIn entries = []) :
    Progressing job reply (entries ++ journal) next activity where
  busy := worker.trans progressing.busy
  lowered := lowered
  pursues := progressing.pursues
  expects := progressing.expects
  calls := by
    rw [callsIn_append, calls, List.append_nil]
    exact progressing.calls
  waited := by
    rw [answersIn_append, answers, List.append_nil]
    exact progressing.waited.mono forward
  recorded := record.trans progressing.recorded

theorem opens (progressing : Progressing job reply journal runner .opening) :
    ∃ following, Progressing job reply journal (runner.openJob job) following := by
  cases staged : job.action.stages.isEmpty with
  | true =>
      exact ⟨.scripting, runner.openJob_worker_of_script staged, progressing.lowered,
        List.isEmpty_iff.mp staged, trivial, progressing.calls, progressing.waited, rfl⟩
  | false =>
      have some : job.action.stages ≠ [] := by
        rw [ne_eq, ← List.isEmpty_iff, staged]
        exact Bool.false_ne_true
      refine ⟨.staging 0 job.action.stages, runner.openJob_worker_of_stages staged,
        progressing.lowered, rfl, some, progressing.calls, ?_, rfl⟩
      rw [progressing.waited]
      exact .nil

/-- The calls of all stages before the one that is called are made. -/
theorem callsStage {done : Nat} {stage : Stage} {remaining : List Stage}
    (progressing : Progressing job reply journal runner (.staging done (stage :: remaining)))
    (link : Link) :
    Progressing job reply (.stageCalled runner.clock stage :: journal)
      ((runner.note (.stageCalled runner.clock stage)).moveTo job
        (.calling done stage remaining (dueAfter runner.clock (link.stage stage).delay)
          (link.stage stage).outcome))
      (.calling done stage remaining (dueAfter runner.clock (link.stage stage).delay)
        (link.stage stage).outcome) where
  busy := rfl
  lowered := progressing.lowered
  pursues := progressing.pursues
  expects := trivial
  calls := by
    rw [← List.singleton_append, callsIn_append, progressing.calls]
    exact (calls_take_succ progressing.pursues).symm
  waited := by
    rw [← List.singleton_append, answersIn_append]
    exact (List.append_nil _).symm ▸ progressing.waited
  recorded := progressing.recorded

theorem rests {done : Nat} {stage : Stage} {remaining : List Stage} {due : Option Nat}
    {answer : Except LinkError Outcome} {wait : Duration}
    (progressing : Progressing job reply journal runner
      (.calling done stage remaining due answer)) (fits : stage.wait = .ok wait) :
    Progressing job reply (.stageAnswered runner.clock answer :: journal)
      ((runner.note (.stageAnswered runner.clock answer)).moveTo job
        (.resting done remaining (runner.clock + wait.waitMilliseconds)))
      (.resting done remaining (runner.clock + wait.waitMilliseconds)) where
  busy := rfl
  lowered := progressing.lowered
  pursues := by
    have pursues : stage :: remaining = job.action.stages.drop done := progressing.pursues
    rw [Activity.Pursues, ← List.tail_drop, ← pursues]
    rfl
  expects := trivial
  calls := by
    rw [← List.singleton_append, callsIn_append]
    exact (List.append_nil _).symm ▸ progressing.calls
  waited := by
    have pause : stage.pause = wait.waitMilliseconds := by
      rw [Stage.pause, fits]
    refine ⟨answersIn journal, runner.clock, stage, ?_, progressing.waited,
      getElem?_of_drop progressing.pursues, pause ▸ rfl⟩
    rw [← List.singleton_append, answersIn_append]
    rfl
  recorded := progressing.recorded

theorem completesStage {done deadline : Nat} {stage : Stage} {remaining : List Stage}
    (progressing : Progressing job reply journal runner
      (.resting done (stage :: remaining) deadline)) (elapsed : deadline ≤ runner.clock) :
    Progressing job reply journal
      ((runner.setProgress (Execution.stageProgress (done + 1) job.action.stages.length)
        .inProgress).moveTo job (.staging (done + 1) (stage :: remaining)))
      (.staging (done + 1) (stage :: remaining)) where
  busy := rfl
  lowered := progressing.lowered
  pursues := progressing.pursues
  expects := List.cons_ne_nil stage remaining
  calls := progressing.calls
  waited := by
    rcases progressing.waited with ⟨earlier, last, called, answered, before, found, rfl⟩
    change HasWaited (job.action.stages.take (done + 1)) _ _
    rw [answered, List.take_add_one, found]
    exact before.concat elapsed
  recorded := by
    exact record_setProgress progressing.recorded _ .inProgress

/-- All calls of an action are made, and it settles with its conclusion. -/
theorem settles (lowered : runner.signal.raised = false)
    (calls : callsIn journal = job.action.calls)
    (waited : HasWaited job.action.stages (answersIn journal) runner.clock)
    (recorded : runner.record = some (job.action.concluded reply false)) :
    Progressing job reply journal (runner.settleDown job)
      (.settling (runner.clock + settleTime)) :=
  ⟨rfl, lowered, trivial, trivial, calls, waited, recorded⟩

/-- The last stage is over, and there are not more of them than can be counted. -/
theorem completesLast {done deadline : Nat}
    (progressing : Progressing job reply journal runner (.resting done [] deadline))
    (elapsed : deadline ≤ runner.clock) (listed : job.action.stages.length < 2 ^ 64) :
    Progressing job reply journal
      ((runner.setProgress (Execution.stageProgress (done + 1) job.action.stages.length)
        .success).settleDown job) (.settling (runner.clock + settleTime)) := by
  rcases progressing.waited with ⟨earlier, last, stage, answered, before, found, rfl⟩
  have nothing : job.action.stages.drop (done + 1) = [] := progressing.pursues.symm
  have inside : done < job.action.stages.length := (List.getElem?_eq_some_iff.mp found).1
  have all : job.action.stages.length = done + 1 :=
    Nat.le_antisymm (List.drop_eq_nil_iff.mp nothing) inside
  have staged : job.action.stages.isEmpty = false := by
    refine List.isEmpty_eq_false_iff_exists_mem.mpr ⟨stage, List.mem_of_getElem? found⟩
  have whole : job.action.stages = job.action.stages.take done ++ [stage] := by
    conv_lhs => rw [← List.take_append_drop (done + 1) job.action.stages, nothing,
      List.append_nil, List.take_add_one, found]
    rfl
  refine settles progressing.lowered ?_ ?_ ?_
  · have made : (job.action.calls).length ≤ done + 1 := by
      rw [CustomAction.calls, staged, ← all]
      exact Nat.le_of_eq (List.length_map _)
    exact progressing.calls.trans (List.take_of_length_le made)
  · rw [whole, answered]
    exact before.concat elapsed
  · rw [record_setProgress progressing.recorded, CustomAction.concluded, CustomAction.conclusion,
      staged, ← all, Execution.stageProgress_self (all ▸ Nat.succ_pos done) listed]
    rfl

theorem lacksScript (progressing : Progressing job reply journal runner .scripting)
    (missing : job.action.script = none) :
    Progressing job reply journal ((runner.setOutcome .failed).settleDown job)
      (.settling (runner.clock + settleTime)) := by
  have unstaged : job.action.stages = [] := progressing.pursues
  have waited : answersIn journal = [] := progressing.waited
  refine settles progressing.lowered ?_ ?_ ?_
  · rw [progressing.calls, CustomAction.calls, unstaged, missing]
    rfl
  · rw [unstaged, waited]
    exact .nil
  · change runner.record.map _ = _
    rw [progressing.recorded, CustomAction.concluded, CustomAction.conclusion, unstaged, missing]
    rfl

theorem callsScript {script : String} {limit : Option Duration} {link : Link}
    (progressing : Progressing job reply journal runner .scripting)
    (given : job.action.script = some script) (fits : job.action.limit = .ok limit)
    (replied : link.script script = reply) :
    ∃ following, Progressing job reply (.scriptCalled runner.clock script :: journal)
      ((runner.note (.scriptCalled runner.clock script)).moveTo job
        (.awaiting
          (scriptEnd runner.clock (limit.map Duration.waitMilliseconds) (link.script script)).1
          (scriptEnd runner.clock (limit.map Duration.waitMilliseconds) (link.script script)).2))
      following := by
  have unstaged : job.action.stages = [] := progressing.pursues
  refine ⟨_, rfl, progressing.lowered, unstaged, ?_, ?_, ?_, progressing.recorded⟩
  · refine ⟨script, limit, given, fits, ?_⟩
    rw [scriptEnd_verdict, replied]
  · rw [← List.singleton_append, callsIn_append, progressing.calls]
    change _ = job.action.calls
    rw [CustomAction.calls, unstaged, given]
    rfl
  · change answersIn _ = []
    rw [← List.singleton_append, answersIn_append, progressing.waited]
    rfl

theorem judges {due : Option Nat} {verdict : Verdict}
    (progressing : Progressing job reply journal runner (.awaiting due verdict)) :
    Progressing job reply journal ((runner.judge verdict).settleDown job)
      (.settling (runner.clock + settleTime)) := by
  have unstaged : job.action.stages = [] := progressing.pursues
  have waited : answersIn journal = [] := progressing.waited
  have recorded := judge_record progressing.recorded unstaged progressing.expects
  rcases runner.judge_eq verdict with ⟨change, _, judged⟩
  rw [judged] at recorded ⊢
  refine settles progressing.lowered progressing.calls ?_ recorded
  rw [unstaged, waited]
  exact .nil

/-- An action that is not over goes on along its course in every section. -/
theorem actionSection {link : Link}
    (progressing : Progressing job reply journal runner activity)
    (performed : ActionSection link job runner activity next)
    (timely : job.action.isTimely = true) (listed : job.action.stages.length < 2 ^ 64)
    (replied : activity = .scripting → ∀ script, job.action.script = some script →
      link.script script = reply) (unretired : activity ≠ .retiring) :
    ∃ following entries, next.journal = entries ++ runner.journal
      ∧ Progressing job reply (entries ++ journal) next following := by
  have standing := performed.not_failed timely progressing.pursues
  cases performed with
  | opens =>
      rcases progressing.opens with ⟨following, opened⟩
      exact ⟨following, [], rfl, opened⟩
  | runsOut => exact absurd rfl progressing.expects
  | dropsStage raised | cutsRest raised | dropsScript _ raised | cutsScript raised =>
      rw [progressing.lowered] at raised
      cases raised
  | callsStage _ => exact ⟨_, [_], rfl, progressing.callsStage link⟩
  | rests _ fits => exact ⟨_, [_], rfl, progressing.rests fits⟩
  | falls _ _ | fallsBeforeScript _ _ _ => exact absurd rfl standing
  | completesLast _ elapsed => exact ⟨_, [], rfl, progressing.completesLast elapsed listed⟩
  | completesStage _ elapsed => exact ⟨_, [], rfl, progressing.completesStage elapsed⟩
  | lacksScript missing => exact ⟨_, [], rfl, progressing.lacksScript missing⟩
  | callsScript given _ fits =>
      rcases progressing.callsScript given fits (replied rfl _ given) with ⟨following, called⟩
      exact ⟨following, [_], rfl, called⟩
  | @judges due verdict _ _ =>
      refine ⟨_, [], ?_, progressing.judges⟩
      rcases runner.judge_eq verdict with ⟨change, _, judged⟩
      rw [judged]
      rfl
  | consumes _ =>
      refine ⟨.lingering, [], rfl, rfl, ?_, trivial, trivial, progressing.calls,
        progressing.waited, ?_⟩
      · exact CancelSignal.lowered_apply progressing.lowered
      · change runner.record.map _ = _
        rw [progressing.recorded]
        rfl
  | clears _ =>
      exact ⟨.sweeping, [], rfl, rfl, progressing.lowered, trivial, trivial, progressing.calls,
        progressing.waited, rfl⟩
  | sweeps =>
      exact ⟨.retiring, [], rfl, rfl, CancelSignal.lowered_apply progressing.lowered, trivial,
        trivial, progressing.calls, progressing.waited, progressing.recorded⟩
  | retires => exact absurd rfl unretired

/-- Without a cancellation that is accepted the flag stays down. -/
theorem cancel (progressing : Progressing job reply journal runner activity) {raised : Bool}
    (ignored : raised = true → runner.isCancellable = false) :
    Progressing job reply journal (runner.cancel raised) activity := by
  cases raised with
  | true =>
      have idle : ¬ runner.isCancellable = true := Bool.eq_false_iff.mp (ignored rfl)
      rw [cancel_ignored idle]
      exact progressing
  | false =>
      have lowered : (runner.cancel false).signal.raised = false :=
        CancelSignal.lowered_apply progressing.lowered
      exact progressing.congr [] rfl lowered rfl (Nat.le_refl _) rfl rfl

end Progressing

end Runner

end FlightGuard
