import FlightGuard.Proofs.Action.Times
import FlightGuard.Proofs.Runner.StepModel

/-!
# When an action is over

In step with the clock every part acts at the very instant that it waits for.  So the latest instant
at which an action is over can be told from where the worker stands: its calls take a given time at
most, the waits behind its stages and the time to settle are known, and the reporter ends when its
next report is due.  A cancellation can only bring the end forward.
-/

namespace FlightGuard

namespace Runner

/-- No part has missed the instant that it waits for, and the next report is not far. -/
structure OnTime (runner : Runner) : Prop where
  worker : ∀ due, runner.workerDue? = some due → runner.clock ≤ due
  reporter : ∀ due, runner.reporter = some due →
    runner.clock ≤ due ∧ due ≤ runner.clock + reportInterval

theorem le_of_dueAfter {clock due : Nat} {delay : Option Nat}
    (after : dueAfter clock delay = some due) : clock ≤ due := by
  rcases Option.map_eq_some_iff.mp after with ⟨duration, _, rfl⟩
  exact Nat.le_add_right _ _

theorem le_of_scriptEnd {clock due : Nat} {limit : Option Nat} {reply : Reply}
    (ends : (scriptEnd clock limit reply).1 = some due) : clock ≤ due := by
  cases limit with
  | none => exact le_of_dueAfter ends
  | some limit =>
      rw [scriptEnd] at ends
      split at ends
      · exact le_of_dueAfter ends
      · exact Option.some.inj ends ▸ Nat.le_add_right _ _

namespace OnTime

variable {runner next : Runner}

theorem initial (clock : Nat) : (Runner.initial clock).OnTime where
  worker := by
    intro due none
    cases none
  reporter := by
    intro due none
    cases none

theorem le_due (onTime : runner.OnTime) {job : Job} {activity : Activity} {due : Nat}
    (busy : runner.worker = .busy job activity) (waited : activity.due? = some due) :
    runner.clock ≤ due := by
  apply onTime.worker
  rw [workerDue?, busy]
  exact waited

theorem actionSection (onTime : runner.OnTime) {link : Link} {job : Job} {activity : Activity}
    (performed : ActionSection link job runner activity next) : next.OnTime := by
  cases performed with
  | opens =>
      refine ⟨?_, ?_⟩
      · intro due waited
        rw [openJob] at waited
        cases staged : job.action.stages.isEmpty with
        | true =>
            simp only [staged, if_true] at waited
            cases waited
        | false =>
            simp only [staged, Bool.false_eq_true, if_false] at waited
            cases waited
      · intro due running
        obtain rfl := Option.some.inj running
        exact ⟨Nat.le_refl _, Nat.le_add_right _ _⟩
  | judges _ _ =>
      rcases runner.judge_eq _ with ⟨change, _, judged⟩
      rw [judged]
      refine ⟨?_, onTime.reporter⟩
      intro due waited
      obtain rfl := Option.some.inj waited
      exact Nat.le_add_right _ _
  | runsOut | dropsStage _ | rests _ _ | cutsRest _ | completesLast _ _ | lacksScript _
  | dropsScript _ _ | cutsScript _ =>
      refine ⟨?_, onTime.reporter⟩
      intro due waited
      obtain rfl := Option.some.inj waited
      exact Nat.le_add_right _ _
  | callsStage _ => exact ⟨fun _ => le_of_dueAfter, onTime.reporter⟩
  | callsScript _ _ _ => exact ⟨fun _ => le_of_scriptEnd, onTime.reporter⟩
  | falls _ _ | fallsBeforeScript _ _ _ | completesStage _ _ | consumes _ | clears _ | sweeps
  | retires =>
      refine ⟨?_, onTime.reporter⟩
      intro due none
      cases none

theorem workerSection (onTime : runner.OnTime) {link : Link}
    (performed : WorkerSection link runner next) : next.OnTime := by
  cases performed with
  | acts _ performed => exact onTime.actionSection performed
  | takes _ _ | parks _ _ | wakes _ _ | ends _ _ _ =>
      refine ⟨?_, onTime.reporter⟩
      intro due none
      cases none

theorem reporterSection (onTime : runner.OnTime) {link : Link}
    (performed : ReporterSection link runner next) : next.OnTime := by
  cases performed with
  | stops _ _ =>
      refine ⟨onTime.worker, ?_⟩
      intro due none
      cases none
  | reports running _ reached _ =>
      refine ⟨onTime.worker, ?_⟩
      intro following sent
      obtain rfl := Option.some.inj sent
      have punctual := (onTime.reporter _ running).1
      exact ⟨Nat.le_trans punctual (Nat.le_add_right _ _), Nat.add_le_add_right reached _⟩

theorem turn (onTime : runner.OnTime) {event : Event} (turn : Turn runner event next) :
    next.OnTime := by
  cases turn with
  | act link performed =>
      rcases nextSection_cases performed with byWorker | byReporter
      · exact onTime.workerSection byWorker
      · exact onTime.reporterSection byReporter
  | operate _ operation =>
      rcases runner.operate_eq operation with ⟨intake, wakeUp, signal, stopping, operated⟩
      rw [operated]
      exact ⟨onTime.worker, onTime.reporter⟩
  | pass _ forward inTime =>
      rcases (forall_earlier_iff runner.workerDue? runner.reporter
        (fun _ _ ordered early => Nat.le_trans early ordered)).mp inTime with ⟨worker, reporter⟩
      refine ⟨worker, ?_⟩
      intro due running
      have near := (onTime.reporter due running).2
      exact ⟨reporter due running, Nat.le_trans near (Nat.add_le_add_right forward _)⟩

end OnTime

theorem Reached.onTime {runner : Runner} (reached : runner.Reached) : runner.OnTime := by
  rcases reached with ⟨clock, leads⟩
  exact leads.preserves OnTime (fun _ _ _ turn onTime => onTime.turn turn) (.initial clock)

end Runner

/-! ## How long an action may take -/

/-- The calls of an action are over within a number of milliseconds. -/
structure Link.Settles (link : Link) (action : CustomAction) (delay : Nat) : Prop where
  stage : ∀ stage ∈ action.stages, ∃ taken ≤ delay, (link.stage stage).delay = some taken
  script : ∀ script limit, action.script = some script → action.limit = .ok limit →
    ∃ taken ≤ delay,
      (Runner.scriptEnd 0 (limit.map Duration.waitMilliseconds) (link.script script)).1 =
        some taken

/-- Milliseconds to wait behind a stage. -/
def Stage.pause (stage : Stage) : Nat :=
  match stage.wait with
  | .ok wait => wait.waitMilliseconds
  | .error _ => 0

/-- Milliseconds that stages take at most. -/
def stagesSpan (delay : Nat) : List Stage → Nat
  | [] => 0
  | stage :: stages => delay + stage.pause + stagesSpan delay stages

/-- Milliseconds that the calls of an action and the waits behind them take at most. -/
def CustomAction.span (delay : Nat) (action : CustomAction) : Nat :=
  if action.stages.isEmpty then delay else stagesSpan delay action.stages

/-- Milliseconds from the final result until the action is over at the latest. -/
def Runner.closingTime : Nat :=
  Runner.settleTime + Runner.reportInterval

/-- The latest instant at which an action at an activity is over, if there is one. -/
def Activity.latest (delay : Nat) (action : CustomAction) (clock : Nat) (reporter : Option Nat) :
    Activity → Option Nat
  | .opening => some (clock + action.span delay + Runner.closingTime)
  | .staging _ remaining => some (clock + stagesSpan delay remaining + Runner.closingTime)
  | .calling _ stage remaining due _ =>
      due.map (· + stage.pause + stagesSpan delay remaining + Runner.closingTime)
  | .resting _ remaining deadline =>
      some (deadline + stagesSpan delay remaining + Runner.closingTime)
  | .scripting => some (clock + delay + Runner.closingTime)
  | .awaiting due _ => due.map (· + Runner.closingTime)
  | .settling ends => some (ends + Runner.reportInterval)
  | .lingering => some (reporter.getD clock)
  | .sweeping | .retiring => some clock

namespace Runner

/-- An action is over at an instant at the latest, or has been over before. -/
inductive Completing (job : Job) (delay last : Nat) (runner : Runner) : Prop where
  | underway {activity : Activity} {latest : Nat} (busy : runner.worker = .busy job activity)
      (estimate : activity.latest delay job.action runner.clock runner.reporter = some latest)
      (early : latest ≤ last)
  | past (past : runner.Past job.order)

/-- The end of a script is as far from its beginning wherever the beginning is. -/
theorem scriptEnd_eq_map (clock : Nat) (limit : Option Nat) (reply : Reply) :
    (scriptEnd clock limit reply).1 = (scriptEnd 0 limit reply).1.map (clock + ·) := by
  have shifted : dueAfter clock reply.delay = (dueAfter 0 reply.delay).map (clock + ·) := by
    cases reply.delay with
    | none => rfl
    | some delay => simp [dueAfter]
  cases limit with
  | none => exact shifted
  | some limit =>
      rw [scriptEnd, scriptEnd]
      split
      · exact shifted
      · simp

/-- The worker is not brought down within an action that is timely. -/
theorem ActionSection.not_failed {runner next : Runner} {link : Link} {job : Job}
    {activity : Activity} (performed : ActionSection link job runner activity next)
    (timely : job.action.isTimely = true) (pursues : activity.Pursues job.action) :
    next.worker ≠ .failed := by
  cases performed with
  | @falls done stage remaining due answer error _ overlong =>
      have member : stage ∈ job.action.stages :=
        List.mem_of_mem_drop (pursues ▸ List.mem_cons_self)
      have fits := job.action.wait_isOk_of_isTimely timely member
      rw [overlong] at fits
      cases fits
  | fallsBeforeScript given _ overlong =>
      have fits := job.action.limit_isOk_of_isTimely timely pursues given
      rw [overlong] at fits
      cases fits
  | _ => exact Worker.noConfusion

/-- What is due by now and was not missed is due at this very instant. -/
theorem OnTime.eq_clock {runner : Runner} (onTime : runner.OnTime) {job : Job}
    {activity : Activity} {due : Nat} (busy : runner.worker = .busy job activity)
    (waited : activity.due? = some due) (elapsed : due ≤ runner.clock) : due = runner.clock :=
  Nat.le_antisymm elapsed (onTime.le_due busy waited)

/-- A worker that waits is not over with its action yet. -/
theorem IsWaiting.lt_latest {runner : Runner} (waits : runner.IsWaiting) {job : Job}
    {activity : Activity} {delay latest : Nat} (busy : runner.worker = .busy job activity)
    (estimate : activity.latest delay job.action runner.clock runner.reporter = some latest) :
    runner.clock < latest := by
  have waiting := waits.action busy
  cases activity with
  | opening | staging | scripting | sweeping | retiring => exact waiting.elim
  | calling done stage remaining due answer =>
      rcases Option.map_eq_some_iff.mp estimate with ⟨instant, expected, rfl⟩
      have ahead := waiting instant expected
      omega
  | resting done remaining deadline =>
      obtain rfl := Option.some.inj estimate
      have ahead := waiting.2
      omega
  | awaiting due verdict =>
      rcases Option.map_eq_some_iff.mp estimate with ⟨instant, expected, rfl⟩
      exact Nat.lt_add_right _ (waiting.2 instant expected)
  | settling ends =>
      obtain rfl := Option.some.inj estimate
      exact Nat.lt_add_right _ waiting
  | lingering =>
      rcases Option.ne_none_iff_exists'.mp waiting with ⟨due, running⟩
      rw [Activity.latest, running] at estimate
      obtain rfl := Option.some.inj estimate
      exact (waits.reporter due running).2

namespace Completing

variable {job : Job} {delay last : Nat} {runner next : Runner}

/-- An action that settles from now on is over in time. -/
theorem settleDown (runner : Runner) {latest : Nat} (early : runner.clock + closingTime ≤ latest) :
    Completing job delay latest (runner.settleDown job) := by
  refine .underway rfl rfl ?_
  rw [Nat.add_assoc]
  exact early

theorem of_actionSection {link : Link} {activity : Activity} {latest : Nat}
    (performed : ActionSection link job runner activity next)
    (busy : runner.worker = .busy job activity)
    (settles : link.Settles job.action delay) (timely : job.action.isTimely = true)
    (onTime : runner.OnTime) (numbered : runner.Numbered)
    (pursues : activity.Pursues job.action)
    (estimate : activity.latest delay job.action runner.clock runner.reporter = some latest) :
    Completing job delay latest next := by
  have ahead : ∀ {due : Nat}, activity.due? = some due → runner.clock ≤ due :=
    fun waited => onTime.le_due busy waited
  have standing := performed.not_failed timely pursues
  cases performed with
  | opens =>
      obtain rfl := Option.some.inj estimate
      cases staged : job.action.stages.isEmpty with
      | true =>
          refine .underway (runner.openJob_worker_of_script staged) rfl ?_
          rw [CustomAction.span, staged]
          exact Nat.le_refl _
      | false =>
          refine .underway (runner.openJob_worker_of_stages staged) rfl ?_
          rw [CustomAction.span, staged]
          exact Nat.le_refl _
  | runsOut | dropsStage _ | dropsScript _ _ =>
      obtain rfl := Option.some.inj estimate
      exact settleDown _ (Nat.add_le_add_right (Nat.le_add_right _ _) _)
  | lacksScript _ =>
      obtain rfl := Option.some.inj estimate
      exact settleDown _ (Nat.add_le_add_right (Nat.le_add_right _ _) _)
  | @callsStage done stage remaining _ =>
      obtain rfl := Option.some.inj estimate
      have member : stage ∈ job.action.stages :=
        List.mem_of_mem_drop (pursues ▸ List.mem_cons_self)
      rcases settles.stage stage member with ⟨taken, quick, replied⟩
      have answered : dueAfter runner.clock (link.stage stage).delay =
          some (runner.clock + taken) := by
        rw [replied]
        rfl
      refine .underway rfl (Option.map_eq_some_iff.mpr ⟨_, answered, rfl⟩) ?_
      rw [stagesSpan]
      omega
  | @rests done stage remaining due answer wait answered fits =>
      rcases (isDue_eq_true_iff _ _).mp answered with ⟨instant, rfl, elapsed⟩
      obtain rfl := Option.some.inj estimate
      have pause : stage.pause = wait.waitMilliseconds := by
        rw [Stage.pause, fits]
      refine .underway rfl rfl (Nat.le_of_eq ?_)
      rw [onTime.eq_clock busy rfl elapsed, pause]
  | falls _ _ | fallsBeforeScript _ _ _ => exact absurd rfl standing
  | cutsRest _ =>
      obtain rfl := Option.some.inj estimate
      exact settleDown _ (Nat.add_le_add_right (Nat.le_trans (ahead rfl) (Nat.le_add_right _ _)) _)
  | completesLast _ _ =>
      obtain rfl := Option.some.inj estimate
      exact settleDown _
        (Nat.add_le_add_right (Nat.le_trans (ahead rfl) (Nat.le_add_right _ _)) _)
  | completesStage _ _ =>
      obtain rfl := Option.some.inj estimate
      exact .underway rfl rfl (Nat.add_le_add_right (Nat.add_le_add_right (ahead rfl) _) _)
  | @callsScript script limit given _ fits =>
      obtain rfl := Option.some.inj estimate
      rcases settles.script script limit given fits with ⟨taken, quick, ended⟩
      have answered : (scriptEnd runner.clock (limit.map Duration.waitMilliseconds)
          (link.script script)).1 = some (runner.clock + taken) := by
        rw [scriptEnd_eq_map, ended]
        rfl
      refine .underway rfl (Option.map_eq_some_iff.mpr ⟨_, answered, rfl⟩) ?_
      omega
  | cutsScript _ =>
      rcases Option.map_eq_some_iff.mp estimate with ⟨instant, rfl, rfl⟩
      exact settleDown _ (Nat.add_le_add_right (ahead rfl) _)
  | @judges due verdict _ ended =>
      rcases Option.map_eq_some_iff.mp estimate with ⟨instant, rfl, rfl⟩
      rcases runner.judge_eq verdict with ⟨change, _, judged⟩
      rw [judged]
      exact settleDown _
        (Nat.add_le_add_right (ahead rfl) _)
  | consumes elapsed =>
      obtain rfl := Option.some.inj estimate
      refine .underway rfl rfl ?_
      have reached := ahead rfl
      change runner.reporter.getD runner.clock ≤ _
      cases running : runner.reporter with
      | none => exact Nat.le_trans reached (Nat.le_add_right _ _)
      | some due =>
          have near := (onTime.reporter due running).2
          exact Nat.le_trans near (Nat.add_le_add_right reached _)
  | clears alone =>
      rw [Activity.latest, alone] at estimate
      obtain rfl := Option.some.inj estimate
      exact .underway rfl rfl (Nat.le_refl _)
  | sweeps =>
      obtain rfl := Option.some.inj estimate
      exact .underway rfl rfl (Nat.le_refl _)
  | retires =>
      have last : ActionSection link job runner .retiring _ := .retires
      exact .past (numbered.past busy last)

theorem mono {earlier : Nat} (completing : Completing job delay earlier runner)
    (ordered : earlier ≤ last) : Completing job delay last runner := by
  cases completing with
  | underway busy estimate early => exact .underway busy estimate (Nat.le_trans early ordered)
  | past past => exact .past past

theorem workerSection {link : Link} (completing : Completing job delay last runner)
    (performed : WorkerSection link runner next) (settles : link.Settles job.action delay)
    (timely : job.action.isTimely = true) (onTime : runner.OnTime) (numbered : runner.Numbered)
    (pursuing : runner.Pursuing) : Completing job delay last next := by
  cases completing with
  | past past => exact .past (past.workerSection performed)
  | underway busy estimate early =>
      have completes := of_actionSection (performed.of_busy busy) busy settles timely onTime
        numbered (pursuing _ _ busy) estimate
      exact completes.mono early

/-- A reporter that ends does so before it is due, and one whose record is consumed ends. -/
theorem reporterSection {link : Link} (completing : Completing job delay last runner)
    (performed : ReporterSection link runner next) (coherent : runner.Coherent)
    (onTime : runner.OnTime) (past : runner.Past job.order → next.Past job.order) :
    Completing job delay last next := by
  cases completing with
  | past before => exact .past (past before)
  | @underway activity latest busy estimate early =>
      cases activity with
      | lingering =>
          obtain rfl := Option.some.inj estimate
          cases performed with
          | stops running _ =>
              refine .underway busy rfl (Nat.le_trans ?_ early)
              rw [running]
              exact (onTime.reporter _ running).1
          | reports _ _ _ told =>
              -- At this activity the record is consumed, so there is nothing to report.
              have consumed := coherent.record
              rw [busy] at consumed
              rw [RecordState.running_of_openReport told] at consumed
              cases consumed
      | opening | staging | calling | resting | scripting | awaiting | settling | sweeping
      | retiring =>
          rcases performed.frame with ⟨reporter, journal, rfl⟩
          exact .underway busy estimate early

theorem pass {instant : Nat} (completing : Completing job delay last runner)
    (waits : runner.IsWaiting) : Completing job delay last { runner with clock := instant } := by
  cases completing with
  | past past => exact .past ⟨past.beyond, past.running, past.listed⟩
  | @underway activity latest busy estimate early =>
      have waiting := waits.action busy
      cases activity with
      | opening | staging | scripting | sweeping | retiring => exact waiting.elim
      | calling | resting | awaiting | settling => exact .underway busy estimate early
      | lingering =>
          rcases Option.ne_none_iff_exists'.mp waiting with ⟨due, running⟩
          rw [Activity.latest, running] at estimate
          obtain rfl := Option.some.inj estimate
          refine .underway busy rfl ?_
          rw [running]
          exact early

/-- Where every part waits, an action that is not past ends later. -/
theorem past_of_waits (completing : Completing job delay last runner)
    (waits : runner.IsWaiting) (reached : last ≤ runner.clock) : runner.Past job.order := by
  cases completing with
  | past past => exact past
  | @underway activity latest busy estimate early =>
      have ahead := waits.lt_latest busy estimate
      exact absurd (Nat.le_trans early reached) (Nat.not_le_of_lt ahead)

end Completing

/-! ## Runs with calls that are answered -/

/-- A turn in which the calls of an action are over within a number of milliseconds. -/
def PromptTurn (action : CustomAction) (delay : Nat) (runner next : Runner) : Prop :=
  (∃ link, link.Settles action delay ∧ runner.nextSection link = some next)
    ∨ ∃ event, event ≠ .act ∧ Turn runner event next

/-- Turns lead to a runner, and in all of them the calls of an action are over in time. -/
def LeadsPromptly (action : CustomAction) (delay : Nat) : Runner → Runner → Prop :=
  Relation.ReflTransGen (PromptTurn action delay)

theorem PromptTurn.turn {action : CustomAction} {delay : Nat} {runner next : Runner}
    (prompt : PromptTurn action delay runner next) : ∃ event, Turn runner event next := by
  rcases prompt with ⟨link, _, performed⟩ | ⟨event, _, turn⟩
  · exact ⟨.act, .act link performed⟩
  · exact ⟨event, turn⟩

theorem LeadsPromptly.leads {action : CustomAction} {delay : Nat} {runner later : Runner}
    (prompt : LeadsPromptly action delay runner later) : Leads runner later :=
  Relation.ReflTransGen.mono (fun _ _ turn => turn.turn) runner later prompt

/-- Without clients, under a link that answers in time. -/
theorem FlowsUnder.leadsPromptly {link : Link} {action : CustomAction} {delay : Nat}
    (settles : link.Settles action delay) {runner later : Runner}
    (flows : FlowsUnder link runner later) : LeadsPromptly action delay runner later := by
  refine Relation.ReflTransGen.mono ?_ runner later flows
  rintro runner next (performed | turn)
  · exact Or.inl ⟨link, settles, performed⟩
  · exact Or.inr ⟨.pass, Event.noConfusion, turn⟩

/-- An action that is over in time stays so whatever turn is taken. -/
theorem Completing.turn {job : Job} {delay last : Nat} {runner next : Runner}
    (completing : Completing job delay last runner) (timely : job.action.isTimely = true)
    (reached : runner.Reached) (prompt : PromptTurn job.action delay runner next) :
    Completing job delay last next := by
  have past : runner.Past job.order → next.Past job.order := by
    rcases prompt.turn with ⟨event, turn⟩
    exact fun past => past.turn turn
  rcases prompt with ⟨link, settles, performed⟩ | ⟨event, other, turn⟩
  · rcases nextSection_cases performed with byWorker | byReporter
    · exact completing.workerSection byWorker settles timely
        reached.onTime reached.numbered reached.pursuing
    · exact completing.reporterSection byReporter reached.coherent
        reached.onTime past
  · cases turn with
    | act link performed => exact absurd rfl other
    | operate _ operation =>
        rcases runner.operate_eq operation with ⟨intake, wakeUp, signal, stopping, operated⟩
        rw [operated] at past ⊢
        cases completing with
        | underway busy estimate early => exact .underway busy estimate early
        | past before => exact .past (past before)
    | pass waits _ _ => exact completing.pass waits

theorem Completing.leads {job : Job} {delay last : Nat} {runner later : Runner}
    (completing : Completing job delay last runner) (timely : job.action.isTimely = true)
    (reached : runner.Reached) (prompt : LeadsPromptly job.action delay runner later) :
    Completing job delay last later := by
  induction prompt with
  | refl => exact completing
  | tail before turn induction =>
      exact induction.turn timely (reached.leads (LeadsPromptly.leads before)) turn

/-- An action whose calls are answered in time is past when its latest instant is. -/
theorem LeadsPromptly.past {job : Job} {activity : Activity} {delay latest : Nat}
    {runner later : Runner} (prompt : LeadsPromptly job.action delay runner later)
    (reached : runner.Reached) (timely : job.action.isTimely = true)
    (busy : runner.worker = .busy job activity)
    (estimate : activity.latest delay job.action runner.clock runner.reporter = some latest)
    (waits : later.IsWaiting) (elapsed : latest ≤ later.clock) : later.Past job.order := by
  have underway : Completing job delay latest runner :=
    .underway busy estimate (Nat.le_refl _)
  exact (underway.leads timely reached prompt).past_of_waits waits elapsed

end Runner

end FlightGuard
