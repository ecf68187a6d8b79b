import FlightGuard.Proofs.Runner.Completion
import FlightGuard.Proofs.Runner.Glimpses
import FlightGuard.Proofs.Runner.Results

/-!
# The pace of the reporter

The reporter keeps a time of its own.  Whatever the worker does, and whenever a report was sent, the
next one is due a number of intervals after the action has begun.  Where both parts are due at one
instant the worker goes first, so an instant is reported only when the worker has done all that it
does then.

An action that nobody cancels is reported until its record is consumed.  The first report that is
due from then on is not sent: the reporter ends instead, and at that very instant the record is
cleared and the worker looks for the next action.
-/

namespace FlightGuard.Runner

/-! ## What was entered since a moment -/

/-- Parts of a kind that were entered into the journal since a moment, the earliest first. -/
def partsSince {Part : Type} (part : JournalEntry → Option Part) (runner before : Runner) :
    List Part :=
  ((runner.enteredSince before).filterMap part).reverse

variable {Part : Type} {part : JournalEntry → Option Part}

theorem partsSince_self (runner : Runner) : partsSince part runner runner = [] := by
  rw [partsSince, enteredSince_eq (show runner.journal = [] ++ runner.journal from rfl)]
  rfl

theorem partsSince_congr {runner next : Runner} (journal : next.journal = runner.journal)
    (before : Runner) : partsSince part next before = partsSince part runner before := by
  rw [partsSince, partsSince, enteredSince, journal, enteredSince]

theorem partsSince_cons {runner next before : Runner} {entry : JournalEntry}
    (grown : before.journal <:+ runner.journal) (journal : next.journal = entry :: runner.journal) :
    partsSince part next before = partsSince part runner before ++ (part entry).toList := by
  rcases grown with ⟨entries, grown⟩
  have later : next.journal = (entry :: entries) ++ before.journal := by
    rw [journal, ← grown]
    rfl
  rw [partsSince, partsSince, enteredSince_eq grown.symm, enteredSince_eq later,
    List.filterMap_cons]
  cases part entry with
  | none => exact (List.append_nil _).symm
  | some value => exact List.reverse_cons

/-- An entry that has no part of a kind adds none. -/
theorem partsSince_of_none {runner next before : Runner} {entry : JournalEntry}
    (grown : before.journal <:+ runner.journal) (journal : next.journal = entry :: runner.journal)
    (foreign : part entry = none) :
    partsSince part next before = partsSince part runner before := by
  rw [partsSince_cons grown journal, foreign]
  exact List.append_nil _

/-- A section of an action adds one entry to the journal at most, which is no report. -/
theorem ActionSection.journal_cases {runner next : Runner} {link : Link} {job : Job}
    {activity : Activity} (performed : ActionSection link job runner activity next) :
    next.journal = runner.journal
      ∨ ∃ entry, next.journal = entry :: runner.journal ∧ entry.report? = none := by
  cases performed with
  | callsStage _ | rests _ _ | falls _ _ | callsScript _ _ _ => exact Or.inr ⟨_, rfl, rfl⟩
  | judges _ _ =>
      rcases runner.judge_eq _ with ⟨change, _, judged⟩
      rw [judged]
      exact Or.inl rfl
  | _ => exact Or.inl rfl

theorem Turn.journal_suffix {runner next : Runner} {event : Event}
    (turn : Turn runner event next) : runner.journal <:+ next.journal := by
  cases turn with
  | act link performed =>
      rcases nextSection_cases performed with byWorker | byReporter
      · cases byWorker with
        | takes _ _ | parks _ _ | wakes _ _ | ends _ _ _ => exact List.suffix_rfl
        | acts _ performed =>
            rcases performed.journal_cases with same | ⟨entry, noted, _⟩
            · rw [same]
            · rw [noted]
              exact List.suffix_cons entry _
      · cases byReporter with
        | stops _ _ => exact List.suffix_rfl
        | reports _ _ _ _ => exact List.suffix_cons _ _
  | operate _ operation =>
      rcases runner.operate_eq operation with ⟨intake, wakeUp, signal, stopping, operated⟩
      rw [operated]
  | pass _ _ _ => exact List.suffix_rfl

theorem Turn.clock_le {runner next : Runner} {event : Event} (turn : Turn runner event next) :
    runner.clock ≤ next.clock := by
  cases turn with
  | act link performed => exact Nat.le_of_eq (nextSection_clock performed).symm
  | operate _ operation =>
      rcases runner.operate_eq operation with ⟨intake, wakeUp, signal, stopping, operated⟩
      rw [operated]
  | pass _ forward _ => exact forward

theorem Leads.journal_suffix {start next : Runner} (leads : Leads start next) :
    start.journal <:+ next.journal := by
  refine leads.preserves (start.journal <:+ ·.journal) ?_ List.suffix_rfl
  exact fun _ _ _ turn grown => grown.trans turn.journal_suffix

theorem Leads.clock_le {start next : Runner} (leads : Leads start next) :
    start.clock ≤ next.clock := by
  refine leads.preserves (start.clock ≤ ·.clock) ?_ (Nat.le_refl _)
  exact fun _ _ _ turn forward => Nat.le_trans forward turn.clock_le

/-! ## Runs in which an action is not cancelled -/

/-- A turn over links of a kind that cancels no action which the worker is at. -/
inductive Spared (links : Link → Prop) (job : Job) (runner : Runner) : Runner → Prop where
  | act {link : Link} {next : Runner} (allowed : links link)
      (performed : runner.nextSection link = some next) : Spared links job runner next
  | operate (waits : runner.IsWaiting) (operation : Operation)
      (spares : operation = .cancel true → runner.isAt job = true →
        runner.isCancellable = false) :
      Spared links job runner (runner.operate operation)
  | pass (waits : runner.IsWaiting) {instant : Nat} (forward : runner.clock ≤ instant)
      (inTime : ∀ due, runner.due? = some due → instant ≤ due) :
      Spared links job runner { runner with clock := instant }

/-- Such turns lead from one runner to another. -/
def LeadsSpared (links : Link → Prop) (job : Job) : Runner → Runner → Prop :=
  Relation.ReflTransGen (Spared links job)

variable {links : Link → Prop} {job : Job}

theorem Spared.turn {runner next : Runner} (spared : Spared links job runner next) :
    ∃ event, Turn runner event next := by
  cases spared with
  | act _ performed => exact ⟨.act, .act _ performed⟩
  | operate waits operation _ => exact ⟨_, .operate waits operation⟩
  | pass waits forward inTime => exact ⟨.pass, .pass waits forward inTime⟩

theorem LeadsSpared.leads {runner next : Runner} (spared : LeadsSpared links job runner next) :
    Leads runner next :=
  Relation.ReflTransGen.mono (fun _ _ spared => spared.turn) runner next spared

theorem LeadsSpared.prompt {delay : Nat}
    (settles : ∀ link, links link → link.Settles job.action delay) {runner next : Runner}
    (spared : LeadsSpared links job runner next) :
    LeadsPromptly job.action delay runner next := by
  refine Relation.ReflTransGen.mono ?_ runner next spared
  rintro runner next (⟨allowed, performed⟩ | ⟨waits, operation, _⟩ | ⟨waits, forward, inTime⟩)
  · exact Or.inl ⟨_, settles _ allowed, performed⟩
  · exact Or.inr ⟨_, Event.noConfusion, .operate waits operation⟩
  · exact Or.inr ⟨_, Event.noConfusion, .pass waits forward inTime⟩

/-- Without clients no action is cancelled. -/
theorem FlowsUnder.leadsSpared {link : Link} (allowed : links link) {runner next : Runner}
    (flows : FlowsUnder link runner next) : LeadsSpared links job runner next := by
  refine Relation.ReflTransGen.mono ?_ runner next flows
  rintro runner next (performed | turn)
  · exact .act allowed performed
  · cases turn with
    | pass waits forward inTime => exact .pass waits forward inTime

/-- Where the worker has something to do it is the worker's turn. -/
theorem Spared.workerSection {runner next : Runner} (spared : Spared links job runner next)
    (awake : ¬ runner.WorkerWaits) : ∃ link, WorkerSection link runner next := by
  cases spared with
  | @act link _ _ performed =>
      rcases Option.or_eq_some_iff.mp performed with byWorker | ⟨idle, _⟩
      · exact ⟨link, workerSection_cases byWorker⟩
      · exact absurd ((runner.workerSection_eq_none_iff link).mp idle) awake
  | operate waits _ _ | pass waits _ _ => exact absurd (runner.isWaiting_iff.mp waits).1 awake

/-- An action begins with the creation of its record. -/
theorem Spared.opens {start next : Runner} (spared : Spared links job start next)
    (opening : start.worker = .busy job .opening) : next = start.openJob job := by
  have awake : ¬ start.WorkerWaits := by
    rw [WorkerWaits, opening]
    exact id
  rcases spared.workerSection awake with ⟨link, performed⟩
  cases performed.of_busy opening with
  | opens => rfl

/-! ## While the record is not consumed -/

/-- The record of an action is there, and shows no result before the action has one. -/
def Shows (runner : Runner) (job : Job) (activity : Activity) : Prop :=
  ∃ progress outcome, runner.record = some ⟨job.action, progress, outcome, false⟩
    ∧ (activity.isExecuting = true → outcome = .inProgress)

/--
An action that nobody cancels has a record that is not consumed, and a reporter whose next report is
due a number of intervals after the beginning.  As long as the worker has something to do at an
instant nothing was reported at it.
-/
structure Paced (job : Job) (begun count : Nat) (activity : Activity) (runner : Runner) :
    Prop where
  busy : runner.worker = .busy job activity
  running : activity.recordState = .running
  lowered : runner.signal.raised = false
  shows : runner.Shows job activity
  reporter : runner.reporter = some (begun + reportInterval * count)
  unreported : ¬ runner.WorkerWaits →
    begun + reportInterval * count < runner.clock + reportInterval

/-- What a turn can do to an action that nobody cancels while its record is not consumed. -/
inductive PacedTurn (links : Link → Prop) (job : Job) (begun count : Nat) (activity : Activity)
    (runner : Runner) : Runner → Prop where
  | works {link : Link} {following : Activity} {next : Runner} (allowed : links link)
      (performed : ActionSection link job runner activity next)
      (near : begun + reportInterval * count < runner.clock + reportInterval)
      (paced : next.Paced job begun count following) :
      PacedTurn links job begun count activity runner next
  | consumes (settled : activity = .settling runner.clock)
      (ahead : runner.clock ≤ begun + reportInterval * count)
      (near : begun + reportInterval * count < runner.clock + reportInterval) :
      PacedTurn links job begun count activity runner (runner.consumeRecord job)
  | reports {report : ProgressReport} {answer : Option LinkError} {next : Runner}
      (waits : runner.WorkerWaits) (present : begun + reportInterval * count = runner.clock)
      (told : openReport runner.record = some report) (waiting : next.IsWaiting)
      (clock : next.clock = runner.clock) (record : next.record = runner.record)
      (journal : next.journal = .reported runner.clock report answer :: runner.journal)
      (paced : next.Paced job begun (count + 1) activity) :
      PacedTurn links job begun count activity runner next
  | stays {next : Runner} (waits : runner.IsWaiting) (forward : runner.clock ≤ next.clock)
      (record : next.record = runner.record) (journal : next.journal = runner.journal)
      (paced : next.Paced job begun count activity) :
      PacedTurn links job begun count activity runner next

/-- An action that waits goes on to at the same instant, as long as the flag is down. -/
theorem ActionWaits.congr {runner next : Runner} {activity : Activity}
    (waits : runner.ActionWaits activity) (clock : next.clock = runner.clock)
    (lowered : next.signal.raised = false) (running : activity.recordState = .running) :
    next.ActionWaits activity := by
  cases activity with
  | calling | settling =>
      rw [ActionWaits, clock]
      exact waits
  | resting | awaiting =>
      rw [ActionWaits, clock]
      exact ⟨lowered, waits.2⟩
  | lingering => cases running
  | opening | staging | scripting | sweeping | retiring => exact waits.elim

theorem record_setProgress_eq {runner : Runner} {execution : Execution}
    (recorded : runner.record = some execution) (progress : Float32) (outcome : Outcome) :
    (runner.setProgress progress outcome).record = some { execution with progress, outcome } := by
  rw [setProgress, recorded]
  rfl

theorem record_setOutcome_eq {runner : Runner} {execution : Execution}
    (recorded : runner.record = some execution) (outcome : Outcome) :
    (runner.setOutcome outcome).record = some { execution with outcome } := by
  rw [setOutcome, recorded]
  rfl

/-- An action that is executed shows no result until it has one. -/
theorem ActionSection.shows {runner next : Runner} {link : Link} {activity following : Activity}
    (performed : ActionSection link job runner activity next)
    (shows : runner.Shows job activity) (running : activity.recordState = .running)
    (busy : next.worker = .busy job following) (goesOn : following.recordState = .running) :
    next.Shows job following := by
  rcases shows with ⟨progress, outcome, recorded, unfinished⟩
  cases performed with
  | opens | clears _ | sweeps | retires => cases running
  | consumes _ =>
      cases busy
      cases goesOn
  | falls _ _ | fallsBeforeScript _ _ _ => cases busy
  | callsStage _ | rests _ _ | callsScript _ _ _ =>
      cases busy
      exact ⟨progress, outcome, recorded, fun _ => unfinished rfl⟩
  | completesStage _ _ =>
      cases busy
      exact ⟨_, _, record_setProgress_eq recorded _ _, fun _ => rfl⟩
  | completesLast _ _ =>
      cases busy
      exact ⟨_, _, record_setProgress_eq recorded _ _, Bool.noConfusion⟩
  | runsOut =>
      cases busy
      exact ⟨progress, outcome, recorded, Bool.noConfusion⟩
  | dropsStage _ | cutsRest _ | lacksScript _ | dropsScript _ _ | cutsScript _ =>
      cases busy
      exact ⟨_, _, record_setOutcome_eq recorded _, Bool.noConfusion⟩
  | @judges due verdict _ _ =>
      rcases runner.judge_eq verdict with ⟨change, kept, judged⟩
      rw [judged] at busy ⊢
      cases busy
      have kept : (change ⟨job.action, progress, outcome, false⟩).action = job.action
          ∧ (change ⟨job.action, progress, outcome, false⟩).consumed = false := kept _
      have entered : runner.record.map change =
          some (change ⟨job.action, progress, outcome, false⟩) := by
        rw [recorded, Option.map_some]
      generalize change ⟨job.action, progress, outcome, false⟩ = result at kept entered
      rcases kept with ⟨action, consumed⟩
      refine ⟨result.progress, result.outcome, entered.trans ?_, Bool.noConfusion⟩
      rw [← action, ← consumed]

namespace Paced

variable {begun count : Nat} {activity : Activity} {runner next : Runner}

/-- An action is paced from the creation of its record. -/
theorem openJob {start : Runner} (coherent : start.Coherent)
    (opening : start.worker = .busy job .opening) :
    ∃ activity, (start.openJob job).Paced job start.clock 0 activity := by
  have lowered : start.signal.raised = false := by
    apply coherent.lowered
    rw [opening]
    exact RecordState.noConfusion
  have paced : ∀ activity, (start.openJob job).worker = .busy job activity →
      activity.recordState = .running → (start.openJob job).Paced job start.clock 0 activity := by
    intro activity busy running
    exact {
      busy, running, lowered
      shows := ⟨0, .inProgress, rfl, fun _ => rfl⟩
      reporter := rfl
      unreported := fun _ => Nat.lt_add_of_pos_right (by decide) }
  cases staged : job.action.stages.isEmpty with
  | true => exact ⟨_, paced _ (start.openJob_worker_of_script staged) rfl⟩
  | false => exact ⟨_, paced _ (start.openJob_worker_of_stages staged) rfl⟩

theorem exists_report (paced : runner.Paced job begun count activity) :
    ∃ report, openReport runner.record = some report := by
  rcases paced.shows with ⟨progress, outcome, recorded, _⟩
  rw [recorded]
  exact ⟨_, rfl⟩

theorem isCancellable (paced : runner.Paced job begun count activity) :
    runner.isCancellable = true := by
  rcases paced.shows with ⟨progress, outcome, recorded, _⟩
  rw [Runner.isCancellable, recorded]
  rfl

/-- A part that is behind its time would have acted before. -/
theorem le_due (paced : runner.Paced job begun count activity) (reached : runner.Reached) :
    runner.clock ≤ begun + reportInterval * count :=
  (reached.onTime.reporter _ paced.reporter).1

/-- A worker that waits goes on to where neither the clock nor the flag has a reason for it. -/
theorem waitsOn (paced : runner.Paced job begun count activity) (waits : runner.WorkerWaits)
    (busy : next.worker = .busy job activity) (clock : next.clock = runner.clock)
    (lowered : next.signal.raised = false) : next.WorkerWaits := by
  rw [WorkerWaits, paced.busy] at waits
  rw [WorkerWaits, busy]
  exact ActionWaits.congr waits clock lowered paced.running

theorem actionSection {link : Link} (paced : runner.Paced job begun count activity)
    (reached : runner.Reached) (timely : job.action.isTimely = true)
    (awake : ¬ runner.WorkerWaits) (allowed : links link)
    (performed : ActionSection link job runner activity next) :
    PacedTurn links job begun count activity runner next := by
  have pursues := reached.pursuing job activity paced.busy
  have standing := performed.not_failed timely pursues
  have running := paced.running
  have near := paced.unreported awake
  -- The worker goes on at the same instant, and the reporter and the flag stay as they are.
  have goesOn : ∀ following, next.worker = .busy job following →
      following.recordState = .running → next.signal = runner.signal →
      next.reporter = runner.reporter → next.Paced job begun count following := by
    intro following busy goesOn signal reporter
    exact {
      busy
      running := goesOn
      lowered := signal ▸ paced.lowered
      shows := performed.shows paced.shows running busy goesOn
      reporter := reporter.trans paced.reporter
      unreported := fun _ => performed.clock_eq ▸ near }
  cases performed.phase pursues with
  | opens | clears _ | sweeps | retires => cases running
  | executes _ following _ _ =>
      rcases following with failed | ⟨following, rfl, executing⟩
      · exact absurd failed standing
      · exact .works allowed performed near
          (goesOn following rfl (Activity.recordState_of_isExecuting executing) rfl rfl)
  | concludes _ _ => exact .works allowed performed near (goesOn _ rfl rfl rfl rfl)
  | consumes elapsed =>
      obtain rfl := reached.onTime.eq_clock paced.busy rfl elapsed
      exact .consumes rfl (paced.le_due reached) near

theorem reporterSection {link : Link} (paced : runner.Paced job begun count activity)
    (reached : runner.Reached) (waits : runner.WorkerWaits)
    (performed : ReporterSection link runner next) :
    PacedTurn links job begun count activity runner next := by
  cases performed with
  | stops _ idle =>
      rcases paced.exists_report with ⟨report, told⟩
      rcases idle with raised | ⟨_, silent⟩
      · rw [paced.lowered] at raised
        cases raised
      · rw [told] at silent
        cases silent
  | @reports due report running lowered elapsed told =>
      obtain rfl := Option.some.inj (running.symm.trans paced.reporter)
      have present : begun + reportInterval * count = runner.clock :=
        Nat.le_antisymm elapsed (paced.le_due reached)
      have later : begun + reportInterval * (count + 1) =
          begun + reportInterval * count + reportInterval := rfl
      refine .reports waits present told ?_ rfl rfl rfl ?_
      · refine (isWaiting_iff _).mpr ⟨paced.waitsOn waits paced.busy rfl lowered, ?_⟩
        intro due following
        obtain rfl := Option.some.inj following
        exact ⟨lowered, present ▸ Nat.lt_add_of_pos_right (by decide)⟩
      · refine {
          busy := paced.busy
          running := paced.running
          lowered
          shows := paced.shows
          reporter := by rw [later]; rfl
          unreported := ?_ }
        intro awake
        refine absurd ?_ awake
        exact paced.waitsOn waits paced.busy rfl lowered

/-- At one instant the worker does not begin to act without a reason. -/
theorem stays (paced : runner.Paced job begun count activity) (reached : runner.Reached)
    (waits : runner.IsWaiting) (worker : next.worker = runner.worker)
    (record : next.record = runner.record) (reporter : next.reporter = runner.reporter)
    (lowered : next.signal.raised = false) (forward : runner.clock ≤ next.clock) :
    next.Paced job begun count activity where
  busy := worker.trans paced.busy
  running := paced.running
  lowered
  shows := by
    rw [Shows, record]
    exact paced.shows
  reporter := reporter.trans paced.reporter
  unreported := by
    intro awake
    rcases Nat.eq_or_lt_of_le forward with same | later
    · have standing := paced.waitsOn (runner.isWaiting_iff.mp waits).1 (worker.trans paced.busy)
        same.symm lowered
      exact absurd standing awake
    · have near := (reached.onTime.reporter _ paced.reporter).2
      exact Nat.lt_of_le_of_lt near (Nat.add_lt_add_right later _)

theorem turn (paced : runner.Paced job begun count activity) (reached : runner.Reached)
    (timely : job.action.isTimely = true) (spared : Spared links job runner next) :
    PacedTurn links job begun count activity runner next := by
  cases spared with
  | @act link _ allowed performed =>
      rcases Option.or_eq_some_iff.mp performed with byWorker | ⟨idle, byReporter⟩
      · have awake : ¬ runner.WorkerWaits := by
          rw [← runner.workerSection_eq_none_iff link, byWorker]
          exact Option.some_ne_none next
        exact paced.actionSection reached timely awake allowed
          ((workerSection_cases byWorker).of_busy paced.busy)
      · have waits := (runner.workerSection_eq_none_iff link).mp idle
        exact paced.reporterSection reached waits (reporterSection_cases byReporter)
  | operate waits operation spares =>
      rcases runner.operate_cases operation with
        ⟨raised, rfl⟩ | ⟨intake, wakeUp, stopping, operated⟩
      · have lowered : (runner.cancel raised).signal.raised = false := by
          cases raised with
          | true =>
              have idle := spares rfl (isAt_of_busy paced.busy)
              rw [paced.isCancellable] at idle
              cases idle
          | false => exact CancelSignal.apply_set_raised reached.coherent.kept false
        rcases runner.cancel_frame raised with ⟨signal, cancelled⟩
        rw [operate]
        rw [cancelled] at lowered ⊢
        exact .stays waits (Nat.le_refl _) rfl rfl
          (paced.stays reached waits rfl rfl rfl lowered (Nat.le_refl _))
      · rw [operated]
        exact .stays waits (Nat.le_refl _) rfl rfl
          (paced.stays reached waits rfl rfl rfl paced.lowered (Nat.le_refl _))
  | pass waits forward _ =>
      exact .stays waits forward rfl rfl
        (paced.stays reached waits rfl rfl rfl paced.lowered forward)

end Paced

/-! ## Behind the record -/

/--
The record of an action was consumed at a moment, and is cleared at a known instant.  Until then
nothing is reported, and what is next is left to the worker at that instant.
-/
inductive Closing (links : Link → Prop) (job : Job) (cleared : Nat) (consumed runner : Runner) :
    Prop where
  | lingering (busy : runner.worker = .busy job .lingering)
      (record : runner.record = consumed.record) (journal : runner.journal = consumed.journal)
      (elapsed : consumed.clock ≤ runner.clock) (early : runner.clock ≤ cleared)
      (silenced : runner.reporter = some cleared
        ∨ (runner.reporter = none ∧ runner.clock = cleared))
  | emptied {activity : Activity} (busy : runner.worker = .busy job activity)
      (ending : activity = .sweeping ∨ activity = .retiring)
      (journal : runner.journal = consumed.journal) (present : runner.clock = cleared)
  | past {freed : Runner} (before : LeadsSpared links job consumed freed)
      (looks : freed.worker = .looking) (absent : freed.record = none)
      (journal : freed.journal = consumed.journal) (present : freed.clock = cleared)
      (past : freed.Past job.order) (after : LeadsSpared links job freed runner)

namespace Closing

variable {cleared : Nat} {consumed runner next : Runner}

/-- A record that is consumed now is cleared when the next report would be due. -/
theorem consumeRecord {due : Nat} (runner : Runner) (running : runner.reporter = some due)
    (ahead : runner.clock ≤ due) :
    Closing links job due (runner.consumeRecord job) (runner.consumeRecord job) :=
  .lingering rfl rfl rfl (Nat.le_refl _) ahead (Or.inl running)

/-- The worker waits for the reporter, which ends when its next report would be due. -/
theorem of_lingering (busy : runner.worker = .busy job .lingering)
    (record : runner.record = consumed.record) (journal : runner.journal = consumed.journal)
    (elapsed : consumed.clock ≤ runner.clock) (early : runner.clock ≤ cleared)
    (silenced : runner.reporter = some cleared
      ∨ (runner.reporter = none ∧ runner.clock = cleared))
    (reached : runner.Reached) (spared : Spared links job runner next) :
    Closing links job cleared consumed next := by
  have state : RecordState.ofRecord runner.record = .consumed := by
    rw [reached.coherent.record, busy]
    rfl
  cases spared with
  | act _ performed =>
      rcases nextSection_cases performed with byWorker | byReporter
      · cases byWorker.of_busy busy with
        | clears alone =>
            rcases silenced with running | ⟨_, present⟩
            · rw [alone] at running
              cases running
            · exact .emptied rfl (Or.inl rfl) journal present
      · cases byReporter with
        | @stops due running idle =>
            have due_eq : due = cleared := by
              rcases silenced with ahead | ⟨none, _⟩
              · exact Option.some.inj (running.symm.trans ahead)
              · rw [none] at running
                cases running
            have late : due ≤ runner.clock := by
              rcases idle with raised | ⟨late, _⟩
              · have running := reached.coherent.raised raised
                rw [state] at running
                cases running
              · exact late
            have present : runner.clock = cleared := Nat.le_antisymm early (due_eq ▸ late)
            exact .lingering busy record journal elapsed early (Or.inr ⟨rfl, present⟩)
        | reports _ _ _ told =>
            rw [RecordState.running_of_openReport told] at state
            cases state
  | operate _ operation _ =>
      rcases runner.operate_eq operation with ⟨intake, wakeUp, signal, stopping, operated⟩
      rw [operated]
      exact .lingering busy record journal elapsed early silenced
  | @pass waits instant forward inTime =>
      rcases silenced with running | ⟨none, _⟩
      · have both := (forall_earlier_iff runner.workerDue? runner.reporter
          (fun _ _ ordered early => Nat.le_trans early ordered)).mp inTime
        exact .lingering busy record journal (Nat.le_trans elapsed forward)
          (both.2 cleared running) (Or.inl running)
      · exact absurd none (waits.action busy)

/-- Behind its record an action waits for nothing. -/
theorem awake {activity : Activity} (busy : runner.worker = .busy job activity)
    (ending : activity = .sweeping ∨ activity = .retiring) : ¬ runner.WorkerWaits := by
  rw [WorkerWaits, busy]
  rcases ending with rfl | rfl <;> exact id

theorem of_emptied {activity : Activity} (busy : runner.worker = .busy job activity)
    (ending : activity = .sweeping ∨ activity = .retiring)
    (journal : runner.journal = consumed.journal) (present : runner.clock = cleared)
    (before : LeadsSpared links job consumed runner) (reached : runner.Reached)
    (spared : Spared links job runner next) : Closing links job cleared consumed next := by
  rcases spared.workerSection (awake busy ending) with ⟨link, performed⟩
  rcases ending with rfl | rfl
  · cases performed.of_busy busy with
    | sweeps => exact .emptied rfl (Or.inr rfl) journal present
  · have past := reached.numbered.past busy (performed.of_busy busy)
    have absent : runner.record = none := by
      rw [← RecordState.ofRecord_eq_absent_iff, reached.coherent.record, busy]
      rfl
    cases performed.of_busy busy with
    | retires => exact .past (before.tail spared) rfl absent journal present past .refl

theorem turn (closing : Closing links job cleared consumed runner)
    (before : LeadsSpared links job consumed runner) (reached : runner.Reached)
    (spared : Spared links job runner next) : Closing links job cleared consumed next := by
  cases closing with
  | lingering busy record journal elapsed early silenced =>
      exact of_lingering busy record journal elapsed early silenced reached spared
  | emptied busy ending journal present =>
      exact of_emptied busy ending journal present before reached spared
  | past between looks absent journal present past after =>
      exact .past between looks absent journal present past (after.tail spared)

/-- As long as the worker is at the action nothing is entered, and then the action is past. -/
theorem busy_or_past (closing : Closing links job cleared consumed runner) :
    (∃ activity, runner.worker = .busy job activity ∧ activity.recordState ≠ .running
        ∧ runner.journal = consumed.journal)
      ∨ runner.Past job.order := by
  cases closing with
  | lingering busy _ journal _ _ _ => exact Or.inl ⟨_, busy, RecordState.noConfusion, journal⟩
  | emptied busy ending journal _ =>
      refine Or.inl ⟨_, busy, ?_, journal⟩
      rcases ending with rfl | rfl <;> exact RecordState.noConfusion
  | past _ _ _ _ _ past after =>
      refine Or.inr (after.leads.preserves (Past · job.order) ?_ past)
      exact fun _ _ _ turn past => past.turn turn

end Closing

/-! ## An action that is taken -/

/-- A runner that is about to begin the first action that it was offered. -/
def taken (action : CustomAction) : Runner :=
  (((initial 0).sections .accepting 1).operate (.submit action)).sections .accepting 2

theorem taken_reached (action : CustomAction) : (taken action).Reached := by
  have parked : ((initial 0).sections .accepting 1).IsWaiting :=
    isWaiting_of_nextSection .accepting rfl
  have first := (sections_flows (initial 0) .accepting 1).leads
  have submitted := Turn.operate parked (.submit action)
  exact ⟨0, (first.tail ⟨_, submitted⟩).trans (sections_flows _ .accepting 2).leads⟩

theorem taken_opening (action : CustomAction) :
    (taken action).worker = .busy ⟨0, action⟩ .opening :=
  rfl

end FlightGuard.Runner
