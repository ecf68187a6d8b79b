import FlightGuard.Proofs.Runner.Pace

/-!
# The final result is reported

An action reports once in every interval from its beginning on.  When it has its final result it
settles for half a second before its record is consumed, and reports are a tenth of a second apart.
So wherever the final result falls between two of them there are reports of it, the ones before are
reports of an action in progress, and none is sent once the record is consumed.
-/

namespace FlightGuard.Runner

variable {links : Link → Prop} {job : Job} {start runner next : Runner} {count : Nat}
  {activity : Activity}

/-- The reports since a moment with their instants, the earliest first. -/
def reportsSince (runner before : Runner) : List (Nat × ProgressReport) :=
  partsSince JournalEntry.report? runner before

/--
An action was reported once in every interval since it began, each time with what its record showed
at this instant when every part waited.
-/
structure Reported (links : Link → Prop) (job : Job) (start runner : Runner) : Prop where
  instants : (runner.reportsSince start).map Prod.fst =
    (List.range (runner.reportsSince start).length).map (start.clock + reportInterval * ·)
  truthful : ∀ told ∈ runner.reportsSince start, ∃ moment,
    LeadsSpared links job start moment ∧ LeadsSpared links job moment runner
      ∧ moment.IsWaiting ∧ moment.clock = told.1 ∧ openReport moment.record = some told.2

/-- Reports say that an action is in progress before an instant, and from it on a final one. -/
def TurnTo (reports : List (Nat × ProgressReport)) (settled : Nat) (final : ProgressReport) :
    Prop :=
  ∀ told ∈ reports, (told.1 < settled → told.2.outcome = .inProgress)
    ∧ (settled ≤ told.1 → told.2 = final)

/-- A result other than progress is the one that every later report has. -/
def NeverReturn (reports : List (Nat × ProgressReport)) : Prop :=
  reports.Pairwise fun earlier later => earlier.2.outcome ≠ .inProgress → later.2 = earlier.2

/--
The record of an action has had its final result for the time to settle, and every report that was
due by then was sent, at least one of them with this result.
-/
structure Settled (job : Job) (start before : Runner) (settled : Nat) (final : Float32 × Outcome) :
    Prop where
  busy : before.worker = .busy job (.settling before.clock)
  present : before.clock = settled + settleTime
  recorded : before.record = some ⟨job.action, final.1, final.2, false⟩
  complete : ∀ count, count < (before.reportsSince start).length ↔
    start.clock + reportInterval * count < before.clock
  turned : TurnTo (before.reportsSince start) settled ⟨job.action.id, final.1, final.2⟩
  told : ∃ told ∈ before.reportsSince start, told.2 = ⟨job.action.id, final.1, final.2⟩

namespace Reported

/-- Without reports nothing is left to say about them. -/
theorem of_nil (nothing : runner.reportsSince start = []) : Reported links job start runner where
  instants := by
    rw [nothing]
    rfl
  truthful := by
    rw [nothing]
    exact fun told member => absurd member List.not_mem_nil

/-- An instant of a report is one of the instants that are due. -/
theorem mem (reported : Reported links job start runner) {index : Nat}
    (reached : index < (runner.reportsSince start).length) :
    ∃ told ∈ runner.reportsSince start, told.1 = start.clock + reportInterval * index := by
  have member : start.clock + reportInterval * index ∈
      (runner.reportsSince start).map Prod.fst := by
    rw [reported.instants]
    exact List.mem_map.mpr ⟨index, List.mem_range.mpr reached, rfl⟩
  exact List.mem_map.mp member

theorem instant_of_mem (reported : Reported links job start runner)
    {told : Nat × ProgressReport} (member : told ∈ runner.reportsSince start) :
    ∃ index < (runner.reportsSince start).length,
      told.1 = start.clock + reportInterval * index := by
  have listed : told.1 ∈ (runner.reportsSince start).map Prod.fst := List.mem_map_of_mem member
  rw [reported.instants] at listed
  rcases List.mem_map.mp listed with ⟨index, reached, instant⟩
  exact ⟨index, List.mem_range.mp reached, instant.symm⟩

/-- The reports come one after another in time. -/
theorem ordered (reported : Reported links job start runner) :
    (runner.reportsSince start).Pairwise fun earlier later => earlier.1 < later.1 := by
  rw [← List.pairwise_map, reported.instants, List.pairwise_map]
  refine List.pairwise_lt_range.imp ?_
  intro earlier later before
  exact Nat.add_lt_add_left (Nat.mul_lt_mul_of_pos_left before (by decide)) _

/-- What was reported stays so while nothing else is. -/
theorem extend (reported : Reported links job start runner)
    (same : next.reportsSince start = runner.reportsSince start)
    (leads : LeadsSpared links job runner next) : Reported links job start next where
  instants := by
    rw [same]
    exact reported.instants
  truthful := by
    intro told member
    rcases reported.truthful told (same ▸ member) with ⟨moment, before, after, shown⟩
    exact ⟨moment, before, after.trans leads, shown⟩

/-- One report more goes on with the instants, and shows what the record does now. -/
theorem concat (reported : Reported links job start runner) {report : ProgressReport}
    (more : next.reportsSince start = runner.reportsSince start ++ [(runner.clock, report)])
    (present : start.clock + reportInterval * (runner.reportsSince start).length = runner.clock)
    (before : LeadsSpared links job start next) (leads : LeadsSpared links job runner next)
    (waits : next.IsWaiting) (clock : next.clock = runner.clock)
    (told : openReport next.record = some report) : Reported links job start next where
  instants := by
    rw [more, List.map_append, reported.instants, List.length_append, List.length_singleton,
      List.range_succ, List.map_append, List.map_singleton, List.map_singleton, present]
  truthful := by
    intro other member
    rw [more] at member
    rcases List.mem_append.mp member with earlier | last
    · rcases reported.truthful other earlier with ⟨moment, before, after, shown⟩
      exact ⟨moment, before, after.trans leads, shown⟩
    · obtain rfl := List.mem_singleton.mp last
      exact ⟨next, before, .refl, waits, clock, told⟩

/-- Reports that turn to a final one do not turn back. -/
theorem neverReturn (reported : Reported links job start runner) {settled : Nat}
    {final : ProgressReport} (turned : TurnTo (runner.reportsSince start) settled final) :
    NeverReturn (runner.reportsSince start) := by
  refine List.Pairwise.imp_of_mem ?_ reported.ordered
  intro earlier later member follows before finished
  have reached : settled ≤ earlier.1 :=
    Nat.le_of_not_lt fun early => finished ((turned earlier member).1 early)
  rw [(turned earlier member).2 reached]
  exact (turned later follows).2 (Nat.le_trans reached (Nat.le_of_lt before))

end Reported

/-! ## One turn -/

/-- What an action has reported that has no result yet, or that settles with one. -/
inductive Telling (start runner : Runner) : Activity → Prop where
  | executing {activity : Activity} (executing : activity.isExecuting = true)
      (unfinished : ∀ told ∈ runner.reportsSince start, told.2.outcome = .inProgress) :
      Telling start runner activity
  | settling {settled : Nat} {report : ProgressReport} (begun : start.clock ≤ settled)
      (past : settled ≤ runner.clock) (shown : openReport runner.record = some report)
      (turned : TurnTo (runner.reportsSince start) settled report) :
      Telling start runner (.settling (settled + settleTime))

/-- How the reports on an action stand while its record is not consumed. -/
structure Reporting (links : Link → Prop) (job : Job) (start : Runner) (activity : Activity)
    (runner : Runner) : Prop where
  paced : runner.Paced job start.clock (runner.reportsSince start).length activity
  reported : Reported links job start runner
  telling : Telling start runner activity

theorem ActionSection.reportsSince_eq {link : Link}
    (performed : ActionSection link job runner activity next)
    (grown : start.journal <:+ runner.journal) :
    next.reportsSince start = runner.reportsSince start := by
  rcases performed.journal_cases with same | ⟨entry, noted, silent⟩
  · exact partsSince_congr same start
  · exact partsSince_of_none grown noted silent

/-- An action at work has no result, or it has one from now on. -/
theorem Phase.result_cases (phase : Phase job runner activity next)
    (running : activity.recordState = .running) {following : Activity}
    (busy : next.worker = .busy job following) (goesOn : following.recordState = .running) :
    activity.isExecuting = true
      ∧ (following.isExecuting = true ∨ following = .settling (runner.clock + settleTime)) := by
  cases phase with
  | opens | clears _ | sweeps | retires => cases running
  | consumes _ =>
      cases busy
      cases goesOn
  | executes executing standing _ _ =>
      rcases standing with failed | ⟨other, working, unfinished⟩
      · rw [failed] at busy
        cases busy
      · rw [working] at busy
        cases busy
        exact ⟨executing, Or.inl unfinished⟩
  | concludes executing _ =>
      cases busy
      exact ⟨executing, Or.inr rfl⟩

/-- What the record shows is what its report says. -/
theorem openReport_eq {job : Job} {progress : Float32} {outcome : Outcome}
    (recorded : runner.record = some ⟨job.action, progress, outcome, false⟩) :
    openReport runner.record = some ⟨job.action.id, progress, outcome⟩ := by
  rw [recorded]
  rfl

namespace Reporting

/-- A report that was sent is at least one interval before the next one. -/
theorem lt_due (reporting : Reporting links job start activity runner)
    {told : Nat × ProgressReport} (member : told ∈ runner.reportsSince start) :
    told.1 + reportInterval ≤
      start.clock + reportInterval * (runner.reportsSince start).length := by
  rcases reporting.reported.instant_of_mem member with ⟨index, early, instant⟩
  have later : reportInterval * (index + 1) ≤
      reportInterval * (runner.reportsSince start).length :=
    Nat.mul_le_mul_left reportInterval early
  rw [Nat.mul_add, Nat.mul_one] at later
  rw [instant, Nat.add_assoc]
  exact Nat.add_le_add_left later _

/-- A section of the worker reports nothing, and a result that it gives is one from now on. -/
theorem works {link : Link} {following : Activity}
    (reporting : Reporting links job start activity runner)
    (before : LeadsSpared links job start runner) (reached : runner.Reached)
    (spared : Spared links job runner next)
    (performed : ActionSection link job runner activity next)
    (near : start.clock + reportInterval * (runner.reportsSince start).length <
      runner.clock + reportInterval)
    (paced : next.Paced job start.clock (runner.reportsSince start).length following) :
    Reporting links job start following next := by
  have same := performed.reportsSince_eq before.leads.journal_suffix
  have phase := performed.phase (reached.pursuing job activity reporting.paced.busy)
  rcases phase.result_cases reporting.paced.running paced.busy paced.running with
    ⟨executing, goesOn⟩
  have unfinished : ∀ told ∈ next.reportsSince start, told.2.outcome = .inProgress := by
    rw [same]
    cases reporting.telling with
    | executing _ unfinished => exact unfinished
    | settling _ _ _ _ => cases executing
  refine ⟨by rw [same]; exact paced, reporting.reported.extend same (.single spared), ?_⟩
  rcases goesOn with executing | rfl
  · exact .executing executing unfinished
  · rcases paced.shows with ⟨progress, outcome, recorded, _⟩
    refine .settling before.leads.clock_le (Nat.le_of_eq performed.clock_eq.symm)
      (openReport_eq recorded) ?_
    intro told member
    refine ⟨fun _ => unfinished told member, ?_⟩
    -- Nothing was reported at the present instant, at which the result is entered.
    intro late
    have sent := reporting.lt_due (same ▸ member)
    exact absurd (Nat.lt_of_le_of_lt sent near)
      (Nat.not_lt_of_le (Nat.add_le_add_right late _))

theorem reports {report : ProgressReport} {answer : Option LinkError}
    (reporting : Reporting links job start activity runner)
    (before : LeadsSpared links job start runner) (spared : Spared links job runner next)
    (present : start.clock + reportInterval * (runner.reportsSince start).length = runner.clock)
    (told : openReport runner.record = some report) (waiting : next.IsWaiting)
    (journal : next.journal = .reported runner.clock report answer :: runner.journal)
    (clock : next.clock = runner.clock) (record : next.record = runner.record)
    (paced : next.Paced job start.clock ((runner.reportsSince start).length + 1) activity) :
    Reporting links job start activity next := by
  have more : next.reportsSince start = runner.reportsSince start ++ [(runner.clock, report)] :=
    partsSince_cons before.leads.journal_suffix journal
  have shown : openReport next.record = some report := record ▸ told
  refine ⟨?_, ?_, ?_⟩
  · rw [more, List.length_append, List.length_singleton]
    exact paced
  · exact reporting.reported.concat more present (before.tail spared) (.single spared) waiting
      clock shown
  · cases reporting.telling with
    | executing executing unfinished =>
        refine .executing executing ?_
        rw [more]
        intro other member
        rcases List.mem_append.mp member with earlier | last
        · exact unfinished other earlier
        · obtain rfl := List.mem_singleton.mp last
          rcases reporting.paced.shows with ⟨progress, outcome, recorded, inProgress⟩
          rw [openReport_eq recorded] at told
          obtain rfl := Option.some.inj told
          exact inProgress executing
    | @settling settled final begun past same turned =>
        obtain rfl := Option.some.inj (same.symm.trans told)
        refine .settling begun (clock ▸ past) shown ?_
        rw [more]
        intro other member
        rcases List.mem_append.mp member with earlier | last
        · exact turned other earlier
        · obtain rfl := List.mem_singleton.mp last
          exact ⟨fun early => absurd early (Nat.not_lt_of_le past), fun _ => rfl⟩

theorem stays (reporting : Reporting links job start activity runner)
    (spared : Spared links job runner next) (forward : runner.clock ≤ next.clock)
    (record : next.record = runner.record) (journal : next.journal = runner.journal)
    (paced : next.Paced job start.clock (runner.reportsSince start).length activity) :
    Reporting links job start activity next := by
  have same : next.reportsSince start = runner.reportsSince start := partsSince_congr journal start
  refine ⟨by rw [same]; exact paced, reporting.reported.extend same (.single spared), ?_⟩
  cases reporting.telling with
  | executing executing unfinished => exact .executing executing (by rw [same]; exact unfinished)
  | settling begun past shown turned =>
      exact .settling begun (Nat.le_trans past forward) (record ▸ shown)
        (by rw [same]; exact turned)

/-- Half a second has room for at least one report. -/
theorem settled (reporting : Reporting links job start activity runner)
    (settling : activity = .settling runner.clock)
    (ahead : runner.clock ≤ start.clock + reportInterval * (runner.reportsSince start).length)
    (near : start.clock + reportInterval * (runner.reportsSince start).length <
      runner.clock + reportInterval) :
    ∃ settled final, Settled job start runner settled final := by
  have telling := reporting.telling
  have busy := reporting.paced.busy
  rcases reporting.paced.shows with ⟨progress, outcome, recorded, _⟩
  rw [settling] at busy
  generalize ends : runner.clock = instant at settling
  subst settling
  cases telling with
  | executing executing _ => cases executing
  | @settling settled report begun _ shown turned =>
      rw [openReport_eq recorded] at shown
      obtain rfl := Option.some.inj shown
      simp only [settleTime, reportInterval] at ends ahead near
      have sent : (runner.reportsSince start).length - 1 <
          (runner.reportsSince start).length := by
        omega
      rcases reporting.reported.mem sent with ⟨told, member, instant⟩
      have late : settled ≤ told.1 := by
        rw [instant, reportInterval]
        omega
      refine ⟨settled, (progress, outcome), busy, ends, recorded, ?_, turned, told, member,
        (turned told member).2 late⟩
      intro index
      simp only [reportInterval]
      omega

end Reporting

/-! ## A whole run -/

/--
The record of an action was consumed at the end of the time to settle.  Nothing was reported on the
action since then, and once the worker has left it the action is past.
-/
def Consumed (links : Link → Prop) (job : Job) (start next : Runner) : Prop :=
  ∃ before settled final, LeadsSpared links job start before
    ∧ Settled job start before settled final
    ∧ LeadsSpared links job (before.consumeRecord job) next
    ∧ (next.isAt job = true → next.reportsSince start = before.reportsSince start)
    ∧ (next.isAt job = true ∨ next.Past job.order)

/-- Where an action stands that nobody has cancelled since it began. -/
inductive Told (links : Link → Prop) (job : Job) (start next : Runner) : Prop where
  | opening (same : next = start)
  | reporting {activity : Activity} (reporting : Reporting links job start activity next)
  | closing {before : Runner} {cleared settled : Nat} {final : Float32 × Outcome}
      (between : LeadsSpared links job start before) (reported : Reported links job start before)
      (settled : Settled job start before settled final)
      (consumes : Spared links job before (before.consumeRecord job))
      (closing : Closing links job cleared (before.consumeRecord job) next)
      (after : LeadsSpared links job (before.consumeRecord job) next)

theorem Reporting.turn (reporting : Reporting links job start activity runner)
    (before : LeadsSpared links job start runner) (reached : runner.Reached)
    (timely : job.action.isTimely = true) (spared : Spared links job runner next) :
    Told links job start next := by
  cases reporting.paced.turn reached timely spared with
  | works _ performed near paced =>
      exact .reporting (reporting.works before reached spared performed near paced)
  | reports _ present told waiting clock record journal paced =>
      exact .reporting (reporting.reports before spared present told waiting journal clock record
        paced)
  | stays _ forward record journal paced =>
      exact .reporting (reporting.stays spared forward record journal paced)
  | consumes settling ahead near =>
      rcases reporting.settled settling ahead near with ⟨settled, final, finished⟩
      exact .closing before reporting.reported finished spared
        (.consumeRecord runner reporting.paced.reporter ahead) .refl

/-- An action that begins has not been reported. -/
theorem Reporting.openJob (reached : start.Reached) (opening : start.worker = .busy job .opening)
    (links : Link → Prop) : ∃ activity, Reporting links job start activity (start.openJob job) := by
  rcases Paced.openJob reached.coherent opening with ⟨activity, paced⟩
  have nothing : (start.openJob job).reportsSince start = [] := partsSince_self start
  refine ⟨activity, ?_, .of_nil nothing, ?_⟩
  · rw [nothing]
    exact paced
  · have executing : activity.isExecuting = true := by
      have busy := paced.busy
      cases staged : job.action.stages.isEmpty with
      | true =>
          rw [start.openJob_worker_of_script staged] at busy
          cases busy
          rfl
      | false =>
          rw [start.openJob_worker_of_stages staged] at busy
          cases busy
          rfl
    refine .executing executing ?_
    rw [nothing]
    exact fun told member => absurd member List.not_mem_nil

theorem LeadsSpared.told (reached : start.Reached) (opening : start.worker = .busy job .opening)
    (timely : job.action.isTimely = true) (leads : LeadsSpared links job start next) :
    Told links job start next := by
  induction leads with
  | refl => exact .opening rfl
  | @tail runner next before spared induction =>
      have present : runner.Reached := reached.leads (LeadsSpared.leads before)
      cases induction with
      | opening same =>
          subst same
          rw [spared.opens opening]
          rcases Reporting.openJob reached opening links with ⟨activity, reporting⟩
          exact .reporting reporting
      | reporting reporting => exact reporting.turn before present timely spared
      | closing between reported settled consumes closing after =>
          exact .closing between reported settled consumes (closing.turn after present spared)
            (after.tail spared)

namespace Told

/-- Reports of an action go on in its intervals, and keep the final result once they have it. -/
theorem reported (told : Told links job start next) (atJob : next.isAt job = true) :
    Reported links job start next ∧ NeverReturn (next.reportsSince start) := by
  cases told with
  | opening same =>
      have nothing : next.reportsSince start = [] := same ▸ partsSince_self next
      refine ⟨.of_nil nothing, ?_⟩
      rw [nothing]
      exact .nil
  | reporting reporting =>
      refine ⟨reporting.reported, ?_⟩
      cases reporting.telling with
      | executing _ unfinished =>
          refine reporting.reported.ordered.imp_of_mem ?_
          intro earlier later member _ _ finished
          exact absurd (unfinished earlier member) finished
      | settling _ _ _ turned => exact reporting.reported.neverReturn turned
  | @closing before _ _ _ between reported settled consumes closing after =>
      rcases closing.busy_or_past with ⟨activity, busy, _, journal⟩ | past
      · have same : next.reportsSince start = before.reportsSince start :=
          partsSince_congr journal start
        rw [same]
        exact ⟨reported.extend same (.head consumes after), reported.neverReturn settled.turned⟩
      · rw [past.isAt_eq_false] at atJob
        cases atJob

/-- Where every part waits, every report that is due by now was sent. -/
theorem complete (told : Told links job start next) (opening : start.worker = .busy job .opening)
    (reached : next.Reached) (atJob : next.isAt job = true)
    (cancellable : next.isCancellable = true) (waits : next.IsWaiting) (index : Nat) :
    index < (next.reportsSince start).length ↔
      start.clock + reportInterval * index ≤ next.clock := by
  cases told with
  | opening same =>
      subst same
      exact False.elim (waits.action opening)
  | reporting reporting =>
      have ahead := (waits.reporter _ reporting.paced.reporter).2
      have near := (reached.onTime.reporter _ reporting.paced.reporter).2
      simp only [reportInterval] at ahead near ⊢
      omega
  | closing between reported settled consumes closing after =>
      rcases closing.busy_or_past with ⟨activity, busy, closed, _⟩ | past
      · have state := next.isCancellable_iff.mp cancellable
        rw [reached.coherent.record, busy] at state
        exact absurd state closed
      · rw [past.isAt_eq_false] at atJob
        cases atJob

/-- An action is reported until its record is consumed. -/
theorem consumed (told : Told links job start next) :
    next = start ∨ (next.isAt job = true ∧ next.isCancellable = true)
      ∨ Consumed links job start next := by
  cases told with
  | opening same => exact Or.inl same
  | reporting reporting =>
      exact Or.inr (Or.inl ⟨isAt_of_busy reporting.paced.busy, reporting.paced.isCancellable⟩)
  | @closing before _ settled final between _ finished consumes closing after =>
      refine Or.inr (Or.inr ⟨before, settled, final, between, finished, after, ?_⟩)
      rcases closing.busy_or_past with ⟨activity, busy, _, journal⟩ | past
      · exact ⟨fun _ => partsSince_congr journal start, Or.inl (isAt_of_busy busy)⟩
      · refine ⟨?_, Or.inr past⟩
        intro atJob
        rw [past.isAt_eq_false] at atJob
        cases atJob

end Told

/--
The final result of an action that nobody cancels is reported.  From its beginning on the action is
reported once in every interval, with what its record shows at the instant, until the record is
consumed.  Before it has its final result every report says that it is in progress, and from then on
every report is one of this result, at least one of them being sent.  If the calls of the action are
answered in time its record is consumed in time, and some turns in which they are lead up to every
later instant.
-/
theorem final_result_is_reported (reached : start.Reached)
    (opening : start.worker = .busy job .opening) (timely : job.action.isTimely = true)
    (links : Link → Prop) :
    (∀ next, LeadsSpared links job start next →
        (next.isAt job = true →
          Reported links job start next ∧ NeverReturn (next.reportsSince start)
            ∧ (next.isCancellable = true → next.IsWaiting → ∀ index,
                index < (next.reportsSince start).length ↔
                  start.clock + reportInterval * index ≤ next.clock))
        ∧ (next = start ∨ (next.isAt job = true ∧ next.isCancellable = true)
            ∨ Consumed links job start next))
      ∧ (∀ delay, (∀ link, links link → link.Settles job.action delay) →
          ∀ next, LeadsSpared links job start next → next.IsWaiting →
            start.clock + job.action.span delay + closingTime ≤ next.clock →
              next.Past job.order ∧ Consumed links job start next)
      ∧ ∀ link, links link → ∀ target, start.clock ≤ target →
          ∃ next, LeadsSpared links job start next ∧ next.IsWaiting ∧ next.clock = target := by
  refine ⟨?_, ?_, ?_⟩
  · intro next leads
    have told := leads.told reached opening timely
    refine ⟨?_, told.consumed⟩
    intro atJob
    rcases told.reported atJob with ⟨reported, steady⟩
    exact ⟨reported, steady, told.complete opening (reached.leads leads.leads) atJob⟩
  · intro delay settles next leads waits elapsed
    have past := (leads.prompt settles).past reached timely opening rfl waits elapsed
    rcases (leads.told reached opening timely).consumed with rfl | ⟨atJob, _⟩ | consumed
    · exact absurd opening (past.not_busy _)
    · rw [past.isAt_eq_false] at atJob
      cases atJob
    · exact ⟨past, consumed⟩
  · intro link allowed target ahead
    rcases start.flowsUnder_to link ahead with ⟨next, flows, waits, clock⟩
    exact ⟨next, flows.leadsSpared allowed, waits, clock⟩

/-! ## A script that is not answered -/

/-- A link over which no script is ever answered. -/
def speechlessLink : Link :=
  { Link.accepting with script := fun _ => ⟨none, .ok .success⟩ }

/-- A script that may take three quarters of a second. -/
def hastyScript : CustomAction :=
  ⟨8, [], some "survey", some 0.75⟩

/-- A script that is not answered in time has its failure reported. -/
theorem failure_of_hastyScript :
    ∃ next, next.clock = 1350
      ∧ LeadsSpared (· = speechlessLink) ⟨0, hastyScript⟩ (taken hastyScript) next
      ∧ Consumed (· = speechlessLink) ⟨0, hastyScript⟩ (taken hastyScript) next := by
  have reports := final_result_is_reported (taken_reached hastyScript) (taken_opening hastyScript)
    (by decide) (· = speechlessLink)
  have settles : ∀ link, link = speechlessLink → link.Settles hastyScript 750 := by
    rintro link rfl
    refine ⟨fun stage member => absurd member List.not_mem_nil, ?_⟩
    intro script limit _ fits
    have limited : hastyScript.limit = .ok (some ⟨750000000⟩) := by rfl
    obtain rfl := Except.ok.inj (limited.symm.trans fits)
    exact ⟨750, Nat.le_refl _, rfl⟩
  rcases reports.2.2 speechlessLink rfl 1350 (by decide) with ⟨next, leads, waits, clock⟩
  have elapsed : (taken hastyScript).clock + hastyScript.span 750 + closingTime ≤ next.clock := by
    rw [clock]
    decide
  exact ⟨next, clock, leads, (reports.2.1 750 settles next leads waits elapsed).2⟩

end FlightGuard.Runner
