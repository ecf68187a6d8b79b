import FlightGuard.Proofs.Runner.Itinerary
import FlightGuard.Proofs.Runner.Pace

/-!
# The timetable of a staged action

Over a link on which stages are answered at once the waits behind the stages decide when each of
them is called and when the action succeeds.  Half a second later its record is consumed.  The
record is cleared when the first report from then on would be due, and at that instant the worker
turns to the pending action, if there is one.
-/

namespace FlightGuard.Runner

/-! ## The stages one after another -/

/-- Milliseconds that the waits behind stages take. -/
def pauses (stages : List Stage) : Nat :=
  (stages.map Stage.pause).sum

/-- When stages are called that are answered at once: each behind the waits of all before it. -/
def timetable (instant : Nat) (stages : List Stage) : List (Nat × Stage) :=
  stages.mapIdx fun index stage => (instant + pauses (stages.take index), stage)

theorem pauses_append (before after : List Stage) :
    pauses (before ++ after) = pauses before + pauses after := by
  rw [pauses, List.map_append, List.sum_append, pauses, pauses]

theorem pauses_singleton (stage : Stage) : pauses [stage] = stage.pause :=
  List.sum_singleton

theorem pauses_take_le (stages : List Stage) (done : Nat) :
    pauses (stages.take done) ≤ pauses stages := by
  have whole := pauses_append (stages.take done) (stages.drop done)
  rw [List.take_append_drop] at whole
  omega

theorem timetable_cons (instant : Nat) (stage : Stage) (stages : List Stage) :
    timetable instant (stage :: stages) =
      (instant, stage) :: timetable (instant + stage.pause) stages := by
  have later : ∀ index, instant + pauses (stage :: stages.take index) =
      instant + stage.pause + pauses (stages.take index) :=
    fun index => (Nat.add_assoc _ _ _).symm
  rw [timetable, List.mapIdx_cons, timetable]
  simp only [List.take_zero, List.take_succ_cons, later]
  rfl

theorem timetable_append (instant : Nat) (before after : List Stage) :
    timetable instant (before ++ after) =
      timetable instant before ++ timetable (instant + pauses before) after := by
  induction before generalizing instant with
  | nil => rfl
  | cons stage before induction =>
      have later : instant + stage.pause + pauses before = instant + pauses (stage :: before) :=
        Nat.add_assoc _ _ _
      rw [List.cons_append, timetable_cons, induction, later, timetable_cons, List.cons_append]

/-- No stage is called before the beginning, and none behind the last wait. -/
theorem between_of_mem_timetable {instant : Nat} {stages : List Stage} {call : Nat × Stage}
    (member : call ∈ timetable instant stages) :
    instant ≤ call.1 ∧ call.1 ≤ instant + pauses stages := by
  induction stages generalizing instant with
  | nil => cases member
  | cons stage stages induction =>
      have later : instant + stage.pause + pauses stages = instant + pauses (stage :: stages) :=
        Nat.add_assoc _ _ _
      rw [timetable_cons] at member
      rcases List.mem_cons.mp member with rfl | behind
      · exact ⟨Nat.le_refl _, Nat.le_add_right _ _⟩
      · rcases induction behind with ⟨low, high⟩
        exact ⟨Nat.le_trans (Nat.le_add_right _ _) low, later ▸ high⟩

/-- Up to an instant amid a wait exactly the stages before it are called. -/
theorem filter_timetable {begun instant : Nat} {before after : List Stage}
    (called : ∀ call ∈ timetable begun before, call.1 ≤ instant)
    (ahead : instant < begun + pauses before) :
    (timetable begun (before ++ after)).filter (·.1 ≤ instant) = timetable begun before := by
  have first : (timetable begun before).filter (·.1 ≤ instant) = timetable begun before :=
    List.filter_eq_self.mpr fun call member => decide_eq_true (called call member)
  have rest : (timetable (begun + pauses before) after).filter (·.1 ≤ instant) = [] := by
    refine List.filter_eq_nil_iff.mpr ?_
    intro call member early
    have behind := (between_of_mem_timetable member).1
    exact absurd (of_decide_eq_true early) (Nat.not_le_of_lt (Nat.lt_of_lt_of_le ahead behind))
  rw [timetable_append, List.filter_append, first, rest, List.append_nil]

/-- Behind the last wait all stages are called. -/
theorem filter_timetable_of_le {begun instant : Nat} {stages : List Stage}
    (elapsed : begun + pauses stages ≤ instant) :
    (timetable begun stages).filter (·.1 ≤ instant) = timetable begun stages := by
  refine List.filter_eq_self.mpr ?_
  intro call member
  exact decide_eq_true (Nat.le_trans (between_of_mem_timetable member).2 elapsed)

/-! ## One turn -/

variable {links : Link → Prop} {job : Job} {start runner next : Runner} {count : Nat}
  {activity following : Activity}

/-- The stage calls since a moment with their instants, the earliest first. -/
def stagesSince (runner before : Runner) : List (Nat × Stage) :=
  partsSince JournalEntry.stage? runner before

/-- The record of an action says that it has succeeded. -/
def Succeeded (runner : Runner) (job : Job) (consumed : Bool) : Prop :=
  ∃ progress, runner.record = some ⟨job.action, progress, .success, consumed⟩

/-- An action is where its timetable has it, with the stages called that come before. -/
inductive OnSchedule (start : Runner) (job : Job) (runner : Runner) : Activity → Prop where
  | staging {done : Nat} {stage : Stage} {remaining : List Stage}
      (called : runner.stagesSince start = timetable start.clock (job.action.stages.take done))
      (present : runner.clock = start.clock + pauses (job.action.stages.take done)) :
      OnSchedule start job runner (.staging done (stage :: remaining))
  | calling {done : Nat} {stage : Stage} {remaining : List Stage} {due : Option Nat}
      {answer : Except LinkError Outcome}
      (called : runner.stagesSince start =
        timetable start.clock (job.action.stages.take (done + 1)))
      (begun : ∀ call ∈ runner.stagesSince start, call.1 ≤ runner.clock)
      (present : runner.clock = start.clock + pauses (job.action.stages.take done))
      (answered : due = some runner.clock) :
      OnSchedule start job runner (.calling done stage remaining due answer)
  | resting {done deadline : Nat} {remaining : List Stage}
      (called : runner.stagesSince start =
        timetable start.clock (job.action.stages.take (done + 1)))
      (begun : ∀ call ∈ runner.stagesSince start, call.1 ≤ runner.clock)
      (ends : deadline = start.clock + pauses (job.action.stages.take (done + 1))) :
      OnSchedule start job runner (.resting done remaining deadline)
  | settling {deadline : Nat}
      (called : runner.stagesSince start = timetable start.clock job.action.stages)
      (elapsed : start.clock + pauses job.action.stages ≤ runner.clock)
      (ends : deadline = start.clock + pauses job.action.stages + settleTime)
      (succeeded : runner.Succeeded job false) :
      OnSchedule start job runner (.settling deadline)

/-- The stages of an action are answered at once. -/
def Immediate (links : Link → Prop) (action : CustomAction) : Prop :=
  ∀ link, links link → ∀ stage ∈ action.stages, (link.stage stage).delay = some 0

namespace OnSchedule

variable {done deadline : Nat} {stage : Stage} {remaining : List Stage} {link : Link}

theorem callsStage (grown : start.journal <:+ runner.journal)
    (left : stage :: remaining = job.action.stages.drop done)
    (immediate : (link.stage stage).delay = some 0)
    (called : runner.stagesSince start = timetable start.clock (job.action.stages.take done))
    (present : runner.clock = start.clock + pauses (job.action.stages.take done)) :
    let next := (runner.note (.stageCalled runner.clock stage)).moveTo job
      (.calling done stage remaining (dueAfter runner.clock (link.stage stage).delay)
        (link.stage stage).outcome)
    OnSchedule start job next
      (.calling done stage remaining (dueAfter runner.clock (link.stage stage).delay)
        (link.stage stage).outcome) := by
  intro next
  have journal : next.journal = .stageCalled runner.clock stage :: runner.journal := rfl
  have more : next.stagesSince start = runner.stagesSince start ++ [(runner.clock, stage)] :=
    partsSince_cons grown journal
  refine .calling ?_ ?_ present ?_
  · rw [more, called, take_succ_of_drop left, timetable_append, present]
    rfl
  · rw [more, called]
    intro call member
    rcases List.mem_append.mp member with earlier | last
    · exact Nat.le_trans (between_of_mem_timetable earlier).2 (Nat.le_of_eq present.symm)
    · obtain rfl := List.mem_singleton.mp last
      exact Nat.le_refl _
  · rw [immediate]
    rfl

theorem rests {answer : Except LinkError Outcome} {wait : Duration}
    (grown : start.journal <:+ runner.journal)
    (left : stage :: remaining = job.action.stages.drop done) (fits : stage.wait = .ok wait)
    (called : runner.stagesSince start =
      timetable start.clock (job.action.stages.take (done + 1)))
    (begun : ∀ call ∈ runner.stagesSince start, call.1 ≤ runner.clock)
    (present : runner.clock = start.clock + pauses (job.action.stages.take done)) :
    let next := (runner.note (.stageAnswered runner.clock answer)).moveTo job
      (.resting done remaining (runner.clock + wait.waitMilliseconds))
    OnSchedule start job next
      (.resting done remaining (runner.clock + wait.waitMilliseconds)) := by
  intro next
  have same : next.stagesSince start = runner.stagesSince start :=
    partsSince_of_none grown rfl rfl
  have pause : wait.waitMilliseconds = stage.pause := by
    rw [Stage.pause, fits]
  refine .resting (same.trans called) (by rw [same]; exact begun) ?_
  rw [take_succ_of_drop left, pauses_append, pauses_singleton, present, pause, Nat.add_assoc]

/-- An action goes on with its timetable in every section that is its own. -/
theorem works (schedule : OnSchedule start job runner activity)
    (grown : start.journal <:+ runner.journal) (reached : runner.Reached)
    (immediate : Immediate links job.action) (allowed : links link) {begun : Nat}
    (paced : runner.Paced job begun count activity)
    (performed : ActionSection link job runner activity next)
    (goesOn : next.Paced job begun count following) : OnSchedule start job next following := by
  have pursues := reached.pursuing job activity paced.busy
  have lowered := paced.lowered
  have working := goesOn.busy
  cases schedule with
  | @staging done stage remaining called present =>
      cases performed with
      | dropsStage raised =>
          rw [lowered] at raised
          cases raised
      | callsStage _ =>
          cases working
          have member : stage ∈ job.action.stages :=
            List.mem_of_mem_drop (pursues ▸ List.mem_cons_self)
          exact callsStage grown pursues (immediate link allowed stage member) called present
  | calling called begun present _ =>
      cases performed with
      | falls _ _ => cases working
      | rests _ fits =>
          cases working
          exact rests grown pursues fits called begun present
  | @resting done deadline remaining called begun ends =>
      have punctual : ∀ elapsed : deadline ≤ runner.clock,
          runner.clock = start.clock + pauses (job.action.stages.take (done + 1)) := by
        intro elapsed
        rw [← ends]
        exact (reached.onTime.eq_clock paced.busy rfl elapsed).symm
      cases performed with
      | cutsRest raised =>
          rw [lowered] at raised
          cases raised
      | completesLast _ elapsed =>
          cases working
          have all : job.action.stages.take (done + 1) = job.action.stages :=
            List.take_of_length_le (List.drop_eq_nil_iff.mp (Eq.symm pursues))
          have finished := punctual elapsed
          rw [all] at called finished
          rcases paced.shows with ⟨progress, outcome, recorded, _⟩
          refine .settling called (Nat.le_of_eq finished.symm) (by rw [← finished]; rfl) ?_
          exact ⟨_, record_setProgress_eq recorded _ _⟩
      | completesStage _ elapsed =>
          cases working
          exact .staging called (punctual elapsed)
  | settling _ _ _ _ =>
      cases performed with
      | consumes _ =>
          cases working
          cases goesOn.running

/-- An action that is called or about to call does not wait. -/
theorem stays (schedule : OnSchedule start job runner activity)
    (waits : runner.ActionWaits activity) (forward : runner.clock ≤ next.clock)
    (record : next.record = runner.record)
    (called_eq : next.stagesSince start = runner.stagesSince start) :
    OnSchedule start job next activity := by
  cases schedule with
  | staging _ _ => exact waits.elim
  | calling _ _ _ answered => exact absurd (waits _ answered) (Nat.lt_irrefl _)
  | resting called begun ends =>
      refine .resting (called_eq.trans called) ?_ ends
      rw [called_eq]
      exact fun call member => Nat.le_trans (begun call member) forward
  | settling called elapsed ends succeeded =>
      refine .settling (called_eq.trans called) (Nat.le_trans elapsed forward) ends ?_
      rw [Succeeded, record]
      exact succeeded

/-- Where an action waits, its record is not due to be consumed yet. -/
theorem lt_consumption (schedule : OnSchedule start job runner activity)
    (waits : runner.ActionWaits activity) :
    runner.clock < start.clock + pauses job.action.stages + settleTime := by
  cases schedule with
  | staging _ _ => exact waits.elim
  | calling _ _ _ answered => exact absurd (waits _ answered) (Nat.lt_irrefl _)
  | @resting done deadline remaining _ _ ends =>
      have ahead := waits.2
      have within := pauses_take_le job.action.stages (done + 1)
      omega
  | settling _ _ ends _ => exact ends ▸ waits

/-- Where an action waits, the stages up to now are called, and the record shows a success. -/
theorem shown (schedule : OnSchedule start job runner activity)
    (shows : runner.Shows job activity) (waits : runner.ActionWaits activity) :
    runner.stagesSince start =
        (timetable start.clock job.action.stages).filter (·.1 ≤ runner.clock)
      ∧ ∃ progress, runner.record = some ⟨job.action, progress,
          if runner.clock < start.clock + pauses job.action.stages then .inProgress else .success,
          false⟩ := by
  cases schedule with
  | staging _ _ => exact waits.elim
  | calling _ _ _ answered => exact absurd (waits _ answered) (Nat.lt_irrefl _)
  | @resting done deadline remaining called begun ends =>
      have ahead := waits.2
      have within := pauses_take_le job.action.stages (done + 1)
      have split : (timetable start.clock
          (job.action.stages.take (done + 1) ++ job.action.stages.drop (done + 1))).filter
            (·.1 ≤ runner.clock) = timetable start.clock (job.action.stages.take (done + 1)) :=
        filter_timetable (called ▸ begun) (ends ▸ ahead)
      rw [List.take_append_drop] at split
      rcases shows with ⟨progress, outcome, recorded, unfinished⟩
      refine ⟨called.trans split.symm, progress, ?_⟩
      rw [recorded, unfinished rfl, if_pos (by omega)]
  | settling called elapsed _ succeeded =>
      rcases succeeded with ⟨progress, recorded⟩
      refine ⟨called.trans (filter_timetable_of_le elapsed).symm, progress, ?_⟩
      rw [recorded, if_neg (Nat.not_lt_of_le elapsed)]

end OnSchedule

/-! ## Behind the action -/

/-- A client leaves the intake alone or has an action accepted. -/
theorem operate_intake_cases (runner : Runner) (operation : Operation) :
    (runner.operate operation).intake = runner.intake
      ∨ (runner.operate operation).intake.nextOrder = runner.intake.nextOrder + 1 := by
  have submits : ∀ action,
      (runner.afterIntake (runner.submit action)).intake = runner.intake
        ∨ (runner.afterIntake (runner.submit action)).intake.nextOrder =
            runner.intake.nextOrder + 1 := by
    intro action
    rcases runner.afterIntake_submit_cases action with rejected | accepted
    · rw [rejected]
      exact Or.inl rfl
    · rw [accepted]
      exact Or.inr rfl
  cases operation with
  | submit action => exact submits action
  | request file path id =>
      rw [operate, request]
      cases Catalog.lookUp file path id with
      | ok action => exact submits action
      | error rejection => exact Or.inl rfl
  | cancel raised =>
      rcases runner.cancel_frame raised with ⟨signal, cancelled⟩
      rw [operate, cancelled]
      exact Or.inl rfl
  | stop => exact Or.inl rfl

/-- As long as no action was accepted since an order the worker has none. -/
structure Idle (order : Nat) (runner : Runner) : Prop where
  forward : order ≤ runner.intake.nextOrder
  nothing : runner.intake.nextOrder = order → runner.intake.pending = none
    ∧ (runner.worker = .looking ∨ runner.worker = .parked ∨ runner.worker = .ended)

namespace Idle

variable {order : Nat}

theorem congr (idle : runner.Idle order) (worker : next.worker = runner.worker)
    (intake : next.intake = runner.intake) : next.Idle order := by
  refine ⟨intake ▸ idle.forward, ?_⟩
  rw [worker, intake]
  exact idle.nothing

theorem workerSection {link : Link} (idle : runner.Idle order)
    (performed : WorkerSection link runner next) : next.Idle order := by
  cases performed with
  | takes _ offered =>
      refine ⟨idle.forward, ?_⟩
      intro same
      have none := (idle.nothing same).1
      rw [offered] at none
      cases none
  | parks _ _ => exact ⟨idle.forward, fun same => ⟨(idle.nothing same).1, Or.inr (Or.inl rfl)⟩⟩
  | wakes _ _ => exact ⟨idle.forward, fun same => ⟨(idle.nothing same).1, Or.inl rfl⟩⟩
  | ends _ _ _ => exact ⟨idle.forward, fun same => ⟨(idle.nothing same).1, Or.inr (Or.inr rfl)⟩⟩
  | acts busy performed =>
      rcases performed.intake_eq with ⟨_, nextOrder, _⟩
      refine ⟨nextOrder ▸ idle.forward, ?_⟩
      rw [nextOrder]
      intro same
      rcases (idle.nothing same).2 with standing | standing | standing
      all_goals
        rw [busy] at standing
        cases standing

theorem turn {event : Event} (idle : runner.Idle order) (turn : Turn runner event next) :
    next.Idle order := by
  cases turn with
  | act link performed =>
      rcases nextSection_cases performed with byWorker | byReporter
      · exact idle.workerSection byWorker
      · rcases byReporter.frame with ⟨reporter, journal, rfl⟩
        exact idle.congr rfl rfl
  | operate _ operation =>
      rcases runner.operate_intake_cases operation with same | accepted
      · rcases runner.operate_eq operation with ⟨intake, wakeUp, signal, stopping, operated⟩
        refine idle.congr ?_ same
        rw [operated]
      · refine ⟨accepted ▸ Nat.le_succ_of_le idle.forward, ?_⟩
        intro same
        have forward := idle.forward
        omega
  | pass _ _ _ => exact idle.congr rfl rfl

/-- Without an action there is no record. -/
theorem record_eq_none (idle : runner.Idle order) (reached : runner.Reached)
    (same : runner.intake.nextOrder = order) : runner.record = none := by
  rw [← RecordState.ofRecord_eq_absent_iff, reached.coherent.record]
  rcases (idle.nothing same).2 with standing | standing | standing
  all_goals
    rw [standing]
    rfl

end Idle

/-- A worker that looks for an action turns to the pending one at once. -/
theorem LeadsSpared.takes {freed : Runner} {other : Job} (looks : freed.worker = .looking)
    (offered : freed.intake.pending = some other) (leads : LeadsSpared links job freed next)
    (waits : next.IsWaiting) :
    ∃ opened, LeadsSpared links job freed opened ∧ LeadsSpared links job opened next
      ∧ opened.clock = freed.clock ∧ opened.worker = .busy other .opening := by
  have awake : ¬ freed.WorkerWaits := by
    rw [WorkerWaits, looks]
    exact id
  rcases Relation.ReflTransGen.cases_head leads with rfl | ⟨opened, first, rest⟩
  · exact absurd (freed.isWaiting_iff.mp waits).1 awake
  · rcases first.workerSection awake with ⟨link, performed⟩
    refine ⟨opened, .single first, rest, performed.clock_eq, ?_⟩
    cases performed with
    | takes _ pending =>
        obtain rfl := Option.some.inj (offered.symm.trans pending)
        rfl
    | parks _ nothing =>
        rw [offered] at nothing
        cases nothing
    | wakes standing _ | ends standing _ _ | acts standing _ =>
        rw [looks] at standing
        cases standing

/-! ## A whole run -/

/--
An action is past and its record was cleared at an instant.  At this instant the worker turns to the
pending action; if there is none there is no record until another action is accepted.
-/
structure Freed (links : Link → Prop) (job : Job) (start : Runner) (cleared : Nat)
    (next freed : Runner) : Prop where
  before : LeadsSpared links job start freed
  after : LeadsSpared links job freed next
  looks : freed.worker = .looking
  absent : freed.record = none
  called : freed.stagesSince start = timetable start.clock job.action.stages
  present : freed.clock = cleared
  past : freed.Past job.order
  follows : ∀ other, freed.intake.pending = some other →
    ∃ opened, LeadsSpared links job freed opened ∧ LeadsSpared links job opened next
      ∧ opened.clock = cleared ∧ opened.worker = .busy other .opening
  idle : freed.intake.pending = none → next.intake.nextOrder = freed.intake.nextOrder →
    next.record = none

/-- Where a staged action stands that nobody has cancelled since it began. -/
inductive Keeping (links : Link → Prop) (job : Job) (start : Runner) (cleared : Nat)
    (next : Runner) : Prop where
  | opening (same : next = start)
  | underway {count : Nat} {activity : Activity}
      (paced : next.Paced job start.clock count activity)
      (schedule : OnSchedule start job next activity)
  | closing {consumed : Runner} (between : LeadsSpared links job start consumed)
      (called : consumed.stagesSince start = timetable start.clock job.action.stages)
      (present : consumed.clock = start.clock + pauses job.action.stages + settleTime)
      (succeeded : consumed.Succeeded job true)
      (closing : Closing links job cleared consumed next)
      (after : LeadsSpared links job consumed next)

/-- Reports that are due in one interval are one. -/
theorem eq_of_isLeast {begun instant ticks : Nat}
    (least : IsLeast {count | instant ≤ begun + reportInterval * count} ticks)
    (ahead : instant ≤ begun + reportInterval * count)
    (near : begun + reportInterval * count < instant + reportInterval) : count = ticks := by
  have low : ticks ≤ count := least.2 ahead
  have high : instant ≤ begun + reportInterval * ticks := least.1
  simp only [reportInterval] at near high
  omega

theorem exists_isLeast {begun instant : Nat} (forward : begun ≤ instant) :
    ∃ ticks, IsLeast {count | instant ≤ begun + reportInterval * count} ticks := by
  refine ⟨(instant - begun + 99) / 100, ?_, ?_⟩
  · simp only [reportInterval, Set.mem_ofPred_eq]
    omega
  · intro count ahead
    simp only [reportInterval, Set.mem_ofPred_eq] at ahead
    omega

namespace Keeping

variable {ticks : Nat}

theorem openJob (reached : start.Reached) (opening : start.worker = .busy job .opening)
    (staged : job.action.stages ≠ []) (links : Link → Prop) (cleared : Nat) :
    Keeping links job start cleared (start.openJob job) := by
  rcases Paced.openJob reached.coherent opening with ⟨activity, paced⟩
  have busy := paced.busy
  rw [start.openJob_worker_of_stages (List.isEmpty_eq_false_iff.mpr staged)] at busy
  cases busy
  rcases List.exists_cons_of_ne_nil staged with ⟨stage, remaining, stages⟩
  refine .underway paced ?_
  rw [stages]
  exact .staging (partsSince_self start) rfl

theorem turn
    (least : IsLeast {count | start.clock + pauses job.action.stages + settleTime ≤
      start.clock + reportInterval * count} ticks)
    (keeping : Keeping links job start (start.clock + reportInterval * ticks) runner)
    (before : LeadsSpared links job start runner) (reached : runner.Reached)
    (opening : start.worker = .busy job .opening) (staged : job.action.stages ≠ [])
    (timely : job.action.isTimely = true) (immediate : Immediate links job.action)
    (spared : Spared links job runner next) :
    Keeping links job start (start.clock + reportInterval * ticks) next := by
  cases keeping with
  | opening same =>
      subst same
      rw [spared.opens opening]
      exact openJob reached opening staged links _
  | closing between called present succeeded closing after =>
      exact .closing between called present succeeded (closing.turn after reached spared)
        (after.tail spared)
  | @underway count activity paced schedule =>
      have grown := before.leads.journal_suffix
      cases paced.turn reached timely spared with
      | works allowed performed _ goesOn =>
          exact .underway goesOn
            (schedule.works grown reached immediate allowed paced performed goesOn)
      | reports waits _ _ _ clock record journal goesOn =>
          rw [WorkerWaits, paced.busy] at waits
          exact .underway goesOn (schedule.stays waits (Nat.le_of_eq clock.symm) record
            (partsSince_of_none grown journal rfl))
      | stays waits forward record journal goesOn =>
          exact .underway goesOn (schedule.stays (waits.action paced.busy) forward record
            (partsSince_congr journal start))
      | consumes settling ahead near =>
          cases schedule with
          | staging _ _ | calling _ _ _ _ | resting _ _ _ => cases settling
          | settling called elapsed ends succeeded =>
              have present : runner.clock =
                  start.clock + pauses job.action.stages + settleTime :=
                (Activity.settling.inj settling).symm.trans ends
              have tick : count = ticks := by
                rw [present] at ahead near
                exact eq_of_isLeast least ahead near
              rcases succeeded with ⟨progress, recorded⟩
              refine .closing (before.tail spared) called present ⟨progress, ?_⟩
                (tick ▸ .consumeRecord runner paced.reporter ahead) .refl
              change runner.record.map _ = _
              rw [recorded]
              rfl

theorem leads
    (least : IsLeast {count | start.clock + pauses job.action.stages + settleTime ≤
      start.clock + reportInterval * count} ticks)
    (reached : start.Reached) (opening : start.worker = .busy job .opening)
    (staged : job.action.stages ≠ []) (timely : job.action.isTimely = true)
    (immediate : Immediate links job.action) (leads : LeadsSpared links job start next) :
    Keeping links job start (start.clock + reportInterval * ticks) next := by
  induction leads with
  | refl => exact .opening rfl
  | tail before spared induction =>
      exact induction.turn least before (reached.leads (LeadsSpared.leads before)) opening staged
        timely immediate spared

variable {cleared : Nat}

/-- The worker is at the action until its record is cleared. -/
theorem isAt (keeping : Keeping links job start cleared next)
    (opening : start.worker = .busy job .opening) (early : next.clock < cleared) :
    next.isAt job = true := by
  cases keeping with
  | opening same => exact isAt_of_busy (same ▸ opening)
  | underway paced _ => exact isAt_of_busy paced.busy
  | closing _ _ _ _ closing _ =>
      cases closing with
      | lingering busy _ _ _ _ _ => exact isAt_of_busy busy
      | emptied busy _ _ _ => exact isAt_of_busy busy
      | past _ _ _ _ present _ after =>
          exact absurd (present ▸ after.leads.clock_le) (Nat.not_le_of_lt early)

/-- What is seen of the action wherever every part waits until its record is cleared. -/
theorem shown (keeping : Keeping links job start cleared next)
    (opening : start.worker = .busy job .opening) (waits : next.IsWaiting)
    (early : next.clock < cleared) :
    next.stagesSince start = (timetable start.clock job.action.stages).filter (·.1 ≤ next.clock)
      ∧ ∃ progress, next.record = some ⟨job.action, progress,
          if next.clock < start.clock + pauses job.action.stages then .inProgress else .success,
          decide (start.clock + pauses job.action.stages + settleTime ≤ next.clock)⟩ := by
  cases keeping with
  | opening same =>
      subst same
      exact False.elim (waits.action opening)
  | underway paced schedule =>
      have waiting := waits.action paced.busy
      rw [decide_eq_false (Nat.not_le_of_lt (schedule.lt_consumption waiting))]
      exact schedule.shown paced.shows waiting
  | @closing consumed between called present succeeded closing after =>
      cases closing with
      | lingering busy record journal elapsed _ _ =>
          rw [present] at elapsed
          have finished := Nat.le_trans (Nat.le_add_right _ settleTime) elapsed
          have same : next.stagesSince start = consumed.stagesSince start :=
            partsSince_congr journal start
          rcases succeeded with ⟨progress, recorded⟩
          refine ⟨?_, progress, ?_⟩
          · rw [same, called, filter_timetable_of_le finished]
          · rw [record, recorded, if_neg (Nat.not_lt_of_le finished), decide_eq_true elapsed]
      | emptied busy ending _ _ =>
          exact absurd (next.isWaiting_iff.mp waits).1 (Closing.awake busy ending)
      | past _ _ _ _ reached _ after =>
          exact absurd (reached ▸ after.leads.clock_le) (Nat.not_le_of_lt early)

/-- Wherever every part waits behind that instant, the record was cleared at it. -/
theorem freed (keeping : Keeping links job start cleared next)
    (opening : start.worker = .busy job .opening) (reached : next.Reached)
    (behind : start.clock + pauses job.action.stages + settleTime ≤ cleared)
    (waits : next.IsWaiting) (late : cleared ≤ next.clock) :
    ∃ freed, Freed links job start cleared next freed := by
  cases keeping with
  | opening same =>
      subst same
      exact False.elim (waits.action opening)
  | underway paced schedule =>
      have early := schedule.lt_consumption (waits.action paced.busy)
      exact absurd (Nat.le_trans behind late) (Nat.not_le_of_lt early)
  | @closing consumed between called present succeeded closing after =>
      cases closing with
      | lingering busy _ _ _ _ silenced =>
          rcases silenced with running | ⟨none, _⟩
          · have ahead := (waits.reporter cleared running).2
            exact absurd late (Nat.not_le_of_lt ahead)
          · exact absurd none (waits.action busy)
      | emptied busy ending _ _ =>
          exact absurd (next.isWaiting_iff.mp waits).1 (Closing.awake busy ending)
      | @past freed before looks absent journal instant past after =>
          refine ⟨freed, {
            before := between.trans before
            after, looks, absent, past
            called := (partsSince_congr journal start).trans called
            present := instant
            follows := ?_
            idle := ?_ }⟩
          · intro other offered
            rcases after.takes looks offered waits with ⟨opened, first, rest, clock, busy⟩
            exact ⟨opened, first, rest, clock.trans instant, busy⟩
          · intro nothing
            have idle : freed.Idle freed.intake.nextOrder :=
              ⟨Nat.le_refl _, fun _ => ⟨nothing, Or.inl looks⟩⟩
            have idle : next.Idle freed.intake.nextOrder :=
              after.leads.preserves (Idle _) (fun _ _ _ turn idle => idle.turn turn) idle
            exact idle.record_eq_none reached

end Keeping

/--
A staged action that nobody cancels keeps its timetable over links on which its stages are answered
at once.  Every stage is called behind the waits of the stages before it, the action succeeds behind
the last wait, and its record is consumed half a second later.  It is cleared when the first report
that is not before this instant would be due.  Until then the worker stays at the action, and at
that very instant it turns to the pending action; if there is none there is no record until another
action is accepted.
-/
theorem staged_action_keeps_timetable (reached : start.Reached)
    (opening : start.worker = .busy job .opening) (staged : job.action.stages ≠ [])
    (timely : job.action.isTimely = true) (links : Link → Prop)
    (immediate : Immediate links job.action) :
    let finish := start.clock + pauses job.action.stages
    ∃ ticks, IsLeast {count | finish + settleTime ≤ start.clock + reportInterval * count} ticks
      ∧ let cleared := start.clock + reportInterval * ticks
        (∀ next, LeadsSpared links job start next →
            (next.clock < cleared → next.isAt job = true)
            ∧ (next.IsWaiting → next.clock < cleared →
                next.stagesSince start =
                    (timetable start.clock job.action.stages).filter (·.1 ≤ next.clock)
                  ∧ ∃ progress, next.record = some ⟨job.action, progress,
                      if next.clock < finish then .inProgress else .success,
                      decide (finish + settleTime ≤ next.clock)⟩)
            ∧ (next.IsWaiting → cleared ≤ next.clock →
                ∃ freed, Freed links job start cleared next freed))
          ∧ ∀ link, links link → ∀ target, start.clock ≤ target →
              ∃ next, LeadsSpared links job start next ∧ next.IsWaiting ∧ next.clock = target := by
  intro finish
  have begun : start.clock ≤ finish + settleTime :=
    Nat.le_trans (Nat.le_add_right _ _) (Nat.le_add_right _ _)
  rcases exists_isLeast begun with ⟨ticks, least⟩
  refine ⟨ticks, least, ?_, ?_⟩
  · intro next leads
    have keeping := Keeping.leads least reached opening staged timely immediate leads
    exact ⟨keeping.isAt opening, keeping.shown opening,
      keeping.freed opening (reached.leads leads.leads) least.1⟩
  · intro link allowed target ahead
    rcases start.flowsUnder_to link ahead with ⟨next, flows, waits, clock⟩
    exact ⟨next, flows.leadsSpared allowed, waits, clock⟩

/-! ## Two stages -/

/-- A stage with a quarter of a second behind it, and one without a wait. -/
def twoStages : CustomAction :=
  .ofStages 7 [⟨.ofCode 16, 0.25⟩, ⟨.ofCode 22, 0⟩]

/-- Both stages have succeeded after 250 ms, and the record is cleared after 800 ms. -/
theorem record_of_twoStages :
    (∃ next, next.clock = 799
      ∧ LeadsSpared (· = .accepting) ⟨0, twoStages⟩ (taken twoStages) next
      ∧ next.stagesSince (taken twoStages) =
          [(0, ⟨.ofCode 16, 0.25⟩), (250, ⟨.ofCode 22, 0⟩)]
      ∧ ∃ progress, next.record = some ⟨twoStages, progress, .success, true⟩)
    ∧ ∃ next freed, next.clock = 1000
        ∧ Freed (· = .accepting) ⟨0, twoStages⟩ (taken twoStages) 800 next freed := by
  have immediate : Immediate (· = .accepting) twoStages := by
    rintro link rfl stage _
    rfl
  have waited : pauses twoStages.stages = 250 := by rfl
  have called : timetable 0 twoStages.stages =
      [(0, ⟨.ofCode 16, 0.25⟩), (250, ⟨.ofCode 22, 0⟩)] := by rfl
  rcases staged_action_keeps_timetable (taken_reached twoStages) (taken_opening twoStages)
    (List.cons_ne_nil _ _) (by decide) (· = .accepting) immediate with ⟨ticks, least, runs, reaches⟩
  obtain rfl : 8 = ticks := by
    refine eq_of_isLeast least ?_ ?_
    · rw [waited]
      decide
    · rw [waited]
      decide
  refine ⟨?_, ?_⟩
  · rcases reaches .accepting rfl 799 (by decide) with ⟨next, leads, waits, clock⟩
    have early : next.clock < (taken twoStages).clock + reportInterval * 8 := by
      rw [clock]
      decide
    rcases (runs next leads).2.1 waits early with ⟨calls, progress, recorded⟩
    have consumed : (taken twoStages).clock + pauses twoStages.stages + settleTime ≤ 799 := by
      rw [waited]
      decide
    have finished := Nat.le_trans (Nat.le_add_right _ _) consumed
    refine ⟨next, clock, leads, ?_, progress, ?_⟩
    · rw [calls, clock]
      exact (filter_timetable_of_le finished).trans called
    · rw [recorded, clock, if_neg (Nat.not_lt_of_le finished), decide_eq_true consumed]
  · rcases reaches .accepting rfl 1000 (by decide) with ⟨next, leads, waits, clock⟩
    have late : (taken twoStages).clock + reportInterval * 8 ≤ next.clock := by
      rw [clock]
      decide
    rcases (runs next leads).2.2 waits late with ⟨freed, freedAt⟩
    exact ⟨next, freed, clock, freedAt⟩

end FlightGuard.Runner
