import FlightGuard.Proofs.Runner.Conclusion
import FlightGuard.Proofs.Runner.Scenes

/-!
# Actions do not overlap

A chronicle has a chapter for every action whose record was created, the latest first.  A chapter
says since when the record holds its result, when the reporter ended, when the record was cleared,
and what the record held meanwhile.  Chapters do not overlap: before an action opens its record, the
record of every earlier one was cleared, with its reporter gone and with a result that had stood for
the time to settle.  All that is sent in between is sent for the action of the latest chapter.
-/

namespace FlightGuard

/-- How far an action has come, without the mark that it is consumed. -/
def Execution.result (execution : Execution) : Float32 × Outcome :=
  (execution.progress, execution.outcome)

/-- The action whose record is created between two moments, if one is. -/
def Runner.opens? (before after : Runner) : Option Job :=
  match before.worker, after.worker with
  | .busy _ .opening, .busy _ .opening => none
  | .busy job .opening, _ => some job
  | _, _ => none

theorem Runner.opens?_of_worker_eq {before after : Runner}
    (same : after.worker = before.worker) : before.opens? after = none := by
  rw [opens?, same]
  cases before.worker with
  | busy job activity => cases activity <;> rfl
  | looking | parked | ended | failed => rfl

theorem Runner.opens?_of_busy {before : Runner} {job : Job} {activity : Activity}
    (busy : before.worker = .busy job activity) (begun : activity ≠ .opening) (after : Runner) :
    before.opens? after = none := by
  rw [opens?, busy]
  cases activity with
  | opening => exact absurd rfl begun
  | _ => rfl

/-- What is known about an action whose record was created. -/
structure Chapter where
  job : Job
  /-- When the record was created. -/
  opened : Nat
  /-- Since when the record holds the result that it holds. -/
  since : Nat
  /-- When the reporter ended. -/
  silenced : Option Nat
  /-- When the record was cleared. -/
  cleared : Option Nat
  /-- What the record held, the latest first. -/
  shown : List Execution

namespace Chapter

/-- The instant at which something is given up, if it is. -/
def givenUp {Thing : Type} (before after : Option Thing) (instant : Nat) : Option Nat :=
  match before, after with
  | some _, none => some instant
  | _, _ => none

/-- Goes on with a chapter from one moment to the next. -/
def goOn (chapter : Chapter) (before after : Runner) : Chapter :=
  { chapter with
    since :=
      if after.record.map Execution.result = before.record.map Execution.result
          ∨ after.record = none then chapter.since
      else after.clock
    silenced := (givenUp before.reporter after.reporter after.clock).or chapter.silenced
    cleared := (givenUp before.record after.record after.clock).or chapter.cleared
    shown := after.record.toList ++ chapter.shown }

/-- The action of a chapter was over at an instant, and its last result had settled. -/
def ClosedBy (chapter : Chapter) (instant : Nat) : Prop :=
  ∃ silenced cleared, chapter.silenced = some silenced ∧ chapter.cleared = some cleared
    ∧ silenced ≤ cleared ∧ chapter.since + Runner.settleTime ≤ cleared ∧ cleared ≤ instant

/-- A report tells what the record of a chapter held. -/
def Told (chapter : Chapter) (report : ProgressReport) : Prop :=
  ∃ held ∈ chapter.shown, report = ⟨chapter.job.action.id, held.progress, held.outcome⟩

/-- An entry of the journal belongs to the action of a chapter. -/
def Owns (chapter : Chapter) : JournalEntry → Prop
  | .reported _ report _ => chapter.Told report
  | entry => entry.IsCallOf chapter.job.action

theorem owns_of_isCallOf {chapter : Chapter} {entry : JournalEntry}
    (isCall : entry.IsCallOf chapter.job.action) : chapter.Owns entry := by
  cases entry with
  | reported _ _ _ => exact isCall.elim
  | stageCalled _ _ | stageAnswered _ _ | scriptCalled _ _ => exact isCall

end Chapter

namespace Chronicle

/-- Begins a chapter where a record is created, and otherwise goes on with the latest one. -/
def enter (chapters : List Chapter) (before : Scene) (_beat : Scene.Beat) (after : Scene) :
    List Chapter :=
  match before.runner.opens? after.runner with
  | some job =>
      ⟨job, after.runner.clock, after.runner.clock, none, none, after.runner.record.toList⟩
        :: chapters
  | none => chapters.modifyHead fun chapter => chapter.goOn before.runner after.runner

end Chronicle

/-! ## The latest chapter -/

/-- The result that an action settles with has stood long enough when it is over. -/
def Activity.Keeps (since clock : Nat) : Activity → Prop
  | .settling ends => since + Runner.settleTime ≤ ends
  | .lingering => since + Runner.settleTime ≤ clock
  | .opening | .sweeping | .retiring => False
  | .staging _ _ | .calling _ _ _ _ _ | .resting _ _ _ | .scripting | .awaiting _ _ => True

theorem Activity.keeps_of_isExecuting {activity : Activity} (since clock : Nat)
    (executing : activity.isExecuting = true) : activity.Keeps since clock := by
  cases activity with
  | opening | settling | lingering | sweeping | retiring => cases executing
  | staging | calling | resting | scripting | awaiting => trivial

theorem Activity.recordState_of_isExecuting {activity : Activity}
    (executing : activity.isExecuting = true) : activity.recordState = .running := by
  cases activity with
  | opening | settling | lingering | sweeping | retiring => cases executing
  | staging | calling | resting | scripting | awaiting => rfl

namespace Chapter

/-- A chapter is about what the worker does. -/
def Follows (chapter : Chapter) (clock : Nat) : Worker → Prop
  | .busy job activity =>
      chapter.job = job ∧ activity.Pursues job.action ∧ activity.Keeps chapter.since clock
  | .failed => True
  | .looking | .parked | .ended => False

/-- A chapter tells how it stands with an action that has its record. -/
structure Tells (chapter : Chapter) (scene : Scene) : Prop where
  uncleared : chapter.cleared = none
  recorded : ∃ execution ∈ chapter.shown, scene.runner.record = some execution
  owned : ∀ execution ∈ chapter.shown, execution.action = chapter.job.action
  silenced : scene.runner.reporter = none →
    ∃ instant ≤ scene.runner.clock, chapter.silenced = some instant
  reporting : scene.runner.reporter ≠ none → chapter.silenced = none
  draft : ∀ report, scene.draft = some report →
    scene.runner.reporter ≠ none ∧ chapter.Told report
  opened : chapter.opened ≤ chapter.since
  since : chapter.since ≤ scene.runner.clock
  follows : chapter.Follows scene.runner.clock scene.runner.worker

theorem goOn_since_le {chapter : Chapter} {before after : Runner}
    (since : chapter.since ≤ before.clock) (forward : before.clock ≤ after.clock) :
    (chapter.goOn before after).since ≤ after.clock := by
  rw [goOn]
  split
  · exact Nat.le_trans since forward
  · exact Nat.le_refl _

theorem goOn_opened_le {chapter : Chapter} {before after : Runner}
    (opened : chapter.opened ≤ chapter.since) (since : chapter.since ≤ before.clock)
    (forward : before.clock ≤ after.clock) :
    (chapter.goOn before after).opened ≤ (chapter.goOn before after).since := by
  rw [goOn]
  split
  · exact opened
  · exact Nat.le_trans opened (Nat.le_trans since forward)

theorem goOn_since_eq (chapter : Chapter) {before after : Runner}
    (kept : after.record.map Execution.result = before.record.map Execution.result) :
    (chapter.goOn before after).since = chapter.since :=
  if_pos (Or.inl kept)

theorem givenUp_self {Thing : Type} (thing : Option Thing) (instant : Nat) :
    givenUp thing thing instant = none := by
  cases thing <;> rfl

/-- Without a record and a reporter there is nothing to go on about. -/
theorem goOn_eq_self (chapter : Chapter) {before after : Runner}
    (record : before.record = none) (cleared : after.record = none)
    (reporter : before.reporter = none) (silent : after.reporter = none) :
    chapter.goOn before after = chapter := by
  rw [goOn, record, cleared, reporter, silent]
  rfl

theorem ClosedBy.mono {chapter : Chapter} {instant later : Nat} (closed : chapter.ClosedBy instant)
    (forward : instant ≤ later) : chapter.ClosedBy later := by
  rcases closed with ⟨silenced, cleared, ended, gone, before, settled, reached⟩
  exact ⟨silenced, cleared, ended, gone, before, settled, Nat.le_trans reached forward⟩

namespace Tells

variable {chapter : Chapter} {scene next : Scene}

theorem told (tells : chapter.Tells scene) {report : ProgressReport}
    (told : Runner.openReport scene.runner.record = some report) : chapter.Told report := by
  rcases tells.recorded with ⟨execution, shown, recorded⟩
  rw [recorded] at told
  rcases Option.map_eq_some_iff.mp told with ⟨held, filtered, rfl⟩
  obtain rfl : execution = held := Option.some.inj (Option.eq_some_of_filter_eq_some filtered)
  refine ⟨execution, shown, ?_⟩
  rw [tells.owned execution shown]

/-- A chapter goes on telling as long as its record is there and no reporter is started. -/
theorem goOn (tells : chapter.Tells scene) (forward : scene.runner.clock ≤ next.runner.clock)
    (recorded : next.runner.record.map Execution.action =
      scene.runner.record.map Execution.action)
    (ended : scene.runner.reporter = none → next.runner.reporter = none)
    (draft : ∀ report, next.draft = some report →
      next.runner.reporter ≠ none ∧ chapter.Told report)
    (follows : (chapter.goOn scene.runner next.runner).Follows next.runner.clock
      next.runner.worker) : (chapter.goOn scene.runner next.runner).Tells next := by
  rcases tells.recorded with ⟨execution, shown, before⟩
  rw [before, Option.map_some] at recorded
  rcases Option.map_eq_some_iff.mp recorded with ⟨present, after, same⟩
  have entered : (chapter.goOn scene.runner next.runner).shown = present :: chapter.shown := by
    rw [Chapter.goOn, after]
    rfl
  have owned : ∀ held ∈ present :: chapter.shown, held.action = chapter.job.action := by
    intro held member
    rcases List.mem_cons.mp member with rfl | earlier
    · exact same.trans (tells.owned execution shown)
    · exact tells.owned held earlier
  refine {
    uncleared := ?_
    recorded := ⟨present, entered ▸ List.mem_cons_self, after⟩
    owned := entered ▸ owned
    silenced := ?_
    reporting := ?_
    draft := ?_
    opened := goOn_opened_le tells.opened tells.since forward
    since := goOn_since_le tells.since forward
    follows }
  · rw [Chapter.goOn, before, after]
    exact tells.uncleared
  · intro silent
    cases running : scene.runner.reporter with
    | none =>
        rcases tells.silenced running with ⟨instant, reached, silenced⟩
        refine ⟨instant, Nat.le_trans reached forward, ?_⟩
        rw [Chapter.goOn, running, silent]
        exact silenced
    | some due =>
        refine ⟨next.runner.clock, Nat.le_refl _, ?_⟩
        rw [Chapter.goOn, running, silent]
        rfl
  · intro running
    cases reporter : next.runner.reporter with
    | none => exact absurd reporter running
    | some due =>
        have before : scene.runner.reporter ≠ none := fun none => running (ended none)
        have unnoted : givenUp scene.runner.reporter (some due) next.runner.clock = none := by
          cases scene.runner.reporter <;> rfl
        rw [Chapter.goOn, reporter, unnoted]
        exact tells.reporting before
  · intro report drafted
    rcases draft report drafted with ⟨running, held, member, rfl⟩
    exact ⟨running, held, entered ▸ List.mem_cons_of_mem _ member, rfl⟩

/-- A chapter goes on telling while the worker and the record stand still. -/
theorem still (tells : chapter.Tells scene)
    (worker : next.runner.worker = scene.runner.worker)
    (record : next.runner.record = scene.runner.record)
    (forward : scene.runner.clock ≤ next.runner.clock)
    (ended : scene.runner.reporter = none → next.runner.reporter = none)
    (draft : ∀ report, next.draft = some report →
      next.runner.reporter ≠ none ∧ chapter.Told report) :
    (chapter.goOn scene.runner next.runner).Tells next := by
  refine tells.goOn forward (by rw [record]) ended draft ?_
  have since : (chapter.goOn scene.runner next.runner).since = chapter.since :=
    chapter.goOn_since_eq (by rw [record])
  have follows := tells.follows
  rw [worker]
  cases standing : scene.runner.worker with
  | busy job activity =>
      rw [standing] at follows
      rcases follows with ⟨same, pursues, keeps⟩
      refine ⟨same, pursues, ?_⟩
      rw [since]
      cases activity with
      | lingering => exact Nat.le_trans keeps forward
      | _ => exact keeps
  | failed => trivial
  | looking | parked | ended =>
      rw [standing] at follows
      exact follows.elim

end Tells

end Chapter

/-! ## All chapters -/

/-- The latest chapter is closed where there is no record, and is still written otherwise. -/
inductive Latest (scene : Scene) : List Chapter → Prop where
  | closed {chapters : List Chapter} (absent : scene.runner.worker.recordState = .absent)
      (record : scene.runner.record = none) (reporter : scene.runner.reporter = none)
      (draft : scene.draft = none)
      (closed : ∀ chapter ∈ chapters, chapter.ClosedBy scene.runner.clock) :
      Latest scene chapters
  | written {chapter : Chapter} {earlier : List Chapter} (tells : chapter.Tells scene) :
      Latest scene (chapter :: earlier)

/-- No chapter is opened before the earlier ones are closed. -/
structure Chronicle (chapters : List Chapter) (scene : Scene) : Prop where
  ordered : chapters.Pairwise fun later earlier => earlier.ClosedBy later.opened
  latest : Latest scene chapters

namespace Chronicle

variable {chapters : List Chapter} {scene next : Scene}

theorem initial (clock : Nat) : Chronicle [] (.initial clock) where
  ordered := .nil
  latest := by
    refine .closed rfl rfl rfl rfl ?_
    intro chapter none
    cases none

/-- What is written in the latest chapter does not disturb the order of the chapters. -/
theorem goOn (chronicle : Chronicle chapters scene) {beat : Scene.Beat}
    (unopened : scene.runner.opens? next.runner = none)
    (latest : Latest next (chapters.modifyHead fun chapter =>
      chapter.goOn scene.runner next.runner)) :
    Chronicle (enter chapters scene beat next) next := by
  rw [enter, unopened]
  refine ⟨?_, latest⟩
  have ordered := chronicle.ordered
  cases chapters with
  | nil => exact .nil
  | cons chapter earlier =>
      rcases List.pairwise_cons.mp ordered with ⟨closed, rest⟩
      exact List.pairwise_cons.mpr ⟨closed, rest⟩

/-- Where there is still no record all chapters stay as they are. -/
theorem stay (closed : ∀ chapter ∈ chapters, chapter.ClosedBy scene.runner.clock)
    (before : scene.runner.record = none) (still : scene.runner.reporter = none)
    (absent : next.runner.worker.recordState = .absent) (record : next.runner.record = none)
    (reporter : next.runner.reporter = none) (draft : next.draft = none)
    (forward : scene.runner.clock ≤ next.runner.clock) :
    Latest next (chapters.modifyHead fun chapter => chapter.goOn scene.runner next.runner) := by
  have unchanged : (chapters.modifyHead fun chapter => chapter.goOn scene.runner next.runner) =
      chapters := by
    cases chapters with
    | nil => rfl
    | cons chapter earlier =>
        rw [List.modifyHead_cons, chapter.goOn_eq_self before record still reporter]
  rw [unchanged]
  exact .closed absent record reporter draft fun chapter member =>
    (closed chapter member).mono forward

/-- Nothing happens to worker, record, reporter and draft, while time may pass. -/
theorem quiet (chronicle : Chronicle chapters scene) {beat : Scene.Beat}
    (worker : next.runner.worker = scene.runner.worker)
    (record : next.runner.record = scene.runner.record)
    (reporter : next.runner.reporter = scene.runner.reporter) (draft : next.draft = scene.draft)
    (forward : scene.runner.clock ≤ next.runner.clock) :
    Chronicle (enter chapters scene beat next) next := by
  refine chronicle.goOn (Runner.opens?_of_worker_eq worker) ?_
  cases chronicle.latest with
  | closed absent gone silent undrafted closed =>
      exact stay closed gone silent (worker ▸ absent) (record ▸ gone) (reporter ▸ silent)
        (draft.trans undrafted) forward
  | @written chapter earlier tells =>
      refine .written (tells.still worker record forward (reporter ▸ id) ?_)
      rw [draft, reporter]
      exact tells.draft

/-- What the worker has left to do is what is left of its action. -/
theorem pursues (chronicle : Chronicle chapters scene) {job : Job} {activity : Activity}
    (busy : scene.runner.worker = .busy job activity) : activity.Pursues job.action := by
  cases chronicle.latest with
  | closed absent _ _ _ _ =>
      rw [busy] at absent
      cases activity with
      | opening | sweeping | retiring => trivial
      | staging | calling | resting | scripting | awaiting | settling | lingering => cases absent
  | written tells =>
      have follows := tells.follows
      rw [busy] at follows
      exact follows.2.1

/-- An action whose record is there is the one of the latest chapter. -/
theorem written (chronicle : Chronicle chapters scene) {job : Job} {activity : Activity}
    (busy : scene.runner.worker = .busy job activity)
    (recorded : activity.recordState ≠ .absent) :
    ∃ chapter earlier, chapters = chapter :: earlier ∧ chapter.Tells scene ∧ chapter.job = job
      ∧ activity.Keeps chapter.since scene.runner.clock := by
  cases chronicle.latest with
  | closed absent _ _ _ _ =>
      rw [busy] at absent
      exact absurd absent recorded
  | @written chapter earlier tells =>
      have follows := tells.follows
      rw [busy] at follows
      exact ⟨chapter, earlier, rfl, tells, follows.1, follows.2.2⟩

/-- Where the worker is about to create a record there is none. -/
theorem closed (chronicle : Chronicle chapters scene)
    (absent : scene.runner.worker.recordState = .absent) :
    scene.runner.record = none ∧ scene.runner.reporter = none ∧ scene.draft = none
      ∧ ∀ chapter ∈ chapters, chapter.ClosedBy scene.runner.clock := by
  cases chronicle.latest with
  | closed _ record reporter draft closed => exact ⟨record, reporter, draft, closed⟩
  | written tells =>
      have follows := tells.follows
      cases standing : scene.runner.worker with
      | busy job activity =>
          rw [standing] at follows absent
          rcases follows with ⟨_, _, keeps⟩
          cases activity with
          | opening | sweeping | retiring => exact keeps.elim
          | staging | calling | resting | scripting | awaiting | settling | lingering =>
              cases absent
      | failed =>
          rw [standing] at absent
          cases absent
      | looking | parked | ended =>
          rw [standing] at follows
          exact follows.elim

/-- The record of an action is created where no chapter is open. -/
theorem opens (chronicle : Chronicle chapters scene) {beat : Scene.Beat} {job : Job}
    (busy : scene.runner.worker = .busy job .opening)
    (pursues : ∀ following, (scene.runner.openJob job).worker = .busy job following →
      following.Pursues job.action) :
    Chronicle (enter chapters scene beat { scene with runner := scene.runner.openJob job })
      { scene with runner := scene.runner.openJob job } := by
  rcases chronicle.closed (busy ▸ rfl) with ⟨_, _, undrafted, closed⟩
  have turned : ∃ following, (scene.runner.openJob job).worker = .busy job following
      ∧ following.isExecuting = true := by
    refine ⟨_, rfl, ?_⟩
    split <;> rfl
  rcases turned with ⟨following, working, executing⟩
  have opened : scene.runner.opens? (scene.runner.openJob job) = some job := by
    rw [Runner.opens?, busy, working]
    cases following with
    | opening => cases executing
    | _ => rfl
  rw [enter, opened]
  refine ⟨List.pairwise_cons.mpr ⟨closed, chronicle.ordered⟩, .written ?_⟩
  exact {
    uncleared := rfl
    recorded := ⟨_, List.mem_cons_self, rfl⟩
    owned := by
      intro execution shown
      rw [List.mem_singleton.mp shown]
      rfl
    silenced := by
      intro none
      cases none
    reporting := fun _ => rfl
    draft := by
      intro report drafted
      rw [undrafted] at drafted
      cases drafted
    opened := Nat.le_refl _
    since := Nat.le_refl _
    follows := by
      rw [working]
      exact ⟨rfl, pursues following working, Activity.keeps_of_isExecuting _ _ executing⟩ }

/-- The record of an action is cleared, and its chapter is closed. -/
theorem clears (chronicle : Chronicle chapters scene) {beat : Scene.Beat} {job : Job}
    (busy : scene.runner.worker = .busy job .lingering) (alone : scene.runner.reporter = none) :
    Chronicle
      (enter chapters scene beat
        { scene with runner := { scene.runner with record := none }.moveTo job .sweeping })
      { scene with runner := { scene.runner with record := none }.moveTo job .sweeping } := by
  refine chronicle.goOn (Runner.opens?_of_busy busy Activity.noConfusion _) ?_
  rcases chronicle.written busy RecordState.noConfusion with
    ⟨chapter, earlier, rfl, tells, _, kept⟩
  have undrafted : scene.draft = none := by
    refine Option.eq_none_iff_forall_ne_some.mpr ?_
    intro report drafted
    exact (tells.draft report drafted).1 alone
  have since : (chapter.goOn scene.runner
      ({ scene.runner with record := none }.moveTo job .sweeping)).since = chapter.since :=
    if_pos (Or.inr rfl)
  have ended : (chapter.goOn scene.runner
      ({ scene.runner with record := none }.moveTo job .sweeping)).ClosedBy
        scene.runner.clock := by
    rcases tells.silenced alone with ⟨silenced, reached, silent⟩
    rcases tells.recorded with ⟨execution, _, recorded⟩
    refine ⟨silenced, scene.runner.clock, ?_, ?_, reached, since ▸ kept, Nat.le_refl _⟩
    · change (Chapter.givenUp scene.runner.reporter scene.runner.reporter _).or _ = _
      rw [Chapter.givenUp_self]
      exact silent
    · change (Chapter.givenUp scene.runner.record none _).or _ = _
      rw [recorded]
      rfl
  refine .closed rfl rfl alone undrafted ?_
  intro other member
  rcases List.mem_cons.mp member with rfl | before
  · exact ended
  · have closed := (List.pairwise_cons.mp chronicle.ordered).1 other before
    exact closed.mono (Nat.le_trans tells.opened tells.since)

/-- The record of an action stays, whatever becomes of its progress and its result. -/
theorem records (chronicle : Chronicle chapters scene) {beat : Scene.Beat} {job : Job}
    {activity : Activity} {runner : Runner} (busy : scene.runner.worker = .busy job activity)
    (running : activity.recordState ≠ .absent) (clock : runner.clock = scene.runner.clock)
    (reporter : runner.reporter = scene.runner.reporter)
    (action : runner.record.map Execution.action = scene.runner.record.map Execution.action)
    (follows : ∀ chapter : Chapter, chapter.Tells scene → chapter.job = job →
      activity.Keeps chapter.since scene.runner.clock →
        (chapter.goOn scene.runner runner).Follows runner.clock runner.worker) :
    Chronicle (enter chapters scene beat { scene with runner }) { scene with runner } := by
  have begun : activity ≠ .opening := by
    rintro rfl
    exact running rfl
  rcases chronicle.written busy running with ⟨chapter, earlier, rfl, tells, same, keeps⟩
  refine chronicle.goOn (Runner.opens?_of_busy busy begun _) (.written ?_)
  refine tells.goOn (Nat.le_of_eq clock.symm) action (fun none => reporter.trans none) ?_
    (follows chapter tells same keeps)
  intro report drafted
  rcases tells.draft report drafted with ⟨alive, told⟩
  exact ⟨reporter ▸ alive, told⟩

/-- The chronicle goes on with every phase of an action. -/
theorem phase (chronicle : Chronicle chapters scene) {beat : Scene.Beat} {job : Job}
    {activity : Activity} {runner : Runner} (busy : scene.runner.worker = .busy job activity)
    (phase : Runner.Phase job scene.runner activity runner)
    (pursues : ∀ following, runner.worker = .busy job following →
      following.Pursues job.action) :
    Chronicle (enter chapters scene beat { scene with runner }) { scene with runner } := by
  cases phase with
  | opens => exact chronicle.opens busy pursues
  | clears alone => exact chronicle.clears busy alone
  | sweeps | retires =>
      rcases chronicle.closed (busy ▸ rfl) with ⟨record, reporter, draft, closed⟩
      refine chronicle.goOn (Runner.opens?_of_busy busy Activity.noConfusion _) ?_
      exact stay closed record reporter rfl record reporter draft (Nat.le_refl _)
  | executes executing following kept _ =>
      have running := Activity.recordState_of_isExecuting executing
      refine chronicle.records busy (running ▸ RecordState.noConfusion) rfl rfl
        (Execution.map_action_eq kept) ?_
      intro chapter _ same _
      rcases following with rfl | ⟨following, rfl, executing⟩
      · trivial
      · exact ⟨same, pursues following rfl, Activity.keeps_of_isExecuting _ _ executing⟩
  | concludes executing kept =>
      have running := Activity.recordState_of_isExecuting executing
      refine chronicle.records busy (running ▸ RecordState.noConfusion) rfl rfl
        (Execution.map_action_eq kept) ?_
      intro chapter tells same _
      refine ⟨same, trivial, Nat.add_le_add_right ?_ Runner.settleTime⟩
      exact Chapter.goOn_since_le tells.since (Nat.le_refl _)
  | consumes elapsed =>
      have action : (scene.runner.consumeRecord job).record.map Execution.action =
          scene.runner.record.map Execution.action := by
        change (scene.runner.record.map _).map _ = _
        rw [Option.map_map]
        rfl
      have result : (scene.runner.consumeRecord job).record.map Execution.result =
          scene.runner.record.map Execution.result := by
        change (scene.runner.record.map _).map _ = _
        rw [Option.map_map]
        rfl
      refine chronicle.records busy RecordState.noConfusion rfl rfl action ?_
      intro chapter _ same keeps
      refine ⟨same, trivial, ?_⟩
      rw [Chapter.goOn_since_eq chapter result]
      exact Nat.le_trans keeps elapsed

theorem workerSection (chronicle : Chronicle chapters scene) {link : Link} {runner : Runner}
    (performed : Runner.WorkerSection link scene.runner runner) :
    Chronicle (enter chapters scene .work { scene with runner }) { scene with runner } := by
  cases performed with
  | takes standing _ | parks standing _ | wakes standing _ | ends standing _ _ =>
      rcases chronicle.closed (standing ▸ rfl) with ⟨record, reporter, draft, closed⟩
      refine chronicle.goOn (by rw [Runner.opens?, standing]) ?_
      exact stay closed record reporter rfl record reporter draft (Nat.le_refl _)
  | acts busy performed =>
      have pursues := chronicle.pursues busy
      exact chronicle.phase busy (performed.phase pursues) fun _ => performed.pursues pursues

/-- What a live reporter does goes into the latest chapter. -/
theorem reports (chronicle : Chronicle chapters scene) {beat : Scene.Beat}
    (running : scene.runner.reporter ≠ none)
    (worker : next.runner.worker = scene.runner.worker)
    (record : next.runner.record = scene.runner.record)
    (clock : next.runner.clock = scene.runner.clock)
    (draft : ∀ chapter : Chapter, chapter.Tells scene →
      ∀ report, next.draft = some report → next.runner.reporter ≠ none ∧ chapter.Told report) :
    Chronicle (enter chapters scene beat next) next := by
  refine chronicle.goOn (Runner.opens?_of_worker_eq worker) ?_
  cases chronicle.latest with
  | closed _ _ silent _ _ => exact absurd silent running
  | @written chapter earlier tells =>
      exact .written (tells.still worker record (Nat.le_of_eq clock.symm)
        (fun none => absurd none running) (draft chapter tells))

/-- The chronicle goes on whatever happens. -/
theorem step (chronicle : Chronicle chapters scene) {link : Link} {beat : Scene.Beat}
    (step : Scene.Step link scene beat next) : Chronicle (enter chapters scene beat next) next := by
  cases step with
  | idles _ | refuses _ _ | accepts _ _ | announces _ | stops =>
      exact chronicle.quiet rfl rfl rfl rfl (Nat.le_refl _)
  | passes => exact chronicle.quiet rfl rfl rfl rfl (Nat.le_add_right _ _)
  | cancels =>
      rcases scene.runner.cancel_frame _ with ⟨signal, cancelled⟩
      rw [cancelled]
      exact chronicle.quiet rfl rfl rfl rfl (Nat.le_refl _)
  | works performed => exact chronicle.workerSection performed
  | leaves parked _ =>
      rcases chronicle.closed (parked ▸ rfl) with ⟨record, reporter, draft, closed⟩
      refine chronicle.goOn (by rw [Runner.opens?, parked]) ?_
      exact stay closed record reporter rfl record reporter draft (Nat.le_refl _)
  | judges busy _ =>
      refine chronicle.phase busy (.judges _ _ _ _) ?_
      intro following working
      rcases scene.runner.judge_eq _ with ⟨change, _, judged⟩
      rw [judged] at working
      cases working
      trivial
  | reads _ running _ told =>
      have alive : scene.runner.reporter ≠ none := running ▸ Option.some_ne_none _
      refine chronicle.reports alive rfl rfl rfl ?_
      intro chapter tells report drafted
      obtain rfl := Option.some.inj drafted
      exact ⟨alive, tells.told told⟩
  | sends _ running =>
      refine chronicle.reports (running ▸ Option.some_ne_none _) rfl rfl rfl ?_
      intro _ _ report none
      cases none
  | ends silent idle _ =>
      cases running : scene.runner.reporter with
      | none => exact chronicle.quiet rfl rfl running.symm rfl (Nat.le_refl _)
      | some due =>
          refine chronicle.reports (running ▸ Option.some_ne_none _) rfl rfl rfl ?_
          intro _ _ report drafted
          rw [idle] at drafted
          cases drafted

/-- Whatever passes over the link is owned by the latest chapter, which is still open. -/
theorem journal (chronicle : Chronicle chapters scene) {link : Link} {beat : Scene.Beat}
    (step : Scene.Step link scene beat next) :
    next.runner.journal = scene.runner.journal
      ∨ ∃ entry chapter earlier, next.runner.journal = entry :: scene.runner.journal
          ∧ chapters = chapter :: earlier ∧ chapter.Tells scene ∧ chapter.Owns entry := by
  rcases step.journal (fun _ _ => chronicle.pursues) with
    same | ⟨entry, job, activity, noted, busy, executing, isCall⟩ | ⟨report, drafted, noted⟩
  · exact Or.inl same
  · have running := Activity.recordState_of_isExecuting executing
    rcases chronicle.written busy (running ▸ RecordState.noConfusion) with
      ⟨chapter, earlier, first, tells, rfl, _⟩
    exact Or.inr ⟨entry, chapter, earlier, noted, first, tells, Chapter.owns_of_isCallOf isCall⟩
  · cases chronicle.latest with
    | closed _ _ _ undrafted _ =>
        rw [undrafted] at drafted
        cases drafted
    | @written chapter earlier tells =>
        exact Or.inr ⟨_, chapter, earlier, noted, rfl, tells, (tells.draft report drafted).2⟩

/-- An entry of the journal finds the record of its action, in the latest chapter. -/
theorem journal_head (chronicle : Chronicle chapters scene) {link : Link} {beat : Scene.Beat}
    (step : Scene.Step link scene beat next) :
    next.runner.journal = scene.runner.journal
      ∨ ∃ entry, next.runner.journal = entry :: scene.runner.journal
          ∧ ∃ chapter execution, chapters.head? = some chapter
              ∧ scene.runner.record = some execution ∧ chapter.job.action = execution.action
              ∧ chapter.Owns entry := by
  rcases chronicle.journal step with same | ⟨entry, chapter, earlier, noted, rfl, tells, owns⟩
  · exact Or.inl same
  · rcases tells.recorded with ⟨execution, shown, recorded⟩
    exact Or.inr ⟨entry, noted, chapter, execution, rfl, recorded,
      (tells.owned execution shown).symm, owns⟩

/-- Without a record nothing is sent. -/
theorem sent_eq (chronicle : Chronicle chapters scene) {link : Link} {beat : Scene.Beat}
    (step : Scene.Step link scene beat next) (record : scene.runner.record = none) :
    next.runner.sent = scene.runner.sent := by
  rcases chronicle.journal_head step with same | ⟨_, _, _, execution, _, recorded, _⟩
  · rw [Runner.sent, same, Runner.sent]
  · rw [record] at recorded
    cases recorded

/-- The record that is there belongs to the latest chapter, and so does what the worker does. -/
theorem head_of_record (chronicle : Chronicle chapters scene) {execution : Execution}
    (recorded : scene.runner.record = some execution) :
    ∃ chapter, chapters.head? = some chapter ∧ chapter.cleared = none
      ∧ chapter.job.action = execution.action
      ∧ ∀ job activity, scene.runner.worker = .busy job activity → chapter.job = job := by
  cases chronicle.latest with
  | closed _ record _ _ _ =>
      rw [record] at recorded
      cases recorded
  | @written chapter earlier tells =>
      rcases tells.recorded with ⟨present, shown, same⟩
      obtain rfl : present = execution := Option.some.inj (same.symm.trans recorded)
      refine ⟨chapter, rfl, tells.uncleared, (tells.owned present shown).symm, ?_⟩
      intro job activity busy
      have follows := tells.follows
      rw [busy] at follows
      exact follows.1

/-- A live reporter is the one of the latest chapter, and its record is there. -/
theorem head_of_reporter (chronicle : Chronicle chapters scene)
    (running : scene.runner.reporter ≠ none) :
    scene.runner.record ≠ none
      ∧ ∃ chapter, chapters.head? = some chapter ∧ chapter.silenced = none := by
  cases chronicle.latest with
  | closed _ _ silent _ _ => exact absurd silent running
  | @written chapter earlier tells =>
      rcases tells.recorded with ⟨execution, _, recorded⟩
      exact ⟨recorded ▸ Option.some_ne_none _, chapter, rfl, tells.reporting running⟩

end Chronicle

namespace Scene

/--
Chapters do not overlap: an earlier action had the last result of its record for the time to settle,
its reporter had ended and its record was cleared before the record of a later one was created.  The
record and the reporter that are there belong to the latest chapter, and so does all that is sent,
which always finds the record of its action.  While the worker sleeps, and after it has ended, there
is neither, and nothing is sent.
-/
theorem actions_never_overlap (clock : Nat) (beats : List (Link × Beat)) :
    let run := (initial clock).observe Chronicle.enter [] beats
    let runner := run.1.runner
    let chapters := run.2
    (chapters.Pairwise fun later earlier => earlier.ClosedBy later.opened)
      ∧ (∀ execution, runner.record = some execution → ∃ chapter, chapters.head? = some chapter
          ∧ chapter.cleared = none ∧ chapter.job.action = execution.action
          ∧ ∀ job activity, runner.worker = .busy job activity → chapter.job = job)
      ∧ (runner.reporter ≠ none → runner.record ≠ none
          ∧ ∃ chapter, chapters.head? = some chapter ∧ chapter.silenced = none)
      ∧ (∀ job, runner.worker = .busy job .opening →
          runner.record = none ∧ runner.reporter = none ∧ run.1.draft = none
            ∧ ∀ chapter ∈ chapters, chapter.ClosedBy runner.clock)
      ∧ (∀ link beat, (run.1.perform link beat).runner.journal = runner.journal
          ∨ ∃ entry, (run.1.perform link beat).runner.journal = entry :: runner.journal
              ∧ ∃ chapter execution, chapters.head? = some chapter
                  ∧ runner.record = some execution ∧ chapter.job.action = execution.action
                  ∧ chapter.Owns entry)
      ∧ (runner.worker = .parked ∨ runner.worker = .ended →
          runner.record = none ∧ runner.reporter = none ∧ run.1.draft = none
            ∧ ∀ link beat, (run.1.perform link beat).runner.sent = runner.sent) := by
  intro run runner chapters
  have chronicle : Chronicle chapters run.1 :=
    observe_preserves (fun _ _ _ _ _ step chronicle => chronicle.step step) (.initial clock) beats
  refine ⟨chronicle.ordered, fun _ => chronicle.head_of_record, chronicle.head_of_reporter,
    ?_, ?_, ?_⟩
  · intro job opening
    exact chronicle.closed (opening ▸ rfl)
  · intro link beat
    exact chronicle.journal_head (run.1.perform_step link beat)
  · intro standing
    have absent : runner.worker.recordState = .absent := by
      rcases standing with parked | ended
      · rw [parked, Worker.recordState]
      · rw [ended, Worker.recordState]
    rcases chronicle.closed absent with ⟨record, reporter, draft, _⟩
    refine ⟨record, reporter, draft, ?_⟩
    intro link beat
    exact chronicle.sent_eq (run.1.perform_step link beat) record

end Scene

end FlightGuard
