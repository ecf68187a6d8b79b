import FlightGuard.Proofs.Runner.Acceptance

/-!
# The history of the accepted actions

The history is what is left of the list of all actions that were ever accepted.  An acceptance is
added to the end of both, and the action that is struck off last leaves behind it what was accepted
later.  So the history is at any time the rest of that list behind the latest action that was struck
off (`Archive.Keeps.listed`), and as the accepted actions are numbered by their places in the list,
the numbers of the history are an interval.
-/

namespace FlightGuard

/-- The action that the worker strikes off the history between two moments, if it does. -/
def Runner.retires? (before after : Runner) : Option Job :=
  match before.worker, after.worker with
  | .busy job .retiring, .looking => some job
  | _, _ => none

theorem Runner.retires?_of_worker_eq {before after : Runner}
    (same : after.worker = before.worker) : before.retires? after = none := by
  rw [retires?, same]
  split
  next busy looking =>
    rw [busy] at looking
    cases looking
  next => rfl

/-- What ends otherwise than in another look for an action strikes nothing off. -/
theorem Runner.retires?_of_not_looking {before after : Runner}
    (elsewhere : after.worker ≠ .looking) : before.retires? after = none := by
  rw [retires?]
  split
  next looking => exact absurd looking elsewhere
  next => rfl

/-- What does not begin in an action strikes nothing off. -/
theorem Runner.retires?_of_not_busy {before : Runner}
    (idle : ∀ job, before.worker ≠ .busy job .retiring) (after : Runner) :
    before.retires? after = none := by
  rw [retires?]
  split
  next busy _ => exact absurd busy (idle _)
  next => rfl

theorem Runner.retires?_of_retiring {before after : Runner} {job : Job}
    (busy : before.worker = .busy job .retiring) (looks : after.worker = .looking) :
    before.retires? after = some job := by
  rw [retires?, busy, looks]

theorem Intake.mem_retire_iff (intake : Intake) (order : Nat) (entry : Job) :
    entry ∈ (intake.retire order).history ↔ entry ∈ intake.history ∧ order < entry.order := by
  rw [retire, List.mem_filter, decide_eq_true_iff]

/-- The ledger, and the actions that were struck off the history, the latest one last. -/
structure Archive where
  ledger : Ledger
  retired : List Job

namespace Archive

/-- Nothing has happened. -/
def empty : Archive := ⟨.empty, []⟩

/-- Notes what a beat does. -/
def enter (archive : Archive) (before : Scene) (beat : Scene.Beat) (after : Scene) : Archive :=
  ⟨archive.ledger.enter before beat after,
    archive.retired ++ (before.runner.retires? after.runner).toList⟩

/-- The first number that is not struck off. -/
def first (archive : Archive) : Nat :=
  archive.retired.getLast?.elim 0 fun job => job.order + 1

/-- Numbers above all that was struck off are not struck off. -/
theorem first_le_of_forall {archive : Archive} {order : Nat}
    (above : ∀ job ∈ archive.retired, job.order < order) : archive.first ≤ order := by
  rw [first]
  cases latest : archive.retired.getLast? with
  | none => exact Nat.zero_le _
  | some job => exact above job (List.mem_of_getLast? latest)

end Archive

/--
All that was taken is struck off, but for an action that the worker is at or was brought down by,
and the record is of that action.
-/
def Worker.Accounts (taken retired : List Job) (recorded : Option CustomAction) : Worker → Prop
  | .busy job _ => taken = retired ++ [job] ∧ ∀ action ∈ recorded, action = job.action
  | .failed => ∃ job, taken = retired ++ [job] ∧ ∀ action ∈ recorded, action = job.action
  | .looking | .parked | .ended => taken = retired

/-! ## The rest of a numbered list -/

/-- Behind a place in a numbered list stand the jobs from that number on. -/
theorem drop_eq_filter_order {jobs : List Job} {count : Nat}
    (numbers : jobs.map Job.order = List.range count) (first : Nat) :
    jobs.drop first = jobs.filter fun job => first ≤ job.order := by
  have front : (jobs.take first).filter (fun job => first ≤ job.order) = [] := by
    rw [List.filter_eq_nil_iff]
    intro job member
    have number : job.order ∈ (List.range count).take first := by
      rw [← numbers, ← List.map_take]
      exact List.mem_map_of_mem member
    rw [List.take_range, List.mem_range] at number
    rw [decide_eq_true_iff]
    omega
  have back : (jobs.drop first).filter (fun job => first ≤ job.order) = jobs.drop first := by
    rw [List.filter_eq_self]
    intro job member
    have number : job.order ∈ (List.range count).drop first := by
      rw [← numbers, ← List.map_drop]
      exact List.mem_map_of_mem member
    rw [List.range_eq_range', List.drop_range', List.mem_range'_1] at number
    rw [decide_eq_true_iff]
    omega
  calc
    jobs.drop first = (jobs.drop first).filter fun job => first ≤ job.order := back.symm
    _ = (jobs.take first).filter (fun job => first ≤ job.order)
          ++ (jobs.drop first).filter (fun job => first ≤ job.order) := by
        rw [front, List.nil_append]
    _ = jobs.filter fun job => first ≤ job.order := by
        rw [← List.filter_append, List.take_append_drop]

theorem Ledger.accepted_enter_of_silent {ledger : Ledger} {scene next : Scene} {beat : Scene.Beat}
    (silent : beat.offered? = none) :
    (ledger.enter scene beat next).accepted = ledger.accepted := by
  rw [enter, silent]

/-! ## The archive of a run -/

namespace Archive

variable {archive : Archive} {link : Link} {scene next : Scene} {beat : Scene.Beat}

/-- The books on taken and retired actions agree with the worker and its record. -/
def Balances (archive : Archive) (runner : Runner) : Prop :=
  runner.worker.Accounts archive.ledger.taken archive.retired
    (runner.record.map Execution.action)

/-- The books balance where nothing is noted. -/
theorem Balances.still (step : Scene.Step link scene beat next)
    (turned : scene.runner.turnsTo? next.runner = none)
    (retired : scene.runner.retires? next.runner = none)
    (balances : archive.Balances next.runner) :
    (archive.enter scene beat next).Balances next.runner := by
  rw [Balances, enter, step.taken_enter, turned, retired, Option.toList_none, List.append_nil,
    List.append_nil]
  exact balances

/-- The books balance where worker and record stay. -/
theorem Balances.of_worker_eq (balances : archive.Balances scene.runner)
    (step : Scene.Step link scene beat next) (worker : next.runner.worker = scene.runner.worker)
    (record : next.runner.record.map Execution.action =
      scene.runner.record.map Execution.action) :
    (archive.enter scene beat next).Balances next.runner := by
  apply still step (Runner.turnsTo?_of_worker_eq worker) (Runner.retires?_of_worker_eq worker)
  rw [Balances, worker, record]
  exact balances

/-- The books balance where the worker goes on with its action. -/
theorem Balances.of_busy (balances : archive.Balances scene.runner)
    (step : Scene.Step link scene beat next) {job : Job} {activity : Activity}
    (busy : scene.runner.worker = .busy job activity)
    (worker : next.runner.worker = .failed
      ∨ ∃ following, next.runner.worker = .busy job following)
    (record : ∀ action ∈ next.runner.record.map Execution.action,
      scene.runner.record.map Execution.action = some action ∨ action = job.action) :
    (archive.enter scene beat next).Balances next.runner := by
  have elsewhere : next.runner.worker ≠ .looking := by
    rcases worker with failed | ⟨following, busy⟩
    · rw [failed]
      exact Worker.noConfusion
    · rw [busy]
      exact Worker.noConfusion
  apply still step (Runner.turnsTo?_of_busy busy _) (Runner.retires?_of_not_looking elsewhere)
  rw [Balances, busy] at balances
  obtain ⟨taken, recorded⟩ := balances
  have kept : ∀ action ∈ next.runner.record.map Execution.action, action = job.action := by
    intro action member
    rcases record action member with before | own
    · exact recorded action before
    · exact own
  rcases worker with failed | ⟨following, busy⟩
  · rw [Balances, failed]
    exact ⟨job, taken, kept⟩
  · rw [Balances, busy]
    exact ⟨taken, kept⟩

/-- A section of an action leaves the books balanced. -/
theorem Balances.phase (balances : archive.Balances scene.runner) {runner : Runner}
    (step : Scene.Step link scene .work { scene with runner }) {job : Job} {activity : Activity}
    (busy : scene.runner.worker = .busy job activity)
    (phase : Runner.Phase job scene.runner activity runner) :
    (archive.enter scene .work { scene with runner }).Balances runner := by
  cases phase with
  | opens =>
      refine balances.of_busy step busy (Or.inr ⟨_, rfl⟩) ?_
      intro action member
      obtain rfl := Option.some.inj member
      exact Or.inr rfl
  | executes _ following kept _ =>
      refine balances.of_busy step busy ?_ ?_
      · rcases following with failed | ⟨following, working, _⟩
        · exact Or.inl failed
        · exact Or.inr ⟨following, working⟩
      · intro action member
        exact Or.inl (Execution.map_action_eq kept ▸ member)
  | concludes _ kept =>
      refine balances.of_busy step busy (Or.inr ⟨_, rfl⟩) ?_
      intro action member
      exact Or.inl (Execution.map_action_eq kept ▸ member)
  | consumes _ =>
      refine balances.of_busy step busy (Or.inr ⟨_, rfl⟩) ?_
      intro action member
      change (Option.map _ scene.runner.record).map Execution.action = some action at member
      rw [Option.map_map] at member
      exact Or.inl member
  | clears _ =>
      refine balances.of_busy step busy (Or.inr ⟨_, rfl⟩) ?_
      intro action none
      cases none
  | sweeps => exact balances.of_busy step busy (Or.inr ⟨_, rfl⟩) fun _ member => Or.inl member
  | retires =>
      rw [Balances, busy] at balances
      obtain ⟨taken, _⟩ := balances
      rw [Balances, enter, step.taken_enter, Runner.turnsTo?_of_busy busy,
        Runner.retires?_of_retiring busy rfl, Option.toList_none, List.append_nil, taken]
      rfl

/-- The books balance whatever the worker does. -/
theorem Balances.workerSection (balances : archive.Balances scene.runner)
    (coherent : scene.runner.Coherent) (pursuing : scene.runner.Pursuing) {runner : Runner}
    (performed : Runner.WorkerSection link scene.runner runner) :
    (archive.enter scene .work { scene with runner }).Balances runner := by
  have step : Scene.Step link scene .work { scene with runner } := .works performed
  cases performed with
  | @takes job looks offered =>
      rw [Balances, looks] at balances
      have cleared : scene.runner.record = none := by
        rw [← RecordState.ofRecord_eq_absent_iff, coherent.record, looks]
        rfl
      have turned : scene.runner.turnsTo?
          ({ scene.runner with intake := scene.runner.intake.take }.moveTo job .opening) =
            some job := by
        rw [Runner.turnsTo?, looks]
        rfl
      rw [Balances, enter, step.taken_enter, turned, Runner.retires?_of_not_looking
        Worker.noConfusion, Option.toList_none, List.append_nil, balances]
      refine ⟨rfl, ?_⟩
      intro action member
      change scene.runner.record.map Execution.action = some action at member
      rw [cleared] at member
      cases member
  | parks looks _ =>
      refine Balances.still step (by rw [Runner.turnsTo?, looks])
        (Runner.retires?_of_not_looking Worker.noConfusion) ?_
      rw [Balances, looks] at balances
      exact balances
  | wakes parked _ =>
      refine Balances.still step (by rw [Runner.turnsTo?, parked])
        (Runner.retires?_of_not_busy (by rw [parked]; exact fun _ => Worker.noConfusion) _) ?_
      rw [Balances, parked] at balances
      exact balances
  | ends parked _ _ =>
      refine Balances.still step (by rw [Runner.turnsTo?, parked])
        (Runner.retires?_of_not_looking Worker.noConfusion) ?_
      rw [Balances, parked] at balances
      exact balances
  | @acts job activity _ busy performed =>
      exact balances.phase step busy (performed.phase (pursuing job activity busy))

/-- The books balance whatever happens. -/
theorem Balances.step (balances : archive.Balances scene.runner)
    (coherent : scene.runner.Coherent) (pursuing : scene.runner.Pursuing)
    (step : Scene.Step link scene beat next) :
    (archive.enter scene beat next).Balances next.runner := by
  have performed := step
  cases step with
  | idles _ | refuses _ _ | accepts _ _ | announces _ | stops | reads _ _ _ _ | sends _ _
  | ends _ _ _ | passes => exact balances.of_worker_eq performed rfl rfl
  | cancels =>
      rcases scene.runner.cancel_frame _ with ⟨signal, cancelled⟩
      exact balances.of_worker_eq performed (cancelled ▸ rfl) (cancelled ▸ rfl)
  | works worked => exact balances.workerSection coherent pursuing worked
  | leaves parked _ =>
      refine still performed (by rw [Runner.turnsTo?, parked])
        (Runner.retires?_of_not_looking Worker.noConfusion) ?_
      rw [Balances, parked] at balances
      exact balances
  | judges busy _ =>
      refine balances.of_busy performed busy (Or.inr ⟨_, rfl⟩) ?_
      intro action member
      rcases scene.runner.judge_eq _ with ⟨change, kept, judged⟩
      rw [judged] at member
      exact Or.inl (Execution.map_action_eq (Execution.identity_map kept _) ▸ member)

/-- The history is the rest of what was accepted behind what was struck off last. -/
def Lists (archive : Archive) (runner : Runner) : Prop :=
  runner.intake.history = archive.ledger.accepted.drop archive.first

/-- The archive is right about a scene. -/
structure Keeps (archive : Archive) (scene : Scene) : Prop where
  tracks : archive.ledger.Tracks scene
  coherent : scene.runner.Coherent
  pursuing : scene.runner.Pursuing
  balances : archive.Balances scene.runner
  lists : archive.Lists scene.runner

namespace Keeps

theorem initial (clock : Nat) : empty.Keeps (.initial clock) where
  tracks := .initial clock
  coherent := .initial clock
  pursuing := .initial clock
  balances := rfl
  lists := rfl

theorem accepted_length (keeps : archive.Keeps scene) :
    archive.ledger.accepted.length = scene.runner.intake.nextOrder := by
  rw [← List.length_map Job.order, keeps.tracks.numbers, List.length_range]

/-- What was struck off was taken before. -/
theorem retired_front_of_taken (keeps : archive.Keeps scene) :
    archive.retired <+: archive.ledger.taken := by
  have balances := keeps.balances
  rw [Balances] at balances
  cases standing : scene.runner.worker with
  | busy job activity =>
      rw [standing] at balances
      exact ⟨[job], balances.1.symm⟩
  | failed =>
      rw [standing] at balances
      obtain ⟨job, taken, _⟩ := balances
      exact ⟨[job], taken.symm⟩
  | looking | parked | ended =>
      rw [standing] at balances
      exact ⟨[], (List.append_nil _).trans balances.symm⟩

theorem first_le (keeps : archive.Keeps scene) :
    archive.first ≤ scene.runner.intake.nextOrder := by
  apply first_le_of_forall
  intro job retired
  exact (keeps.tracks.beyond job (keeps.retired_front_of_taken.subset retired)).next

/-- An action that is taken and not struck off has a number of the history. -/
theorem first_le_order (keeps : archive.Keeps scene) {job : Job}
    (taken : archive.ledger.taken = archive.retired ++ [job]) : archive.first ≤ job.order := by
  have rising := keeps.tracks.rising
  rw [taken] at rising
  apply first_le_of_forall
  intro earlier retired
  exact (List.pairwise_append.mp rising).2.2 earlier retired job (List.mem_singleton_self job)

/-- So has a pending action. -/
theorem first_le_pending (keeps : archive.Keeps scene) {job : Job}
    (offered : scene.runner.intake.pending = some job) : archive.first ≤ job.order := by
  apply first_le_of_forall
  intro earlier retired
  have taken := keeps.retired_front_of_taken.subset retired
  exact (keeps.tracks.beyond earlier taken).pending job offered

theorem mem_history_iff (keeps : archive.Keeps scene) (job : Job) :
    job ∈ scene.runner.intake.history ↔
      job ∈ archive.ledger.accepted ∧ archive.first ≤ job.order := by
  rw [keeps.lists, drop_eq_filter_order keeps.tracks.numbers, List.mem_filter, decide_eq_true_iff]

/-- An action that is taken and not struck off is in the history, before a pending one. -/
theorem mem_history_of_taken (keeps : archive.Keeps scene) {job : Job}
    (taken : archive.ledger.taken = archive.retired ++ [job]) :
    job ∈ scene.runner.intake.history
      ∧ ∀ waiting, scene.runner.intake.pending = some waiting → job.order < waiting.order := by
  have member : job ∈ archive.ledger.taken :=
    taken ▸ List.mem_append_right _ (List.mem_singleton_self job)
  refine ⟨(keeps.mem_history_iff job).mpr ⟨?_, keeps.first_le_order taken⟩,
    (keeps.tracks.beyond job member).pending⟩
  have met : archive.ledger.Met scene.runner.intake.pending job .taken := member
  exact keeps.tracks.mem_accepted_of_met met

/-- Where nothing is struck off, the history gets what is accepted. -/
theorem lists_extended (keeps : archive.Keeps scene) {more : List Job}
    (accepted : (archive.ledger.enter scene beat next).accepted = archive.ledger.accepted ++ more)
    (retired : scene.runner.retires? next.runner = none)
    (history : next.runner.intake.history = scene.runner.intake.history ++ more) :
    (archive.enter scene beat next).Lists next.runner := by
  have whole : archive.first ≤ archive.ledger.accepted.length :=
    keeps.accepted_length ▸ keeps.first_le
  have lists := keeps.lists
  rw [Lists] at lists ⊢
  rw [first, enter, retired, Option.toList_none, List.append_nil, accepted, history, lists]
  exact (List.drop_append_of_le_length whole).symm

/-- Nothing becomes of the history where nothing is accepted or struck off. -/
theorem lists_still (keeps : archive.Keeps scene)
    (accepted : (archive.ledger.enter scene beat next).accepted = archive.ledger.accepted)
    (retired : scene.runner.retires? next.runner = none)
    (history : next.runner.intake.history = scene.runner.intake.history) :
    (archive.enter scene beat next).Lists next.runner :=
  keeps.lists_extended (accepted.trans (List.append_nil _).symm) retired
    (history.trans (List.append_nil _).symm)

/-- The action that is struck off takes with it what is left of those before it. -/
theorem lists_retires (keeps : archive.Keeps scene) {job : Job}
    (busy : scene.runner.worker = .busy job .retiring) :
    (scene.runner.intake.retire job.order).history =
      archive.ledger.accepted.drop (job.order + 1) := by
  have balances := keeps.balances
  rw [Balances, busy] at balances
  have lower := keeps.first_le_order balances.1
  have numbers := keeps.tracks.numbers
  change scene.runner.intake.history.filter _ = _
  rw [keeps.lists, drop_eq_filter_order numbers, drop_eq_filter_order numbers, List.filter_filter]
  apply List.filter_congr
  intro entry _
  rw [← Bool.decide_and, decide_eq_decide]
  omega

theorem lists_workerSection (keeps : archive.Keeps scene) {runner : Runner}
    (performed : Runner.WorkerSection link scene.runner runner) :
    (archive.enter scene .work { scene with runner }).Lists runner := by
  cases performed with
  | takes _ _ | parks _ _ | ends _ _ _ =>
      exact keeps.lists_still rfl (Runner.retires?_of_not_looking Worker.noConfusion) rfl
  | wakes parked _ =>
      refine keeps.lists_still rfl (Runner.retires?_of_not_busy ?_ _) rfl
      rw [parked]
      exact fun _ => Worker.noConfusion
  | @acts job activity _ busy performed =>
      cases performed.phase (keeps.pursuing job activity busy) with
      | opens | concludes _ _ | consumes _ | clears _ | sweeps =>
          exact keeps.lists_still rfl (Runner.retires?_of_not_looking Worker.noConfusion) rfl
      | executes _ following _ _ =>
          refine keeps.lists_still rfl (Runner.retires?_of_not_looking ?_) rfl
          rcases following with failed | ⟨following, working, _⟩
          · exact failed ▸ Worker.noConfusion
          · exact working ▸ Worker.noConfusion
      | retires =>
          rw [Lists, first, enter, Runner.retires?_of_retiring busy rfl, Option.toList_some,
            List.getLast?_concat, Option.elim_some]
          exact keeps.lists_retires busy

theorem lists_step (keeps : archive.Keeps scene) (step : Scene.Step link scene beat next) :
    (archive.enter scene beat next).Lists next.runner := by
  cases step with
  | idles silent | ends silent _ _ =>
      exact keeps.lists_still (Ledger.accepted_enter_of_silent silent)
        (Runner.retires?_of_worker_eq rfl) rfl
  | refuses asked refused =>
      refine keeps.lists_still ?_ (Runner.retires?_of_worker_eq rfl) rfl
      rw [Ledger.enter, asked]
      simp only [refused]
  | announces _ | stops | reads _ _ _ _ | sends _ _ | passes =>
      exact keeps.lists_still rfl (Runner.retires?_of_worker_eq rfl) rfl
  | cancels =>
      rcases scene.runner.cancel_frame _ with ⟨signal, cancelled⟩
      rw [cancelled]
      exact keeps.lists_still rfl (Runner.retires?_of_worker_eq rfl) rfl
  | accepts asked accepted =>
      refine keeps.lists_extended ?_ (Runner.retires?_of_worker_eq rfl) rfl
      rw [Ledger.enter, asked]
      simp only [accepted]
  | leaves parked _ =>
      exact keeps.lists_still rfl (Runner.retires?_of_not_looking Worker.noConfusion) rfl
  | judges busy _ =>
      rcases scene.runner.judge_eq _ with ⟨change, _, judged⟩
      rw [judged]
      exact keeps.lists_still rfl (Runner.retires?_of_not_looking Worker.noConfusion) rfl
  | works performed => exact keeps.lists_workerSection performed

theorem step (keeps : archive.Keeps scene) (step : Scene.Step link scene beat next) :
    (archive.enter scene beat next).Keeps next where
  tracks := keeps.tracks.step step
  coherent := step.coherent keeps.coherent
  pursuing := step.pursuing keeps.pursuing
  balances := keeps.balances.step keeps.coherent keeps.pursuing step
  lists := keeps.lists_step step

theorem mem_history_of_busy (keeps : archive.Keeps scene) {job : Job} {activity : Activity}
    (busy : scene.runner.worker = .busy job activity) :
    job ∈ scene.runner.intake.history
      ∧ ∀ waiting, scene.runner.intake.pending = some waiting → job.order < waiting.order := by
  have balances := keeps.balances
  rw [Balances, busy] at balances
  exact keeps.mem_history_of_taken balances.1

/-- An action has its number before others are accepted, and these stand behind it. -/
theorem mem_drop_of_new (keeps : archive.Keeps scene) {job entry : Job} {activity : Activity}
    {accepted : List Job} (busy : scene.runner.worker = .busy job activity)
    (grown : archive.ledger.accepted <+: accepted) (member : entry ∈ accepted)
    (new : entry ∉ archive.ledger.accepted) : entry ∈ accepted.drop (job.order + 1) := by
  obtain ⟨more, rfl⟩ := grown
  have entered := (keeps.mem_history_iff job).mp (keeps.mem_history_of_busy busy).1
  have before : job.order + 1 ≤ archive.ledger.accepted.length :=
    keeps.accepted_length ▸ keeps.tracks.order_lt entered.1
  rw [List.drop_append_of_le_length before]
  exact List.mem_append_right _ ((List.mem_append.mp member).resolve_left new)

/-- Where there is a record, its action is in the history, also if the worker was brought down. -/
theorem mem_history_of_record (keeps : archive.Keeps scene) {execution : Execution}
    (recorded : scene.runner.record = some execution) :
    ∃ job ∈ scene.runner.intake.history, job.action = execution.action
      ∧ ∀ waiting, scene.runner.intake.pending = some waiting → job.order < waiting.order := by
  have balances := keeps.balances
  have present := keeps.coherent.record
  rw [Balances, recorded] at balances
  cases standing : scene.runner.worker with
  | busy job activity =>
      rw [standing] at balances
      obtain ⟨listed, before⟩ := keeps.mem_history_of_taken balances.1
      exact ⟨job, listed, (balances.2 _ rfl).symm, before⟩
  | failed =>
      rw [standing] at balances
      obtain ⟨job, taken, same⟩ := balances
      obtain ⟨listed, before⟩ := keeps.mem_history_of_taken taken
      exact ⟨job, listed, (same _ rfl).symm, before⟩
  | looking | parked | ended =>
      rw [standing, recorded] at present
      exact absurd ((RecordState.ofRecord_eq_absent_iff _).mp present) (Option.some_ne_none _)

/-- A pending action is the latest entry. -/
theorem getLast?_history_of_pending (keeps : archive.Keeps scene) {job : Job}
    (offered : scene.runner.intake.pending = some job) :
    scene.runner.intake.history.getLast? = some job := by
  have latest := keeps.tracks.latest job offered
  have number := keeps.tracks.order_lt (List.mem_of_getLast? latest)
  have lower := keeps.first_le_pending offered
  have lists := keeps.lists
  rw [Lists] at lists
  rw [lists, List.getLast?_drop, keeps.accepted_length, if_neg (by omega), latest]

end Keeps

/-- What was accepted stays accepted. -/
theorem accepted_grows (archive : Archive) (scene : Scene)
    (beats : List (Link × Scene.Beat)) :
    archive.ledger.accepted <+: (scene.observe enter archive beats).2.ledger.accepted := by
  induction beats generalizing archive scene with
  | nil => exact List.prefix_refl _
  | cons head beats induction =>
      refine List.IsPrefix.trans ?_ (induction _ _)
      rw [enter, Ledger.enter]
      split
      · split
        · exact List.prefix_append _ _
        · exact List.prefix_refl _
      · exact List.prefix_refl _

end Archive

namespace Scene

theorem perform_work_of_retiring {scene : Scene} {job : Job}
    (busy : scene.runner.worker = .busy job .retiring) (link : Link) :
    (scene.perform link .work).runner.intake = scene.runner.intake.retire job.order := by
  rw [perform, Runner.workerSection, busy]
  rfl

/--
In every run the history is the rest of all actions that were ever accepted behind the one that was
struck off last.  These are numbered without a gap, so that no number is given twice, and the
history has the numbers behind the last one that was struck off.  A pending action is its latest
entry.  The action that the worker is at is an entry, with a lower number, and so is the action of a
record, also of one that a worker has left behind that was brought down.  Striking an action off
leaves what was accepted behind it: the pending action, and all that was accepted while the worker
was at it.
-/
theorem history_is_rest_of_accepted (clock : Nat) (before later : List (Link × Beat)) :
    let earlier := (initial clock).observe Archive.enter .empty before
    let run := earlier.1.observe Archive.enter earlier.2 later
    let runner := run.1.runner
    let intake := runner.intake
    let accepted := run.2.ledger.accepted
    let first := run.2.first
    intake.history = accepted.drop first
      ∧ accepted.map Job.order = List.range intake.nextOrder
      ∧ intake.history.map Job.order = List.range' first (intake.nextOrder - first)
      ∧ (∀ job, intake.pending = some job → intake.history.getLast? = some job)
      ∧ (∀ job activity, runner.worker = .busy job activity →
          job ∈ intake.history
            ∧ ∀ waiting, intake.pending = some waiting → job.order < waiting.order)
      ∧ (∀ execution, runner.record = some execution →
          ∃ job ∈ intake.history, job.action = execution.action
            ∧ ∀ waiting, intake.pending = some waiting → job.order < waiting.order)
      ∧ (∀ link job, runner.worker = .busy job .retiring →
          let rest := (run.1.perform link .work).runner.intake
          rest.history = accepted.drop (job.order + 1)
            ∧ (∀ entry ∈ intake.history, entry ∈ rest.history ↔ job.order < entry.order)
            ∧ rest.pending = intake.pending
            ∧ (∀ waiting, intake.pending = some waiting → waiting ∈ rest.history)
            ∧ ∀ activity, earlier.1.runner.worker = .busy job activity →
                ∀ entry ∈ accepted, entry ∉ earlier.2.ledger.accepted → entry ∈ rest.history)
      ∧ ∀ action order offered, runner.offer action = .ok (order, offered) →
          order = intake.nextOrder
            ∧ offered.intake.history.getLast? = some ⟨order, action⟩
            ∧ ∀ job ∈ accepted, job.order < order := by
  intro earlier run runner intake accepted first
  have start : earlier.2.Keeps earlier.1 :=
    observe_preserves (fun _ _ _ _ _ step keeps => keeps.step step) (.initial clock) before
  have keeps : run.2.Keeps run.1 :=
    observe_preserves (fun _ _ _ _ _ step keeps => keeps.step step) start later
  have numbers := keeps.tracks.numbers
  refine ⟨keeps.lists, numbers, ?_, fun _ => keeps.getLast?_history_of_pending,
    fun _ _ => keeps.mem_history_of_busy, fun _ => keeps.mem_history_of_record, ?_, ?_⟩
  · rw [keeps.lists, List.map_drop, numbers, List.range_eq_range', List.drop_range', Nat.zero_add,
      Nat.mul_one]
  · intro link job busy rest
    have struck : rest = intake.retire job.order := perform_work_of_retiring busy link
    have listed : rest.history = accepted.drop (job.order + 1) := by
      rw [struck]
      exact keeps.lists_retires busy
    refine ⟨listed, ?_, struck ▸ rfl, ?_, ?_⟩
    · intro entry member
      rw [struck, Intake.mem_retire_iff, and_iff_right member]
    · intro waiting offered
      have member := List.mem_of_getLast? (keeps.getLast?_history_of_pending offered)
      rw [struck, Intake.mem_retire_iff]
      exact ⟨member, (keeps.mem_history_of_busy busy).2 waiting offered⟩
    · intro activity working entry member new
      have grown : earlier.2.ledger.accepted <+: accepted :=
        earlier.2.accepted_grows earlier.1 later
      rw [listed]
      exact start.mem_drop_of_new working grown member new
  · intro action order offered accepts
    rcases runner.offer_cases action with ⟨rejection, refused⟩ | given
    · rw [refused] at accepts
      cases accepts
    · rw [given] at accepts
      cases accepts
      exact ⟨rfl, List.getLast?_concat, fun job member => keeps.tracks.order_lt member⟩

/-- An action with nothing to do, which fails. -/
def idleAction (id : UInt32) : CustomAction :=
  ⟨id, [], none, none⟩

/-- An action is accepted, taken and opened. -/
def taking : List (Link × Beat) :=
  [.offer (idleAction 7), .work, .work].map (Link.accepting, ·)

/-- Two actions are accepted, the second in place of the first, until the running one is over. -/
def overtaking : List (Link × Beat) :=
  [.offer (idleAction 8), .offer (idleAction 9), .work, .pass 500, .work, .read, .work, .work].map
    (Link.accepting, ·)

/-- An action leaves two behind that were accepted meanwhile, one of which never starts. -/
theorem history_behind_overtaken_action :
    let earlier := (initial 0).observe Archive.enter .empty taking
    let run := earlier.1.observe Archive.enter earlier.2 overtaking
    let rest := (run.1.perform .accepting .work).runner.intake
    run.1.runner.intake.history.map Job.order = [0, 1, 2]
      ∧ run.1.runner.intake.pending = some ⟨2, idleAction 9⟩
      ∧ run.1.runner.intake.history.getLast? = some ⟨2, idleAction 9⟩
      ∧ (∀ entry ∈ run.1.runner.intake.history, entry ∈ rest.history ↔ 0 < entry.order)
      ∧ (⟨2, idleAction 9⟩ : Job) ∈ rest.history
      ∧ (⟨1, idleAction 8⟩ : Job) ∈ rest.history := by
  rcases history_is_rest_of_accepted 0 taking overtaking with
    ⟨_, _, _, latest, _, _, strikes, _⟩
  obtain ⟨_, left, _, waiting, meanwhile⟩ := strikes .accepting ⟨0, idleAction 7⟩ rfl
  exact ⟨by decide, rfl, latest _ rfl, left, waiting _ rfl,
    meanwhile _ rfl ⟨1, idleAction 8⟩ (by decide) (by decide)⟩

end Scene

end FlightGuard
