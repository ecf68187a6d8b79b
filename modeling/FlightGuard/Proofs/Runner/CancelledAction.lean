import FlightGuard.Proofs.Runner.Cancellation
import FlightGuard.Proofs.Runner.Conclusion

/-!
# A cancellation stops its action

A cancellation reaches an action that waits: for the answer to a stage or a script, behind a stage,
or until its end after the final result.  The worker sees the flag at once, except during a stage
call, whose answer it takes first.  From then on the action is canceled and ends after the time to
settle.  After the final result a cancellation only silences the reporter.

A stage with a wait that no duration holds is the exception.  Its answer brings the worker down
before it looks at the flag, and the record is left behind as it was.
-/

namespace FlightGuard

namespace Activity

/-- An action waits in the middle of its work. -/
def isUnderway : Activity → Bool
  | .calling _ _ _ _ _ | .resting _ _ _ | .awaiting _ _ => true
  | .opening | .staging _ _ | .scripting | .settling _ | .lingering | .sweeping | .retiring =>
      false

/-- When the worker sees a flag that is up now: at the answer to a stage, or at once. -/
def sight (clock : Nat) : Activity → Option Nat
  | .calling _ _ _ due _ => due
  | .opening | .staging _ _ | .resting _ _ _ | .scripting | .awaiting _ _ | .settling _
  | .lingering | .sweeping | .retiring => some clock

/-- Whether the wait behind a stage call fits into a duration. -/
def isSound : Activity → Bool
  | .calling _ stage _ _ _ => stage.wait.isOk
  | .opening | .staging _ _ | .resting _ _ _ | .scripting | .awaiting _ _ | .settling _
  | .lingering | .sweeping | .retiring => true

end Activity

/-- Whether the worker is up and will be when its stage is answered. -/
def Worker.isSound : Worker → Bool
  | .busy _ activity => activity.isSound
  | .failed => false
  | .looking | .parked | .ended => true

namespace Runner

/-- The worker waits in the middle of an action. -/
def IsUnderway (runner : Runner) (job : Job) : Prop :=
  ∃ activity, runner.worker = .busy job activity ∧ activity.isUnderway = true

/-- A turn that does not take a cancellation back while an action is underway. -/
def Insistent (job : Job) (runner next : Runner) : Prop :=
  ∃ event, Turn runner event next
    ∧ (event = .operate (.cancel false) → ¬ runner.IsUnderway job)

/-- Turns lead to a runner, and none of them takes a cancellation back from an action underway. -/
def LeadsInsistently (job : Job) : Runner → Runner → Prop :=
  Relation.ReflTransGen (Insistent job)

/-- The worker has not seen a flag that is up, and will at an instant or never. -/
structure Unheeded (job : Job) (execution : Execution) (sight : Option Nat) (runner : Runner) :
    Prop where
  busy : ∃ activity, runner.worker = .busy job activity ∧ activity.isUnderway = true
    ∧ activity.isSound = true ∧ activity.sight runner.clock = sight
  raised : runner.signal.raised = true
  recorded : runner.record = some execution
  before : ∀ instant, sight = some instant → runner.Before instant

/-- An action as it is recorded once it is canceled. -/
def canceled (execution : Execution) : Execution :=
  { execution with outcome := .canceled }

/-- The cancellation of an action takes its course. -/
inductive Cancelling (job : Job) (execution : Execution) (sight : Option Nat)
    (already : List JournalEntry) (runner : Runner) : Prop where
  | unheeded (unheeded : Unheeded job execution sight runner) (silent : runner.sent = already)
  | concluding {instant : Nat} (seen : sight = some instant)
      (concluding : Concluding job (canceled execution) (instant + settleTime) runner)
      (muted : Muted job (instant + settleTime) already runner)

/-! ## The flag -/

theorem operate_raised {runner : Runner} (coherent : runner.Coherent) {operation : Operation}
    (kept : operation ≠ .cancel false) (raised : runner.signal.raised = true) :
    (runner.operate operation).signal.raised = true := by
  rcases runner.operate_cases operation with ⟨up, rfl⟩ | ⟨intake, wakeUp, stopping, operated⟩
  · cases up with
    | true =>
        rw [operate, cancel]
        split
        · exact raised
        · exact CancelSignal.apply_set_raised coherent.kept true
    | false => exact absurd rfl kept
  · rw [operated]
    exact raised

/-- Over a running record a cancellation raises the flag and does nothing else. -/
theorem cancel_eq {runner : Runner} (coherent : runner.Coherent)
    (running : RecordState.ofRecord runner.record = .running) :
    runner.cancel true = { runner with signal := { runner.signal with raised := true } } := by
  have cancellable : runner.isCancellable = true := runner.isCancellable_iff.mpr running
  have apply_set : runner.signal.apply (.set true) = { runner.signal with raised := true } := by
    simp [CancelSignal.apply, coherent.kept]
  rw [cancel, cancellable, apply_set]
  rfl

/-- Under a flag that is up a worker underway waits for nothing but a stage. -/
theorem IsWaiting.lt_sight {runner : Runner} {job : Job} {activity : Activity} {instant : Nat}
    (waits : runner.IsWaiting) (busy : runner.worker = .busy job activity)
    (underway : activity.isUnderway = true) (raised : runner.signal.raised = true)
    (seen : activity.sight runner.clock = some instant) : runner.clock < instant := by
  have waiting := waits.action busy
  cases activity with
  | calling done stage remaining due answer => exact waiting instant seen
  | resting done remaining deadline =>
      rw [waiting.1] at raised
      cases raised
  | awaiting due verdict =>
      rw [waiting.1] at raised
      cases raised
  | opening | staging | scripting | settling | lingering | sweeping | retiring => cases underway

/-! ## Until the flag is seen -/

namespace Unheeded

variable {job : Job} {execution : Execution} {sight : Option Nat} {runner next : Runner}

theorem of_busy {activity : Activity} (busy : runner.worker = .busy job activity)
    (underway : activity.isUnderway = true) (sound : activity.isSound = true)
    (seen : activity.sight runner.clock = sight) (raised : runner.signal.raised = true)
    (recorded : runner.record = some execution)
    (reached : ∀ instant, sight = some instant → runner.clock ≤ instant) :
    Unheeded job execution sight runner where
  busy := ⟨activity, busy, underway, sound, seen⟩
  raised := raised
  recorded := recorded
  before := by
    intro instant expected
    refine ⟨reached instant expected, ?_⟩
    intro waits
    exact waits.lt_sight busy underway raised (seen.trans expected)

/-- A change that leaves worker, record and clock alone, and the flag up. -/
theorem congr (unheeded : Unheeded job execution sight runner)
    (worker : next.worker = runner.worker) (record : next.record = runner.record)
    (clock : next.clock = runner.clock) (raised : next.signal.raised = true) :
    Unheeded job execution sight next := by
  rcases unheeded.busy with ⟨activity, busy, underway, sound, seen⟩
  refine of_busy (worker.trans busy) underway sound (clock ▸ seen) raised
    (record.trans unheeded.recorded) ?_
  intro instant expected
  rw [clock]
  exact (unheeded.before instant expected).reached

/-- An action that is given up at the sight of the flag is canceled and ends in silence. -/
theorem abandon (unheeded : Unheeded job execution (some runner.clock) runner) :
    Cancelling job execution (some runner.clock) runner.sent (runner.abandon job) := by
  have ahead : runner.clock < runner.clock + settleTime :=
    Nat.lt_add_of_pos_right (by decide)
  refine .concluding rfl (.settling rfl ?_ ⟨Nat.le_of_lt ahead, fun _ => ahead⟩) ?_
  · change runner.record.map _ = _
    rw [unheeded.recorded]
    rfl
  · intro activity busy
    exact ⟨rfl, Or.inr ⟨unheeded.raised, ahead⟩⟩

/-- A worker that has not seen the flag takes the answer to its stage or gives the action up. -/
theorem workerSection {link : Link} (unheeded : Unheeded job execution sight runner)
    (performed : WorkerSection link runner next) :
    Cancelling job execution sight runner.sent next := by
  rcases unheeded.busy with ⟨activity, busy, underway, sound, seen⟩
  have raised := unheeded.raised
  cases activity with
  | calling done stage remaining due answer =>
      cases performed.of_busy busy with
      | @rests _ _ _ _ _ wait answered _ =>
          rcases (isDue_eq_true_iff _ _).mp answered with ⟨instant, expected, reached⟩
          have expected : sight = some instant := seen.symm.trans expected
          -- The clock has not passed the sight, so the answer comes at that very instant.
          have present : runner.clock = instant :=
            Nat.le_antisymm (unheeded.before instant expected).reached reached
          refine .unheeded (of_busy rfl rfl rfl ?_ raised unheeded.recorded ?_) rfl
          · rw [expected, ← present]
            rfl
          · intro other expected
            exact (unheeded.before other expected).reached
      | falls _ overlong =>
          rw [Activity.isSound, overlong] at sound
          cases sound
  | resting done remaining deadline =>
      cases performed.of_busy busy with
      | cutsRest _ =>
          subst seen
          exact unheeded.abandon
      | completesLast lowered _ | completesStage lowered _ =>
          rw [raised] at lowered
          cases lowered
  | awaiting due verdict =>
      cases performed.of_busy busy with
      | cutsScript _ =>
          subst seen
          exact unheeded.abandon
      | judges lowered _ =>
          rw [raised] at lowered
          cases lowered
  | opening | staging | scripting | settling | lingering | sweeping | retiring => cases underway

/-- Time does not pass the sight of the flag. -/
theorem pass (unheeded : Unheeded job execution sight runner) (waits : runner.IsWaiting)
    {instant : Nat} (inTime : ∀ due, runner.due? = some due → instant ≤ due) :
    Unheeded job execution sight { runner with clock := instant } := by
  rcases unheeded.busy with ⟨activity, busy, underway, sound, seen⟩
  cases activity with
  | calling done stage remaining due answer =>
      refine of_busy busy rfl sound seen unheeded.raised unheeded.recorded ?_
      intro other expected
      exact le_due_of_busy busy inTime (seen.trans expected)
  | resting | awaiting =>
      have ahead := waits.lt_sight busy underway unheeded.raised rfl
      exact absurd ahead (Nat.lt_irrefl runner.clock)
  | opening | staging | scripting | settling | lingering | sweeping | retiring => cases underway

end Unheeded

/-- A cancellation goes on to take its course unless it is taken back before it is seen. -/
theorem Cancelling.turn {job : Job} {execution : Execution} {sight : Option Nat}
    {already : List JournalEntry} {runner next : Runner} {event : Event}
    (cancelling : Cancelling job execution sight already runner) (coherent : runner.Coherent)
    (numbered : runner.Numbered) (turn : Turn runner event next)
    (insists : event = .operate (.cancel false) → ¬ runner.IsUnderway job) :
    Cancelling job execution sight already next := by
  cases cancelling with
  | concluding seen concluding muted =>
      exact .concluding seen (concluding.turn numbered turn) (muted.turn concluding turn)
  | unheeded unheeded silent =>
      subst silent
      cases turn with
      | act link performed =>
          rcases Option.or_eq_some_iff.mp performed with byWorker | ⟨_, byReporter⟩
          · exact unheeded.workerSection (workerSection_cases byWorker)
          · cases reporterSection_cases byReporter with
            | stops _ _ => exact .unheeded (unheeded.congr rfl rfl rfl unheeded.raised) rfl
            | reports _ lowered _ _ =>
                have raised := unheeded.raised
                rw [lowered] at raised
                cases raised
      | operate waits operation =>
          have kept : operation ≠ .cancel false := by
            rintro rfl
            rcases unheeded.busy with ⟨activity, busy, underway, _⟩
            exact insists rfl ⟨activity, busy, underway⟩
          have raised := operate_raised coherent kept unheeded.raised
          rcases runner.operate_eq operation with ⟨intake, wakeUp, signal, stopping, operated⟩
          rw [operated] at raised ⊢
          exact .unheeded (unheeded.congr rfl rfl rfl raised) rfl
      | pass waits _ inTime => exact .unheeded (unheeded.pass waits inTime) rfl

/-! ## An action that no flag reaches -/

/-- The worker is down or will be, and the record stays behind. -/
structure Stranded (execution : Execution) (already : List JournalEntry) (runner : Runner) :
    Prop where
  unsound : runner.worker.isSound = false
  recorded : runner.record = some execution
  silent : runner.sent = already
  muted : runner.reporter = none ∨ runner.signal.raised = true

theorem Stranded.workerSection {execution : Execution} {already : List JournalEntry}
    {runner next : Runner} {link : Link} (stranded : Stranded execution already runner)
    (performed : WorkerSection link runner next) : Stranded execution already next := by
  have unsound := stranded.unsound
  cases worker : runner.worker with
  | busy job activity =>
      rw [worker] at unsound
      cases activity with
      | calling done stage remaining due answer =>
          cases performed.of_busy worker with
          | rests _ fits =>
              rw [Worker.isSound, Activity.isSound, fits] at unsound
              cases unsound
          | falls _ _ => exact ⟨rfl, stranded.recorded, stranded.silent, stranded.muted⟩
      | opening | staging | resting | scripting | awaiting | settling | lingering | sweeping
      | retiring => cases unsound
  | failed =>
      cases performed with
      | takes standing _ | parks standing _ | wakes standing _ | ends standing _ _
      | acts standing _ =>
          rw [worker] at standing
          cases standing
  | looking | parked | ended =>
      rw [worker] at unsound
      cases unsound

theorem Stranded.turn {execution : Execution} {already : List JournalEntry}
    {runner next : Runner} {event : Event} (stranded : Stranded execution already runner)
    (turn : Turn runner event next) : Stranded execution already next := by
  have ⟨unsound, recorded, silent, muted⟩ := stranded
  have ended : runner.IsWaiting → runner.reporter = none := by
    intro waits
    rcases muted with ended | raised
    · exact ended
    · exact waits.reporter_eq_none raised
  cases turn with
  | act link performed =>
      rcases Option.or_eq_some_iff.mp performed with byWorker | ⟨_, byReporter⟩
      · exact stranded.workerSection (workerSection_cases byWorker)
      · cases reporterSection_cases byReporter with
        | stops _ _ => exact ⟨unsound, recorded, silent, Or.inl rfl⟩
        | reports running lowered _ _ =>
            rcases muted with ended | raised
            · rw [ended] at running
              cases running
            · rw [raised] at lowered
              cases lowered
  | operate waits operation =>
      rcases runner.operate_eq operation with ⟨intake, wakeUp, signal, stopping, operated⟩
      rw [operated]
      exact ⟨unsound, recorded, silent, Or.inl (ended waits)⟩
  | pass waits _ _ => exact ⟨unsound, recorded, silent, Or.inl (ended waits)⟩

/-! ## Runs behind a cancellation -/

theorem LeadsInsistently.leads {job : Job} {runner next : Runner}
    (leads : LeadsInsistently job runner next) : Leads runner next := by
  refine Relation.ReflTransGen.mono ?_ runner next leads
  rintro runner next ⟨event, turn, _⟩
  exact ⟨event, turn⟩

theorem Flows.insistently {runner next : Runner} (flows : Flows runner next) (job : Job) :
    LeadsInsistently job runner next := by
  refine Relation.ReflTransGen.mono ?_ runner next flows
  rintro runner next (turn | turn)
  · refine ⟨.act, turn, ?_⟩
    intro same
    cases same
  · refine ⟨.pass, turn, ?_⟩
    intro same
    cases same

theorem Cancelling.leads {job : Job} {execution : Execution} {sight : Option Nat}
    {already : List JournalEntry} {runner later : Runner} (reached : runner.Reached)
    (cancelling : Cancelling job execution sight already runner)
    (leads : LeadsInsistently job runner later) :
    Cancelling job execution sight already later := by
  induction leads with
  | refl => exact cancelling
  | tail first step induction =>
      rcases step with ⟨event, turn, insists⟩
      have between : Reached _ := reached.leads (LeadsInsistently.leads first)
      exact induction.turn between.coherent between.numbered turn insists

theorem Concluding.leads {job : Job} {result : Execution} {ends : Nat} {runner later : Runner}
    (reached : runner.Reached) (concluding : Concluding job result ends runner)
    (leads : Leads runner later) : Concluding job result ends later := by
  induction leads with
  | refl => exact concluding
  | tail first step induction =>
      rcases step with ⟨event, turn⟩
      exact induction.turn (reached.leads first).numbered turn

theorem Muted.leads {job : Job} {result : Execution} {ends : Nat} {already : List JournalEntry}
    {runner later : Runner} (reached : runner.Reached)
    (concluding : Concluding job result ends runner) (muted : Muted job ends already runner)
    (leads : Leads runner later) : Muted job ends already later := by
  induction leads with
  | refl => exact muted
  | tail first step induction =>
      rcases step with ⟨event, turn⟩
      exact induction.turn (concluding.leads reached first) turn

theorem Stranded.leads {execution : Execution} {already : List JournalEntry}
    {runner later : Runner} (stranded : Stranded execution already runner)
    (leads : Leads runner later) : Stranded execution already later :=
  leads.preserves (Stranded execution already)
    (fun _ _ _ turn stranded => stranded.turn turn) stranded

/-- An action that can be cancelled while every part waits is underway, settles, or was lost. -/
theorem running_cases {runner : Runner} (coherent : runner.Coherent) (waits : runner.IsWaiting)
    (running : RecordState.ofRecord runner.record = .running) :
    runner.worker = .failed
      ∨ ∃ job activity, runner.worker = .busy job activity
          ∧ (activity.isUnderway = true ∨ ∃ ends, activity = .settling ends) := by
  have position := coherent.record.symm.trans running
  cases worker : runner.worker with
  | busy job activity =>
      refine Or.inr ⟨job, activity, rfl, ?_⟩
      have waiting := waits.action worker
      rw [worker] at position
      cases activity with
      | calling | resting | awaiting => exact Or.inl rfl
      | settling ends => exact Or.inr ⟨ends, rfl⟩
      | staging | scripting => exact waiting.elim
      | opening | lingering | sweeping | retiring => cases position
  | failed => exact Or.inl rfl
  | looking | parked | ended =>
      rw [worker] at position
      cases position

/-- An action underway has not seen the cancellation that was just called. -/
theorem unheeded_of_underway {runner : Runner} {job : Job} {activity : Activity}
    {execution : Execution} (waits : runner.IsWaiting)
    (busy : runner.worker = .busy job activity) (underway : activity.isUnderway = true)
    (sound : activity.isSound = true) (recorded : runner.record = some execution) :
    Unheeded job execution (activity.sight runner.clock)
      { runner with signal := { runner.signal with raised := true } } := by
  refine .of_busy busy underway sound rfl rfl recorded ?_
  intro instant expected
  cases activity with
  | calling done stage remaining due answer =>
      exact Nat.le_of_lt (waits.action busy instant expected)
  | resting | awaiting => exact Nat.le_of_eq (Option.some.inj expected)
  | opening | staging | scripting | settling | lingering | sweeping | retiring => cases underway

/-- An action that settles while every part waits has its end ahead. -/
theorem concluding_of_settling {runner : Runner} {job : Job} {ends : Nat}
    {execution : Execution} (waits : runner.IsWaiting)
    (busy : runner.worker = .busy job (.settling ends))
    (recorded : runner.record = some execution) : Concluding job execution ends runner := by
  have ahead : runner.clock < ends := waits.action busy
  exact .settling busy recorded ⟨Nat.le_of_lt ahead, fun _ => ahead⟩

/--
A cancellation of a running action, called while every part waits.  If the worker is up, and will
be behind the stage that it calls, an action that is underway is canceled: until the worker sees the
flag nothing happens to it, then it ends after the time to settle, with the progress that it had,
and nothing more is sent for it.  An action with its final result keeps result, progress and end,
whatever clients do, and only its reports stop.  In the other case the record stays as it is for
ever.  In all cases the flag is down wherever an action opens, and time goes on.
-/
theorem cancellation_stops_action {runner : Runner} (reached : runner.Reached)
    (waits : runner.IsWaiting) {execution : Execution}
    (recorded : runner.record = some execution) (running : execution.consumed = false) :
    (runner.worker.isSound = true →
        ∃ job activity, runner.worker = .busy job activity
          ∧ ((activity.isUnderway = true
              ∧ ∀ later, LeadsInsistently job (runner.cancel true) later →
                  Cancelling job execution (activity.sight runner.clock) runner.sent later)
            ∨ ∃ ends, activity = .settling ends
              ∧ (∀ later, Leads runner later → Concluding job execution ends later)
              ∧ ∀ later, Leads (runner.cancel true) later → Muted job ends runner.sent later))
      ∧ (runner.worker.isSound = false →
          ∀ later, Leads (runner.cancel true) later →
            later.record = some execution ∧ later.sent = runner.sent)
      ∧ (∀ later, Leads runner later →
          ∀ other, later.worker = .busy other .opening → later.signal.raised = false)
      ∧ ∀ target, runner.clock ≤ target →
          ∃ later, Flows (runner.cancel true) later ∧ later.IsWaiting
            ∧ later.clock = target := by
  have coherent := reached.coherent
  have state : RecordState.ofRecord runner.record = .running :=
    (RecordState.ofRecord_eq_running_iff _).mpr ⟨execution, recorded, running⟩
  have cancelled : Leads runner (runner.cancel true) :=
    .single ⟨_, .operate waits (.cancel true)⟩
  have after : (runner.cancel true).Reached := reached.leads cancelled
  have flag := cancel_eq coherent state
  refine ⟨?_, ?_, ?_, ?_⟩
  · intro sound
    rcases running_cases coherent waits state with failed | ⟨job, activity, busy, position⟩
    · rw [failed] at sound
      cases sound
    · refine ⟨job, activity, busy, ?_⟩
      rcases position with underway | ⟨ends, rfl⟩
      · refine Or.inl ⟨underway, ?_⟩
        intro later leads
        rw [busy] at sound
        have unheeded := unheeded_of_underway waits busy underway sound recorded
        rw [← flag] at unheeded
        have silent : (runner.cancel true).sent = runner.sent := by rw [flag]; rfl
        exact Cancelling.leads after (.unheeded unheeded silent) leads
      · have concluding := concluding_of_settling waits busy recorded
        refine Or.inr ⟨ends, rfl, fun later leads => concluding.leads reached leads, ?_⟩
        intro later leads
        have muted : Muted job ends runner.sent (runner.cancel true) := by
          intro activity _
          rw [flag]
          exact ⟨rfl, Or.inr ⟨rfl, waits.action busy⟩⟩
        exact muted.leads after (concluding.leads reached cancelled) leads
  · intro unsound later leads
    have stranded : Stranded execution runner.sent (runner.cancel true) := by
      rw [flag]
      exact ⟨unsound, recorded, rfl, Or.inr rfl⟩
    exact ⟨(stranded.leads leads).recorded, (stranded.leads leads).silent⟩
  · intro later leads other opening
    apply (reached.leads leads).coherent.lowered
    rw [opening]
    intro same
    cases same
  · intro target ahead
    apply flows_to
    rw [flag]
    exact ahead

/-! ## A stage of one second -/

/-- A link on which a stage takes a second. -/
def slowLink : Link :=
  { Link.accepting with stage := fun _ => ⟨some 1000, .ok .success⟩ }

/-- An action made of one stage with a wait behind it. -/
def singleStage (seconds : Float) : CustomAction :=
  .ofStages 7 [⟨.ofCode 16, seconds⟩]

/-- The runner while that stage is called. -/
def amidStage (seconds : Float) : Runner :=
  (((initial 0).sections slowLink 1).operate (.submit (singleStage seconds))).sections slowLink 6

theorem amidStage_reached (seconds : Float) : (amidStage seconds).Reached := by
  have parked : ((initial 0).sections slowLink 1).IsWaiting :=
    isWaiting_of_nextSection slowLink rfl
  have first : Leads (initial 0) ((initial 0).sections slowLink 1) :=
    (sections_flows (initial 0) slowLink 1).leads
  have submitted := Turn.operate parked (.submit (singleStage seconds))
  exact ⟨0, (first.tail ⟨_, submitted⟩).trans (sections_flows _ slowLink 6).leads⟩

theorem amidStage_waits (seconds : Float) : (amidStage seconds).IsWaiting :=
  isWaiting_of_nextSection slowLink rfl

theorem amidStage_record (seconds : Float) :
    (amidStage seconds).record = some (.start (singleStage seconds)) :=
  rfl

/-- A stage that takes a second and is cancelled meanwhile is canceled for half a second. -/
theorem canceled_behind_stage :
    ∃ later, Flows ((amidStage 1.5).cancel true) later
      ∧ later.IsWaiting
      ∧ later.clock = 1499
      ∧ later.record = some (canceled (.start (singleStage 1.5))) := by
  have sound : (amidStage 1.5).worker.isSound = true := by
    change (Stage.wait ⟨.ofCode 16, 1.5⟩).isOk = true
    decide
  have stops := cancellation_stops_action (amidStage_reached 1.5) (amidStage_waits 1.5)
    (amidStage_record 1.5) rfl
  rcases stops.2.2.2 1499 (by decide) with ⟨later, flows, waits, clock⟩
  refine ⟨later, flows, waits, clock, ?_⟩
  rcases stops.1 sound with ⟨job, activity, busy, position⟩
  cases busy
  rcases position with ⟨_, course⟩ | ⟨ends, impossible, _⟩
  · cases course later (flows.insistently _) with
    | unheeded unheeded _ =>
        have early := (unheeded.before 1000 rfl).reached
        rw [clock] at early
        exact absurd early (by decide)
    | concluding seen concluding _ =>
        cases seen
        cases concluding with
        | settling _ recorded _ => exact recorded
        | consumed _ _ late | cleared _ _ _ late | past _ late =>
            rw [clock] at late
            exact absurd late (by decide)
  · cases impossible

/-- The runner at the answer to a stage that was canceled with too long a wait behind it. -/
def strandedStage : Runner :=
  Runner.sections { ((amidStage 1e20).cancel true).sections slowLink 1 with clock := 1000 }
    slowLink 1

theorem strandedStage_flows : Flows ((amidStage 1e20).cancel true) strandedStage := by
  have first := sections_flows ((amidStage 1e20).cancel true) slowLink 1
  have quiet : (((amidStage 1e20).cancel true).sections slowLink 1).IsWaiting :=
    isWaiting_of_nextSection slowLink rfl
  have passes : Turn (((amidStage 1e20).cancel true).sections slowLink 1) .pass
      { ((amidStage 1e20).cancel true).sections slowLink 1 with clock := 1000 } := by
    refine .pass quiet (by decide) ?_
    intro due waited
    exact Nat.le_of_eq (Option.some.inj waited)
  exact (first.tail (Or.inr passes)).trans (sections_flows _ slowLink 1)

/-- With more seconds behind it than a duration holds the stage is not canceled at its answer. -/
theorem overlong_stage_escapes_cancellation :
    ¬ ∀ runner : Runner, runner.Reached → runner.IsWaiting →
        ∀ job activity execution, runner.worker = .busy job activity →
          activity.isUnderway = true → runner.record = some execution →
          execution.consumed = false →
          ∀ later, LeadsInsistently job (runner.cancel true) later →
            Cancelling job execution (activity.sight runner.clock) runner.sent later := by
  intro stops
  have failed : strandedStage.worker = .failed := by rfl
  have cancelling := stops (amidStage 1e20) (amidStage_reached 1e20) (amidStage_waits 1e20)
    _ _ _ rfl rfl rfl rfl strandedStage (strandedStage_flows.insistently _)
  cases cancelling with
  | unheeded unheeded _ =>
      rcases unheeded.busy with ⟨activity, busy, _⟩
      rw [failed] at busy
      cases busy
  | concluding seen concluding _ =>
      cases concluding with
      | settling busy _ _ | consumed busy _ _ | cleared busy _ _ _ =>
          rw [failed] at busy
          cases busy
      | past _ elapsed =>
          cases seen
          exact absurd elapsed (by decide)

end Runner

end FlightGuard
