import FlightGuard.Proofs.Runner.CancelledAction
import FlightGuard.Proofs.Runner.Glimpses
import FlightGuard.Proofs.Runner.Itinerary
import FlightGuard.Proofs.Runner.Survival
import FlightGuard.Proofs.Runner.TurnsAsBeats

/-!
# The outcome of an action that is not cancelled

An action that nobody cancels goes the whole of its itinerary, whatever clients and the reporter do
on the way and however long the worker is kept waiting.  So what has been seen of it when it is past
is what the action asks for: its calls in their order, and its conclusion as the last record.  In
step with the clock it is past in time.
-/

namespace FlightGuard

/-! ## In every run -/

namespace Scene

/-- A beat cancels no action that the worker is at, and its script is replied to as foretold. -/
structure Spares (job : Job) (reply : Reply) (scene : Scene) (link : Link) (beat : Beat) :
    Prop where
  uncancelled : scene.runner.isAt job = true → beat = .cancel true →
    scene.runner.isCancellable = false
  replied : scene.runner.worker = .busy job .scripting → beat = .work →
    ∀ script, job.action.script = some script → link.script script = reply

/-- An action is on its course, or it is past, with all its calls and its conclusion behind it. -/
inductive Accounted (job : Job) (reply : Reply) (glimpses : List Glimpse) (scene : Scene) :
    Prop where
  | underway {activity : Activity}
      (progressing : scene.runner.Progressing job reply (Glimpse.journal glimpses) activity)
      (shown : Glimpse.lastShown glimpses = activity.lastShown job.action reply)
  | past (past : scene.runner.Past job.order)
      (calls : callsIn (Glimpse.journal glimpses) = job.action.calls)
      (shown : Glimpse.lastShown glimpses = some (job.action.concluded reply true))

namespace Accounted

variable {job : Job} {reply : Reply} {glimpses : List Glimpse} {scene next : Scene} {beat : Beat}

theorem enter {activity following : Activity} {entries : List JournalEntry}
    (busy : scene.runner.worker = .busy job activity)
    (shown : Glimpse.lastShown glimpses = activity.lastShown job.action reply)
    (journal : next.runner.journal = entries ++ scene.runner.journal)
    (progressing : next.runner.Progressing job reply (entries ++ Glimpse.journal glimpses)
      following)
    (follows : (following.recordShown job.action reply).or
      (activity.lastShown job.action reply) = following.lastShown job.action reply) :
    Accounted job reply (Glimpse.enter job glimpses scene beat next) next := by
  rw [← progressing.recorded, ← shown, ← Glimpse.lastShown_enter busy] at follows
  rw [← Glimpse.journal_enter busy journal] at progressing
  exact .underway progressing follows

/-- An action stays where it is while nothing is called and nothing happens to its record. -/
theorem stand {activity : Activity}
    (progressing : scene.runner.Progressing job reply (Glimpse.journal glimpses) activity)
    (shown : Glimpse.lastShown glimpses = activity.lastShown job.action reply)
    (entries : List JournalEntry) (journal : next.runner.journal = entries ++ scene.runner.journal)
    (worker : next.runner.worker = scene.runner.worker)
    (signal : next.runner.signal = scene.runner.signal)
    (record : next.runner.record = scene.runner.record)
    (forward : scene.runner.clock ≤ next.runner.clock) (calls : callsIn entries = [])
    (answers : answersIn entries = []) :
    Accounted job reply (Glimpse.enter job glimpses scene beat next) next :=
  enter progressing.busy shown journal
    (progressing.congr entries worker (signal ▸ progressing.lowered) record forward calls answers)
    (activity.recordShown_or_lastShown job.action reply)

theorem workerSection {link : Link} {runner : Runner} {activity : Activity}
    (progressing : scene.runner.Progressing job reply (Glimpse.journal glimpses) activity)
    (shown : Glimpse.lastShown glimpses = activity.lastShown job.action reply)
    (numbered : scene.runner.Numbered)
    (performed : Runner.ActionSection link job scene.runner activity runner)
    (timely : job.action.isTimely = true) (listed : job.action.stages.length < 2 ^ 64)
    (replied : activity = .scripting → ∀ script, job.action.script = some script →
      link.script script = reply) :
    Accounted job reply (Glimpse.enter job glimpses scene beat { scene with runner })
      { scene with runner } := by
  by_cases last : activity = .retiring
  · subst last
    have past := numbered.past progressing.busy performed
    have quiet : runner.journal = [] ++ scene.runner.journal ∧ runner.record = none := by
      cases performed with
      | retires => exact ⟨rfl, progressing.recorded⟩
    refine .past past ?_ ?_
    · rw [Glimpse.journal_enter progressing.busy quiet.1]
      exact progressing.calls
    · rw [Glimpse.lastShown_enter progressing.busy, quiet.2, shown]
      rfl
  · rcases progressing.actionSection performed timely listed replied last with
      ⟨following, entries, journal, goes⟩
    exact enter progressing.busy shown journal goes (performed.lastShown goes.busy reply)

/-- Whatever happens, the account of an action that nobody cancels goes on. -/
theorem step {link : Link} (accounted : Accounted job reply glimpses scene)
    (numbered : scene.runner.Numbered) (step : Step link scene beat next)
    (spares : Spares job reply scene link beat) (timely : job.action.isTimely = true)
    (listed : job.action.stages.length < 2 ^ 64) :
    Accounted job reply (Glimpse.enter job glimpses scene beat next) next := by
  cases accounted with
  | past past calls shown =>
      rw [Glimpse.enter_of_past past]
      exact .past (step.past past) calls shown
  | @underway activity progressing shown =>
      have busy := progressing.busy
      cases step with
      | idles _ | refuses _ _ | accepts _ _ | announces _ | stops | reads _ _ _ _
      | ends _ _ _ => exact stand progressing shown [] rfl rfl rfl rfl (Nat.le_refl _) rfl rfl
      | passes => exact stand progressing shown [] rfl rfl rfl rfl (Nat.le_add_right _ _) rfl rfl
      | sends _ _ => exact stand progressing shown [_] rfl rfl rfl rfl (Nat.le_refl _) rfl rfl
      | @cancels raised =>
          have ignored : raised = true → scene.runner.isCancellable = false := by
            rintro rfl
            exact spares.uncancelled (Runner.isAt_of_busy busy) rfl
          have silent : (scene.runner.cancel raised).journal = [] ++ scene.runner.journal := by
            rcases scene.runner.cancel_frame raised with ⟨signal, cancelled⟩
            rw [cancelled]
            rfl
          exact enter busy shown silent (progressing.cancel ignored)
            (activity.recordShown_or_lastShown job.action reply)
      | works performed =>
          refine workerSection progressing shown numbered (performed.of_busy busy) timely listed ?_
          rintro rfl
          exact spares.replied busy rfl
      | leaves parked _ =>
          rw [busy] at parked
          cases parked
      | @judges other due verdict standing ended =>
          rw [busy] at standing
          obtain ⟨rfl, rfl⟩ := Worker.busy.inj standing
          -- The flag is down, so the worker would have judged the script just the same.
          have judged : Runner.ActionSection link job scene.runner (.awaiting due verdict) _ :=
            .judges progressing.lowered ended
          exact workerSection progressing shown numbered judged timely listed nofun

/-- The account of an action begins where its record is about to be created. -/
theorem opening (coherent : scene.runner.Coherent)
    (busy : scene.runner.worker = .busy job .opening) : Accounted job reply [] scene := by
  have lowered : scene.runner.signal.raised = false := by
    apply coherent.lowered
    rw [busy]
    exact RecordState.noConfusion
  have absent : scene.runner.record = none := by
    rw [← RecordState.ofRecord_eq_absent_iff, coherent.record, busy]
    rfl
  exact .underway ⟨busy, lowered, trivial, trivial, rfl, rfl, absent⟩ rfl

theorem observe (accounted : Accounted job reply glimpses scene)
    (numbered : scene.runner.Numbered) (timely : job.action.isTimely = true)
    (listed : job.action.stages.length < 2 ^ 64) {beats : List (Link × Beat)}
    (spared : scene.Along (Spares job reply) beats) :
    Accounted job reply (scene.observe (Glimpse.enter job) glimpses beats).2
      (scene.observe (Glimpse.enter job) glimpses beats).1 := by
  let invariant (glimpses : List Glimpse) (scene : Scene) : Prop :=
    scene.runner.Numbered ∧ Accounted job reply glimpses scene
  have preserved : ∀ (link : Link) (beat : Beat) (scene next : Scene) (glimpses : List Glimpse),
      Step link scene beat next → Spares job reply scene link beat → invariant glimpses scene →
        invariant (Glimpse.enter job glimpses scene beat next) next := by
    rintro link beat scene next glimpses step spares ⟨numbered, accounted⟩
    exact ⟨step.numbered numbered, accounted.step numbered step spares timely listed⟩
  exact (observe_preserves_along preserved ⟨numbered, accounted⟩ spared).2

end Accounted

end Scene

/-! ## In step with the clock -/

namespace Runner

/-- A turn in which an action is not cancelled, and its calls are answered in time. -/
inductive Proceeds (job : Job) (delay : Nat) (reply : Reply) (runner : Runner) : Runner → Prop where
  | act (link : Link) {next : Runner} (settles : link.Settles job.action delay)
      (replied : ∀ script, job.action.script = some script → link.script script = reply)
      (performed : runner.nextSection link = some next) : Proceeds job delay reply runner next
  | operate (waits : runner.IsWaiting) (operation : Operation)
      (uncancelled : operation = .cancel true → runner.isCancellable = false) :
      Proceeds job delay reply runner (runner.operate operation)
  | pass (waits : runner.IsWaiting) {instant : Nat} (forward : runner.clock ≤ instant)
      (inTime : ∀ due, runner.due? = some due → instant ≤ due) :
      Proceeds job delay reply runner { runner with clock := instant }

/-- Such turns lead from one runner to another. -/
def LeadsUncancelled (job : Job) (delay : Nat) (reply : Reply) : Runner → Runner → Prop :=
  Relation.ReflTransGen (Proceeds job delay reply)

variable {job : Job} {delay : Nat} {reply : Reply} {runner next : Runner}

theorem Proceeds.prompt (proceeds : Proceeds job delay reply runner next) :
    PromptTurn job.action delay runner next := by
  cases proceeds with
  | act link settles _ performed => exact Or.inl ⟨link, settles, performed⟩
  | operate waits operation _ => exact Or.inr ⟨_, Event.noConfusion, .operate waits operation⟩
  | pass waits forward inTime => exact Or.inr ⟨_, Event.noConfusion, .pass waits forward inTime⟩

theorem Proceeds.reaches (proceeds : Proceeds job delay reply runner next) :
    Scene.Reaches (Scene.Spares job reply) (.still runner) (.still next) := by
  cases proceeds with
  | act link _ replied performed =>
      refine Scene.reaches_of_nextSection performed ?_
      intro scene beat own
      refine ⟨?_, fun _ _ => replied⟩
      rintro _ rfl
      cases own
  | operate _ operation uncancelled =>
      refine Scene.reaches_of_operate operation .accepting ?_
      intro scene beat same serves
      constructor
      · rintro _ rfl
        have idle := uncancelled serves
        rw [isCancellable] at idle ⊢
        rw [same, idle]
      · rintro _ rfl
        exact serves.elim
  | pass _ forward _ =>
      refine Scene.reaches_of_pass forward .accepting ?_
      exact fun _ => ⟨fun _ => Scene.Beat.noConfusion, fun _ => Scene.Beat.noConfusion⟩

theorem LeadsUncancelled.prompt (leads : LeadsUncancelled job delay reply runner next) :
    LeadsPromptly job.action delay runner next :=
  Relation.ReflTransGen.mono (fun _ _ proceeds => proceeds.prompt) runner next leads

theorem LeadsUncancelled.reaches (leads : LeadsUncancelled job delay reply runner next) :
    Scene.Reaches (Scene.Spares job reply) (.still runner) (.still next) := by
  induction leads with
  | refl => exact .refl _
  | tail _ proceeds induction => exact induction.trans proceeds.reaches

/-- Without clients an action proceeds under every link that answers in time. -/
theorem FlowsUnder.leadsUncancelled {link : Link} (settles : link.Settles job.action delay)
    (replied : ∀ script, job.action.script = some script → link.script script = reply)
    (flows : FlowsUnder link runner next) : LeadsUncancelled job delay reply runner next := by
  refine Relation.ReflTransGen.mono ?_ runner next flows
  rintro runner next (performed | turn)
  · exact .act link settles replied performed
  · cases turn with
    | pass waits forward inTime => exact .pass waits forward inTime

end Runner

namespace Scene

/--
An action that is timely goes its course in every run in which no cancellation of it is accepted.
Wherever it stands, it has made the calls, waited for the answers and shown the record that belong
there.  When it is past, all its calls were made and its record has shown its conclusion last.  In
step with the clock it is past at an instant that is known beforehand if its calls are answered in
time, and some turns in which they are lead up to every later instant.
-/
theorem uncancelled_action_goes_its_course (clock : Nat) (before later : List (Link × Beat))
    (job : Job) (reply : Reply) (timely : job.action.isTimely = true)
    (listed : job.action.stages.length < 2 ^ 64) :
    let opened := (initial clock).performAll before
    let run := opened.observe (Glimpse.enter job) [] later
    let journal := Glimpse.journal run.2
    (opened.runner.worker = .busy job .opening → opened.Along (Spares job reply) later →
        (∃ activity, run.1.runner.worker = .busy job activity
            ∧ callsIn journal = activity.callsMade job.action
            ∧ activity.Waited job.action (answersIn journal) run.1.runner.clock
            ∧ run.1.runner.record = activity.recordShown job.action reply)
          ∨ (run.1.runner.Past job.order
              ∧ callsIn journal = job.action.calls
              ∧ Glimpse.lastShown run.2 = some (job.action.concluded reply true)))
      ∧ ∀ runner : Runner, runner.Reached → runner.worker = .busy job .opening → ∀ delay,
          (∀ next, Runner.LeadsUncancelled job delay reply runner next → next.IsWaiting →
            runner.clock + job.action.span delay + Runner.closingTime ≤ next.clock →
            next.Past job.order
              ∧ ∃ beats, (still runner).Along (Spares job reply) beats
                  ∧ (still runner).performAll beats = still next
                  ∧ (let seen := ((still runner).observe (Glimpse.enter job) [] beats).2
                    callsIn (Glimpse.journal seen) = job.action.calls
                      ∧ Glimpse.lastShown seen = some (job.action.concluded reply true)))
          ∧ ∀ link : Link, link.Settles job.action delay →
              (∀ script, job.action.script = some script → link.script script = reply) →
              ∀ target, runner.clock ≤ target →
                ∃ next, Runner.LeadsUncancelled job delay reply runner next ∧ next.IsWaiting
                  ∧ next.clock = target := by
  intro opened run journal
  refine ⟨?_, ?_⟩
  · intro busy spared
    have coherent : opened.runner.Coherent :=
      performAll_preserves (fun _ _ _ _ step coherent => step.coherent coherent)
        (Runner.Coherent.initial clock) before
    have numbered : opened.runner.Numbered :=
      performAll_preserves (fun _ _ _ _ step numbered => step.numbered numbered)
        (Runner.Numbered.initial clock) before
    have accounted : Accounted job reply run.2 run.1 :=
      (Accounted.opening coherent busy).observe numbered timely listed spared
    cases accounted with
    | @underway activity progressing _ =>
        exact Or.inl ⟨activity, progressing.busy, progressing.calls, progressing.waited,
          progressing.recorded⟩
    | past past calls shown => exact Or.inr ⟨past, calls, shown⟩
  · intro runner reached busy delay
    refine ⟨?_, ?_⟩
    · intro next leads waits elapsed
      have past := leads.prompt.past reached timely busy rfl waits elapsed
      rcases leads.reaches with ⟨beats, spared, performed⟩
      have start : Accounted job reply [] (still runner) := .opening reached.coherent busy
      have accounted := start.observe reached.numbered timely listed spared
      refine ⟨past, beats, spared, performed, ?_⟩
      cases accounted with
      | underway progressing _ =>
          have busy := progressing.busy
          rw [observe_fst, performed] at busy
          exact absurd busy (past.not_busy _)
      | past _ calls shown => exact ⟨calls, shown⟩
    · intro link settles replied target ahead
      rcases runner.flowsUnder_to link ahead with ⟨next, flows, waits, reached⟩
      exact ⟨next, flows.leadsUncancelled settles replied, waits, reached⟩

/-! ## Two stages beside a script, and a script that fails -/

/-- Two stages, the first with a second behind it, and a script that does not count. -/
def stagedAndScripted : CustomAction :=
  ⟨7, [⟨.ofCode 16, 1⟩, ⟨.ofCode 22, 0⟩], some "survey", none⟩

/-- An action that calls a script and gives it five seconds. -/
def limitedScript : CustomAction :=
  ⟨8, [], some "survey", some 5⟩

/-- A link over which every script fails after a while. -/
def failingLink : Link :=
  { Link.accepting with script := fun _ => ⟨some 300, .ok .failed⟩ }

/-- An action is accepted and taken. -/
def upToOpening (action : CustomAction) : List (Link × Beat) :=
  [.offer action, .work].map (failingLink, ·)

/-- Time to settle passes, the record is consumed, cleared and struck off. -/
def closing : List Beat :=
  [.pass 500, .work, .read, .work, .work, .work]

/-- The record is created, and both stages are called and waited for. -/
def throughStages : List (Link × Beat) :=
  (.work :: .work :: .work :: .pass 1000 :: .work :: .work :: .work :: .work :: closing).map
    (failingLink, ·)

/-- The record is created, and the script is called and judged. -/
def throughScript : List (Link × Beat) :=
  (.work :: .work :: .pass 300 :: .work :: closing).map (failingLink, ·)

/-- What is seen of an action that is accepted by a new runner. -/
def seen (action : CustomAction) (beats : List (Link × Beat)) : List Glimpse :=
  (((initial 0).performAll (upToOpening action)).observe (Glimpse.enter ⟨0, action⟩) [] beats).2

/-- An action with a stage of one second is accepted and taken. -/
def takenStage : Runner :=
  (((Runner.initial 0).sections Runner.slowLink 1).operate
    (.submit (Runner.singleStage 1.5))).sections Runner.slowLink 2

theorem takenStage_reached : takenStage.Reached := by
  have parked : ((Runner.initial 0).sections Runner.slowLink 1).IsWaiting :=
    Runner.isWaiting_of_nextSection Runner.slowLink rfl
  have first := (Runner.sections_flows (Runner.initial 0) Runner.slowLink 1).leads
  have submitted := Runner.Turn.operate parked (.submit (Runner.singleStage 1.5))
  exact ⟨0, (first.tail ⟨_, submitted⟩).trans (Runner.sections_flows _ Runner.slowLink 2).leads⟩

/--
Both stages are called and lead to success, the script is called and leads to failure.  A stage of
one second with one and a half behind it is past after three seconds and a bit, with one call.
-/
theorem stages_and_script_go_their_course :
    (callsIn (Glimpse.journal (seen stagedAndScripted throughStages)) =
        [.stage ⟨.ofCode 16, 1⟩, .stage ⟨.ofCode 22, 0⟩]
      ∧ Glimpse.lastShown (seen stagedAndScripted throughStages) =
          some ⟨stagedAndScripted, 100, .success, true⟩)
    ∧ (callsIn (Glimpse.journal (seen limitedScript throughScript)) = [.script "survey"]
      ∧ Glimpse.lastShown (seen limitedScript throughScript) =
          some ⟨limitedScript, 0, .failed, true⟩)
    ∧ ∃ next, Runner.LeadsUncancelled ⟨0, Runner.singleStage 1.5⟩ 1000 .immediate takenStage next
        ∧ next.clock = 3100 ∧ next.Past 0 := by
  refine ⟨?_, ?_, ?_⟩
  · have course := (uncancelled_action_goes_its_course 0 (upToOpening stagedAndScripted)
      throughStages ⟨0, stagedAndScripted⟩ ⟨some 300, .ok .failed⟩ (by decide) (by decide)).1
    have spared : ((initial 0).performAll (upToOpening stagedAndScripted)).Along
        (Spares ⟨0, stagedAndScripted⟩ ⟨some 300, .ok .failed⟩) throughStages := by
      refine ⟨?_, ?_, ?_, ?_, ?_, ?_, ?_, ?_, ?_, ?_, ?_, ?_, ?_, ?_, trivial⟩ <;>
        exact ⟨fun _ => Beat.noConfusion, fun _ _ _ _ => rfl⟩
    rcases course rfl spared with ⟨activity, busy, _⟩ | ⟨_, calls, shown⟩
    · rw [observe_fst] at busy
      cases busy
    · exact ⟨calls, shown⟩
  · have course := (uncancelled_action_goes_its_course 0 (upToOpening limitedScript) throughScript
      ⟨0, limitedScript⟩ ⟨some 300, .ok .failed⟩ (by decide) (by decide)).1
    have spared : ((initial 0).performAll (upToOpening limitedScript)).Along
        (Spares ⟨0, limitedScript⟩ ⟨some 300, .ok .failed⟩) throughScript := by
      refine ⟨?_, ?_, ?_, ?_, ?_, ?_, ?_, ?_, ?_, ?_, trivial⟩ <;>
        exact ⟨fun _ => Beat.noConfusion, fun _ _ _ _ => rfl⟩
    rcases course rfl spared with ⟨activity, busy, _⟩ | ⟨_, calls, shown⟩
    · rw [observe_fst] at busy
      cases busy
    · exact ⟨calls, shown⟩
  · have course := (uncancelled_action_goes_its_course 0 [] []
      ⟨0, Runner.singleStage 1.5⟩ .immediate (by decide) (by decide)).2 takenStage
        takenStage_reached rfl 1000
    have settles := slowLink_settles 1.5
    rcases course.2 Runner.slowLink settles nofun 3100 (by decide) with ⟨next, leads, waits, clock⟩
    have elapsed : takenStage.clock + (Runner.singleStage 1.5).span 1000 + Runner.closingTime ≤
        next.clock := by
      rw [clock]
      decide
    exact ⟨next, leads, clock, (course.1 next leads waits elapsed).1⟩

end Scene

end FlightGuard
