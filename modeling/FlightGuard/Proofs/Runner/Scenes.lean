import FlightGuard.Proofs.Runner.Cancellation
import FlightGuard.Proofs.Runner.Course
import FlightGuard.Proofs.Runner.Orders
import FlightGuard.Proofs.Runner.StepModel

/-!
# The runner among its clients and its reporter

A move of the runner may hold two things that are done one after the other, and others may come in
between.  Here such a move is taken apart into beats.  A client offers its action and wakes the
worker only then; the reporter reads the record and sends its report only then, and while the
report is under way it does nothing else.  Where two things are ready at once, either may be taken:
a worker that is woken and asked to stop may stop, a script that has ended in a cancelled action may
be judged, and a report that is due may still be sent.

Beats come in any order, from any number of clients, and time passes as it likes between them.
-/

namespace FlightGuard

namespace Runner

/-- The worker stops on request, also if it was woken at the same time. -/
def leave (runner : Runner) : Runner :=
  match runner.worker with
  | .parked => if runner.stopping then { runner with worker := .ended } else runner
  | _ => runner

/-- The worker judges a script that has ended, also if the action was cancelled meanwhile. -/
def judgeLate (runner : Runner) : Runner :=
  match runner.worker with
  | .busy job (.awaiting due verdict) =>
      if isDue runner.clock due then (runner.judge verdict).settleDown job else runner
  | _ => runner

end Runner

/--
The runner with the acceptances whose wake-up is still to come, and with the report that was read
off the record and is not sent yet.
-/
structure Scene where
  runner : Runner
  unannounced : List Nat
  draft : Option ProgressReport

namespace Scene

/-- One thing that happens and that nothing interrupts. -/
inductive Beat where
  /-- A client offers an action. -/
  | offer (action : CustomAction)
  /-- A client offers the action with a number in a catalog file. -/
  | request (file : StoredFile) (path : String) (id : UInt32)
  /-- A client whose action was accepted wakes the worker. -/
  | announce (order : Nat)
  | cancel (raised : Bool)
  | stop
  /-- The worker performs its next section. -/
  | work
  /-- The worker prefers the request to stop to a wake-up. -/
  | leave
  /-- The worker prefers the end of its script to the cancellation. -/
  | judgeLate
  /-- The reporter, whose next report is due, reads the record. -/
  | read
  /-- The reporter sends what it has read. -/
  | send
  /-- The reporter ends under a flag that is up. -/
  | cease
  | pass (milliseconds : Nat)

/-- The action that a beat offers, if it offers one. -/
def Beat.offered? : Beat → Option CustomAction
  | .offer action => some action
  | .request file path id => (Catalog.lookUp file path id).toOption
  | _ => none

/-- The first half of a submission. -/
def offer (scene : Scene) (action : CustomAction) : Scene :=
  match scene.runner.offer action with
  | .ok (order, runner) => { scene with runner, unannounced := order :: scene.unannounced }
  | .error _ => scene

/-- The second half of a submission. -/
def announce (scene : Scene) (order : Nat) : Scene :=
  if order ∈ scene.unannounced then
    { scene with runner := scene.runner.wake, unannounced := scene.unannounced.erase order }
  else scene

/-- The first half of a report, or the end of the reporter where there is nothing to report. -/
def read (scene : Scene) : Scene :=
  match scene.draft, scene.runner.reporter with
  | none, some due =>
      if due ≤ scene.runner.clock then
        match Runner.openReport scene.runner.record with
        | some report => { scene with draft := some report }
        | none => { scene with runner := { scene.runner with reporter := none } }
      else scene
  | _, _ => scene

/-- The second half of a report. -/
def send (scene : Scene) (link : Link) : Scene :=
  match scene.draft, scene.runner.reporter with
  | some report, some due =>
      { scene with
          runner := { scene.runner with reporter := some (due + Runner.reportInterval) }.note
            (.reported scene.runner.clock report (link.report report))
          draft := none }
  | _, _ => scene

/-- The end of a reporter that sees the flag. -/
def cease (scene : Scene) : Scene :=
  match scene.draft with
  | none =>
      if scene.runner.signal.raised then
        { scene with runner := { scene.runner with reporter := none } }
      else scene
  | some _ => scene

/-- Performs a beat; what is not possible changes nothing. -/
def perform (scene : Scene) (link : Link) (beat : Beat) : Scene :=
  match beat with
  | .offer _ | .request _ _ _ =>
      match beat.offered? with
      | some action => scene.offer action
      | none => scene
  | .announce order => scene.announce order
  | .cancel raised => { scene with runner := scene.runner.cancel raised }
  | .stop => { scene with runner := scene.runner.stop }
  | .work => { scene with runner := (scene.runner.workerSection link).getD scene.runner }
  | .leave => { scene with runner := scene.runner.leave }
  | .judgeLate => { scene with runner := scene.runner.judgeLate }
  | .read => scene.read
  | .send => scene.send link
  | .cease => scene.cease
  | .pass milliseconds =>
      { scene with runner := { scene.runner with clock := scene.runner.clock + milliseconds } }

/-- Performs beats one after another, each under the link as it answers at that time. -/
def performAll (scene : Scene) : List (Link × Beat) → Scene
  | [] => scene
  | (link, beat) :: beats => (scene.perform link beat).performAll beats

/-- A new runner, with nothing under way. -/
def initial (clock : Nat) : Scene :=
  ⟨.initial clock, [], none⟩

/-! ## Beats one by one -/

/-- A beat, and the scene behind it. -/
inductive Step (link : Link) (scene : Scene) : Beat → Scene → Prop where
  | idles {beat : Beat} (silent : beat.offered? = none) : Step link scene beat scene
  | refuses {beat : Beat} {action : CustomAction} {rejection : Rejection}
      (asked : beat.offered? = some action)
      (refused : scene.runner.offer action = .error rejection) : Step link scene beat scene
  | accepts {beat : Beat} {action : CustomAction} (asked : beat.offered? = some action)
      (accepted : scene.runner.offer action =
        .ok (scene.runner.intake.nextOrder,
          { scene.runner with
              intake := scene.runner.intake.accept action (scene.runner.clock * 1000) })) :
      Step link scene beat
        { scene with
            runner := { scene.runner with
              intake := scene.runner.intake.accept action (scene.runner.clock * 1000) }
            unannounced := scene.runner.intake.nextOrder :: scene.unannounced }
  | announces {order : Nat} (waiting : order ∈ scene.unannounced) :
      Step link scene (.announce order)
        { scene with runner := scene.runner.wake, unannounced := scene.unannounced.erase order }
  | cancels {raised : Bool} :
      Step link scene (.cancel raised) { scene with runner := scene.runner.cancel raised }
  | stops : Step link scene .stop { scene with runner := scene.runner.stop }
  | works {next : Runner} (performed : Runner.WorkerSection link scene.runner next) :
      Step link scene .work { scene with runner := next }
  | leaves (parked : scene.runner.worker = .parked) (stopping : scene.runner.stopping = true) :
      Step link scene .leave { scene with runner := { scene.runner with worker := .ended } }
  | judges {job : Job} {due : Option Nat} {verdict : Verdict}
      (busy : scene.runner.worker = .busy job (.awaiting due verdict))
      (ended : Runner.isDue scene.runner.clock due = true) :
      Step link scene .judgeLate
        { scene with runner := (scene.runner.judge verdict).settleDown job }
  | reads {due : Nat} {report : ProgressReport} (idle : scene.draft = none)
      (running : scene.runner.reporter = some due) (reached : due ≤ scene.runner.clock)
      (told : Runner.openReport scene.runner.record = some report) :
      Step link scene .read { scene with draft := some report }
  | sends {due : Nat} {report : ProgressReport} (drafted : scene.draft = some report)
      (running : scene.runner.reporter = some due) :
      Step link scene .send
        { scene with
            runner := { scene.runner with reporter := some (due + Runner.reportInterval) }.note
              (.reported scene.runner.clock report (link.report report))
            draft := none }
  | ends {beat : Beat} (silent : beat.offered? = none) (idle : scene.draft = none)
      (reason : scene.runner.signal.raised = true
        ∨ Runner.openReport scene.runner.record = none) :
      Step link scene beat { scene with runner := { scene.runner with reporter := none } }
  | passes {milliseconds : Nat} :
      Step link scene (.pass milliseconds)
        { scene with runner := { scene.runner with clock := scene.runner.clock + milliseconds } }

theorem offer_step (scene : Scene) (link : Link) {beat : Beat} {action : CustomAction}
    (asked : beat.offered? = some action) : Step link scene beat (scene.offer action) := by
  rw [offer]
  rcases scene.runner.offer_cases action with ⟨rejection, refused⟩ | accepted
  · rw [refused]
    exact .refuses asked refused
  · rw [accepted]
    exact .accepts asked accepted

theorem announce_step (scene : Scene) (link : Link) (order : Nat) :
    Step link scene (.announce order) (scene.announce order) := by
  rw [announce]
  split
  next waiting => exact .announces waiting
  next => exact .idles rfl

theorem work_step (scene : Scene) (link : Link) :
    Step link scene .work
      { scene with runner := (scene.runner.workerSection link).getD scene.runner } := by
  cases performed : scene.runner.workerSection link with
  | none => exact .idles rfl
  | some next => exact .works (Runner.workerSection_cases performed)

theorem leave_step (scene : Scene) (link : Link) :
    Step link scene .leave { scene with runner := scene.runner.leave } := by
  rw [Runner.leave]
  split
  next parked =>
    split
    next stopping => exact .leaves parked stopping
    next => exact .idles rfl
  next => exact .idles rfl

theorem judgeLate_step (scene : Scene) (link : Link) :
    Step link scene .judgeLate { scene with runner := scene.runner.judgeLate } := by
  rw [Runner.judgeLate]
  split
  next busy =>
    split
    next ended => exact .judges busy ended
    next => exact .idles rfl
  next => exact .idles rfl

theorem read_step (scene : Scene) (link : Link) : Step link scene .read scene.read := by
  rw [read]
  split
  next idle running =>
    split
    next reached =>
      split
      next told => exact .reads idle running reached told
      next silent => exact .ends rfl idle (Or.inr silent)
    next => exact .idles rfl
  next => exact .idles rfl

theorem send_step (scene : Scene) (link : Link) : Step link scene .send (scene.send link) := by
  rw [send]
  split
  next drafted running => exact .sends drafted running
  next => exact .idles rfl

theorem cease_step (scene : Scene) (link : Link) : Step link scene .cease scene.cease := by
  rw [cease]
  split
  next idle =>
    split
    next raised => exact .ends rfl idle (Or.inl raised)
    next => exact .idles rfl
  next => exact .idles rfl

/-- Every beat that is performed is a step. -/
theorem perform_step (scene : Scene) (link : Link) (beat : Beat) :
    Step link scene beat (scene.perform link beat) := by
  have offered : ∀ beat : Beat, Step link scene beat
      (match beat.offered? with
      | some action => scene.offer action
      | none => scene) := by
    intro beat
    split
    next asked => exact scene.offer_step link asked
    next silent => exact .idles silent
  cases beat with
  | offer action => exact offered (.offer action)
  | request file path id => exact offered (.request file path id)
  | announce order => exact scene.announce_step link order
  | cancel raised => exact .cancels
  | stop => exact .stops
  | work => exact scene.work_step link
  | leave => exact scene.leave_step link
  | judgeLate => exact scene.judgeLate_step link
  | read => exact scene.read_step link
  | send => exact scene.send_step link
  | cease => exact scene.cease_step link
  | pass milliseconds => exact .passes

/-! ## What is kept by every beat -/

namespace Step

variable {link : Link} {scene next : Scene} {beat : Beat}

theorem coherent (step : Step link scene beat next) (coherent : scene.runner.Coherent) :
    next.runner.Coherent := by
  cases step with
  | idles _ | refuses _ _ => exact coherent
  | accepts _ _ | announces _ | stops | reads _ _ _ _ | sends _ _ | ends _ _ _ | passes =>
      exact coherent.congr rfl rfl rfl
  | cancels => exact coherent.cancel _
  | works performed => exact coherent.workerSection performed
  | leaves parked _ => exact coherent.congr rfl (parked ▸ rfl) rfl
  | judges busy _ =>
      rcases scene.runner.judge_eq _ with ⟨change, kept, judged⟩
      rw [judged]
      exact coherent.congr (RecordState.ofRecord_map (fun execution => (kept execution).2) _)
        (busy ▸ rfl) rfl

theorem numbered (step : Step link scene beat next) (numbered : scene.runner.Numbered) :
    next.runner.Numbered := by
  cases step with
  | idles _ | refuses _ _ => exact numbered
  | accepts _ _ => exact numbered.accept _ _
  | announces _ | stops | reads _ _ _ _ | sends _ _ | ends _ _ _ | passes =>
      exact numbered.congr rfl fun _ activity busy => ⟨activity, busy⟩
  | cancels =>
      rcases scene.runner.cancel_frame _ with ⟨signal, cancelled⟩
      rw [cancelled]
      exact numbered.congr rfl fun _ activity busy => ⟨activity, busy⟩
  | works performed => exact numbered.workerSection performed
  | leaves _ _ =>
      refine numbered.congr rfl ?_
      intro job activity busy
      cases busy
  | judges busy _ =>
      rcases scene.runner.judge_eq _ with ⟨change, _, judged⟩
      rw [judged]
      refine numbered.congr rfl ?_
      intro job activity settling
      cases settling
      exact ⟨_, busy⟩

/-- The worker moves by a section of its own, by ending on request or by judging late. -/
theorem worker_cases (step : Step link scene beat next) :
    next.runner.worker = scene.runner.worker
      ∨ Runner.WorkerSection link scene.runner next.runner
      ∨ (scene.runner.worker = .parked ∧ next.runner.worker = .ended)
      ∨ ∃ job due verdict ends, scene.runner.worker = .busy job (.awaiting due verdict)
          ∧ next.runner.worker = .busy job (.settling ends) := by
  cases step with
  | idles _ | refuses _ _ | accepts _ _ | announces _ | stops | reads _ _ _ _ | sends _ _
  | ends _ _ _ | passes => exact Or.inl rfl
  | cancels =>
      rcases scene.runner.cancel_frame _ with ⟨signal, cancelled⟩
      exact Or.inl (cancelled ▸ rfl)
  | works performed => exact Or.inr (Or.inl performed)
  | leaves parked _ => exact Or.inr (Or.inr (Or.inl ⟨parked, rfl⟩))
  | judges busy _ => exact Or.inr (Or.inr (Or.inr ⟨_, _, _, _, busy, rfl⟩))

theorem pursuing (step : Step link scene beat next) (pursuing : scene.runner.Pursuing) :
    next.runner.Pursuing := by
  rcases step.worker_cases with same | performed | ⟨_, ended⟩ | ⟨_, _, _, _, _, settling⟩
  · rw [Runner.Pursuing, same]
    exact pursuing
  · exact pursuing.workerSection performed
  · intro job activity busy
    rw [ended] at busy
    cases busy
  · intro job activity busy
    rw [settling] at busy
    cases busy
    trivial

/--
Whatever passes over the link is a call of the action that is executed, or the report that was read
before.
-/
theorem journal (step : Step link scene beat next) (pursuing : scene.runner.Pursuing) :
    next.runner.journal = scene.runner.journal
      ∨ (∃ entry job activity, next.runner.journal = entry :: scene.runner.journal
          ∧ scene.runner.worker = .busy job activity ∧ activity.isExecuting = true
          ∧ entry.IsCallOf job.action)
      ∨ ∃ report, scene.draft = some report
          ∧ next.runner.journal =
              .reported scene.runner.clock report (link.report report) :: scene.runner.journal := by
  cases step with
  | idles _ | refuses _ _ | accepts _ _ | announces _ | stops | leaves _ _ | reads _ _ _ _
  | ends _ _ _ | passes => exact Or.inl rfl
  | cancels =>
      rcases scene.runner.cancel_frame _ with ⟨signal, cancelled⟩
      rw [cancelled]
      exact Or.inl rfl
  | judges _ _ =>
      rcases scene.runner.judge_eq _ with ⟨change, _, judged⟩
      rw [judged]
      exact Or.inl rfl
  | sends drafted _ => exact Or.inr (Or.inr ⟨_, drafted, rfl⟩)
  | works performed =>
      cases performed with
      | takes _ _ | parks _ _ | wakes _ _ | ends _ _ _ => exact Or.inl rfl
      | @acts job activity runner busy performed =>
          cases performed.phase (pursuing job activity busy) with
          | opens | concludes _ _ | consumes _ | clears _ | sweeps | retires => exact Or.inl rfl
          | executes executing _ _ calls =>
              rcases calls with silent | ⟨entry, noted, isCall⟩
              · exact Or.inl silent
              · exact Or.inr (Or.inl ⟨entry, job, activity, noted, busy, executing, isCall⟩)

end Step

/-! ## Runs with an observer -/

/-- Performs beats one after another, while an observer takes notes of each of them. -/
def observe {Notes : Type} (enter : Notes → Scene → Beat → Scene → Notes) (scene : Scene)
    (notes : Notes) : List (Link × Beat) → Scene × Notes
  | [] => (scene, notes)
  | (link, beat) :: beats =>
      (scene.perform link beat).observe enter (enter notes scene beat (scene.perform link beat))
        beats

/-- An observer does not disturb the run. -/
theorem observe_fst {Notes : Type} (enter : Notes → Scene → Beat → Scene → Notes)
    (scene : Scene) (notes : Notes) (beats : List (Link × Beat)) :
    (scene.observe enter notes beats).1 = scene.performAll beats := by
  induction beats generalizing scene notes with
  | nil => rfl
  | cons head beats induction => exact induction _ _

/-- Something holds of each beat, of the link under it and of the scene before it. -/
def Along (property : Scene → Link → Beat → Prop) (scene : Scene) : List (Link × Beat) → Prop
  | [] => True
  | (link, beat) :: beats =>
      property scene link beat ∧ (scene.perform link beat).Along property beats

/-- Something holds of the runner before each of the beats. -/
def Throughout (property : Runner → Prop) (scene : Scene) : List (Link × Beat) → Prop
  | [] => True
  | (link, beat) :: beats =>
      property scene.runner ∧ (scene.perform link beat).Throughout property beats

theorem Throughout.along {property : Runner → Prop} {scene : Scene} {beats : List (Link × Beat)}
    (throughout : scene.Throughout property beats) :
    scene.Along (fun scene _ _ => property scene.runner) beats := by
  induction beats generalizing scene with
  | nil => trivial
  | cons head beats induction => exact ⟨throughout.1, induction throughout.2⟩

/-- What each step and the note of it preserve under a condition holds after a run under it. -/
theorem observe_preserves_along {Notes : Type} {enter : Notes → Scene → Beat → Scene → Notes}
    {invariant : Notes → Scene → Prop} {property : Scene → Link → Beat → Prop}
    (preserved : ∀ (link : Link) (beat : Beat) (scene next : Scene) (notes : Notes),
      Step link scene beat next → property scene link beat → invariant notes scene →
        invariant (enter notes scene beat next) next)
    {scene : Scene} {notes : Notes} (start : invariant notes scene)
    {beats : List (Link × Beat)} (along : scene.Along property beats) :
    invariant (scene.observe enter notes beats).2 (scene.observe enter notes beats).1 := by
  induction beats generalizing scene notes with
  | nil => exact start
  | cons head beats induction =>
      rcases head with ⟨link, beat⟩
      have step := scene.perform_step link beat
      exact induction (preserved link beat scene _ notes step along.1 start) along.2

/-- The same for a condition on the runner before each step. -/
theorem observe_preserves_throughout {Notes : Type} {enter : Notes → Scene → Beat → Scene → Notes}
    {invariant : Notes → Scene → Prop} {property : Runner → Prop}
    (preserved : ∀ (link : Link) (beat : Beat) (scene next : Scene) (notes : Notes),
      Step link scene beat next → property scene.runner → invariant notes scene →
        invariant (enter notes scene beat next) next)
    {scene : Scene} {notes : Notes} (start : invariant notes scene)
    {beats : List (Link × Beat)} (throughout : scene.Throughout property beats) :
    invariant (scene.observe enter notes beats).2 (scene.observe enter notes beats).1 :=
  observe_preserves_along preserved start throughout.along

/-- A condition that always holds holds throughout. -/
theorem throughout_of_forall {property : Runner → Prop} (holds : ∀ runner, property runner)
    (scene : Scene) (beats : List (Link × Beat)) : scene.Throughout property beats := by
  induction beats generalizing scene with
  | nil => trivial
  | cons head beats induction => exact ⟨holds scene.runner, induction _⟩

/-- What each step and the note of it preserve holds after every run. -/
theorem observe_preserves {Notes : Type} {enter : Notes → Scene → Beat → Scene → Notes}
    {invariant : Notes → Scene → Prop}
    (preserved : ∀ (link : Link) (beat : Beat) (scene next : Scene) (notes : Notes),
      Step link scene beat next → invariant notes scene →
        invariant (enter notes scene beat next) next)
    {scene : Scene} {notes : Notes} (start : invariant notes scene)
    (beats : List (Link × Beat)) :
    invariant (scene.observe enter notes beats).2 (scene.observe enter notes beats).1 :=
  observe_preserves_throughout
    (fun link beat scene next notes step _ => preserved link beat scene next notes step) start
    (scene.throughout_of_forall (fun _ => trivial) beats)

/-- What each step preserves holds after every run. -/
theorem performAll_preserves {invariant : Scene → Prop}
    (preserved : ∀ (link : Link) (beat : Beat) (scene next : Scene),
      Step link scene beat next → invariant scene → invariant next)
    {scene : Scene} (start : invariant scene) (beats : List (Link × Beat)) :
    invariant (scene.performAll beats) := by
  rw [← scene.observe_fst (fun (_ : Unit) _ _ _ => ()) ()]
  exact observe_preserves (fun link beat scene next _ => preserved link beat scene next) start beats

end Scene

end FlightGuard
