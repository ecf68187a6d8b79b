import FlightGuard.Proofs.Runner.Scenes

/-!
# Turns are made of beats

A runner that goes in step with its clock is one of the runs that beats can make.  Each of its turns
is taken apart into beats, with no report under way and no wake-up to come between two turns.  So
what holds of all orders of beats holds of the clock as well.
-/

namespace FlightGuard

/-- The action that an operation submits, if it submits one. -/
def Runner.Operation.offered? : Runner.Operation → Option CustomAction
  | .submit action => some action
  | .request file path id => (Catalog.lookUp file path id).toOption
  | .cancel _ | .stop => none

namespace Scene

/-- The scene of a runner with nothing under way. -/
def still (runner : Runner) : Scene :=
  ⟨runner, [], none⟩

/-- What the runner does itself, or what time does. -/
def Beat.isOwn : Beat → Bool
  | .work | .leave | .judgeLate | .read | .send | .cease | .pass _ => true
  | .offer _ | .request _ _ _ | .announce _ | .cancel _ | .stop => false

/-- What a client does of an operation. -/
def Beat.Serves (operation : Runner.Operation) : Beat → Prop
  | .offer action => operation.offered? = some action
  | .announce _ => operation.offered?.isSome = true
  | .cancel raised => operation = .cancel raised
  | .stop => operation = .stop
  | .request _ _ _ | .work | .leave | .judgeLate | .read | .send | .cease | .pass _ => False

/-- Some beats, all with a property, lead from one scene to another. -/
def Reaches (property : Scene → Link → Beat → Prop) (scene next : Scene) : Prop :=
  ∃ beats, scene.Along property beats ∧ scene.performAll beats = next

namespace Reaches

variable {property : Scene → Link → Beat → Prop} {scene next last : Scene}

theorem refl (scene : Scene) : Reaches property scene scene :=
  ⟨[], trivial, rfl⟩

theorem head {link : Link} {beat : Beat} (holds : property scene link beat)
    (performed : scene.perform link beat = next) (reaches : Reaches property next last) :
    Reaches property scene last := by
  rcases reaches with ⟨beats, along, reached⟩
  refine ⟨(link, beat) :: beats, ⟨holds, performed ▸ along⟩, ?_⟩
  rw [performAll, performed, reached]

theorem single {link : Link} {beat : Beat} (holds : property scene link beat)
    (performed : scene.perform link beat = next) : Reaches property scene next :=
  head holds performed (refl next)

theorem trans (first : Reaches property scene next) (second : Reaches property next last) :
    Reaches property scene last := by
  rcases first with ⟨beats, along, reached⟩
  induction beats generalizing scene with
  | nil =>
      obtain rfl : scene = next := reached
      exact second
  | cons head beats induction => exact .head along.1 rfl (induction along.2 reached)

end Reaches

variable {property : Scene → Link → Beat → Prop} {runner next : Runner}

/-- A report is read and sent, and everything else is one beat. -/
theorem reaches_of_reporterSection {link : Link}
    (performed : runner.reporterSection link = some next)
    (own : ∀ scene beat, beat.isOwn = true → property scene link beat) :
    Reaches property (still runner) (still next) := by
  rw [Runner.reporterSection.eq_def] at performed
  split at performed
  next => cases performed
  next due running =>
    split at performed
    next raised =>
      obtain rfl := Option.some.inj performed
      refine .single (own _ .cease rfl) ?_
      change (if runner.signal.raised = true then _ else _) = _
      rw [if_pos raised]
      rfl
    next =>
      split at performed
      next reached =>
        cases told : Runner.openReport runner.record with
        | some report =>
            rw [told] at performed
            obtain rfl := Option.some.inj performed
            have reads : (still runner).perform link .read =
                { still runner with draft := some report } := by
              change read (still runner) = _
              simp only [read, still, running, reached, told, if_true]
            refine .head (own _ .read rfl) reads (.single (own _ .send rfl) ?_)
            change send _ link = _
            simp only [send, still, running]
        | none =>
            rw [told] at performed
            obtain rfl := Option.some.inj performed
            refine .single (own _ .read rfl) ?_
            change read (still runner) = _
            simp only [read, still, running, reached, told, if_true]
      next => cases performed

theorem reaches_of_nextSection {link : Link} (performed : runner.nextSection link = some next)
    (own : ∀ scene beat, beat.isOwn = true → property scene link beat) :
    Reaches property (still runner) (still next) := by
  rcases Option.or_eq_some_iff.mp performed with byWorker | ⟨_, byReporter⟩
  · refine .single (own _ .work rfl) ?_
    change Scene.mk ((runner.workerSection link).getD runner) _ _ = _
    rw [byWorker]
    rfl
  · exact reaches_of_reporterSection byReporter own

theorem reaches_of_pass {instant : Nat} (forward : runner.clock ≤ instant) (link : Link)
    (passes : ∀ milliseconds, property (still runner) link (.pass milliseconds)) :
    Reaches property (still runner) (still { runner with clock := instant }) := by
  refine .single (passes (instant - runner.clock)) ?_
  change still { runner with clock := runner.clock + (instant - runner.clock) } = _
  rw [Nat.add_sub_cancel' forward]

/-- A client offers its action and wakes the worker right behind it. -/
theorem reaches_of_submit (action : CustomAction) (link : Link)
    (served : ∀ scene beat, scene.runner.record = runner.record →
      beat.Serves (.submit action) → property scene link beat) :
    Reaches property (still runner) (still (runner.afterIntake (runner.submit action))) := by
  rcases runner.offer_cases action with ⟨rejection, rejected⟩ | accepted
  · have stays : runner.afterIntake (runner.submit action) = runner := by
      rw [Runner.submit, rejected]
      rfl
    rw [stays]
    exact .refl _
  · have submitted : runner.afterIntake (runner.submit action) =
        Runner.wake { runner with
          intake := runner.intake.accept action (runner.clock * 1000) } := by
      rw [Runner.submit, accepted]
      rfl
    have offers : (still runner).perform link (.offer action) =
        { still runner with
            runner := { runner with
              intake := runner.intake.accept action (runner.clock * 1000) }
            unannounced := [runner.intake.nextOrder] } := by
      change offer (still runner) action = _
      simp only [offer, still, accepted]
    rw [submitted]
    refine .head (served _ (.offer action) rfl rfl) offers ?_
    refine .single (served _ (.announce runner.intake.nextOrder) rfl rfl) ?_
    change announce _ _ = _
    simp only [announce, List.mem_singleton, if_true, still, List.erase_cons_head]

/-- A client may look its action up before it offers it, and leaves the record alone. -/
theorem reaches_of_operate (operation : Runner.Operation) (link : Link)
    (served : ∀ scene beat, scene.runner.record = runner.record →
      beat.Serves operation → property scene link beat) :
    Reaches property (still runner) (still (runner.operate operation)) := by
  cases operation with
  | submit action => exact reaches_of_submit action link served
  | cancel raised => exact .single (served _ (.cancel raised) rfl rfl) rfl
  | stop => exact .single (served _ .stop rfl rfl) rfl
  | request file path id =>
      rw [Runner.operate, Runner.request]
      cases found : Catalog.lookUp file path id with
      | error rejection => exact .refl _
      | ok action =>
          have same : (Runner.Operation.request file path id).offered? = some action := by
            rw [Runner.Operation.offered?, found]
            rfl
          refine reaches_of_submit action link ?_
          intro scene beat kept serves
          refine served scene beat kept ?_
          cases beat with
          | offer other => exact same.trans serves
          | announce order =>
              change (Runner.Operation.request file path id).offered?.isSome = true
              rw [same]
              rfl
          | cancel _ | stop => cases serves
          | request | work | leave | judgeLate | read | send | cease | pass => exact serves.elim

end Scene

namespace Runner

open Scene

variable {property : Scene → Link → Beat → Prop} {runner next : Runner}

/-- Without clients, under one link. -/
theorem FlowsUnder.reaches {link : Link} (flows : FlowsUnder link runner next)
    (own : ∀ scene beat, beat.isOwn = true → property scene link beat) :
    Reaches property (still runner) (still next) := by
  induction flows with
  | refl => exact .refl _
  | tail _ turn induction =>
      refine induction.trans ?_
      rcases turn with performed | turn
      · exact reaches_of_nextSection performed own
      · cases turn with
        | pass _ forward _ => exact reaches_of_pass forward link fun _ => own _ _ rfl

end Runner

end FlightGuard
