import FlightGuard.Proofs.Runner.Moves

/-!
# Actions that are sent again

An intake that is offered the same action over and over accepts it once in a while.  What counts is
the latest acceptance: an offer with its number is a duplicate as long as less than a second and a
half have passed since.  Neither a rejected offer nor anything that happens to the accepted actions
makes a difference to that.

A transcript keeps every request to an intake with its answer and with the intake behind it.  So two
runs are compared by their transcripts: that of a run without its rejected offers is the transcript
of the whole run without the rejections.
-/

namespace FlightGuard

namespace Intake

/-- What is asked of an intake. -/
inductive Request where
  | offer (action : CustomAction) (now : Nat)
  | take
  | retire (order : Nat)
deriving DecidableEq

/-- What an intake answers. -/
inductive Answer where
  | accepted (order : Nat)
  | rejected (rejection : Rejection)
  | taken (job : Option Job)
  | retired
deriving DecidableEq

/-- A request with its answer, and the intake behind it. -/
structure Entry where
  request : Request
  answer : Answer
  after : Intake
deriving DecidableEq

/-- Does what is asked for; a rejected offer leaves the intake as it is. -/
def perform (intake : Intake) (request : Request) : Entry :=
  match request with
  | .offer action now =>
      match intake.offer action now with
      | .ok (order, next) => ⟨request, .accepted order, next⟩
      | .error rejection => ⟨request, .rejected rejection, intake⟩
  | .take => ⟨request, .taken intake.pending, intake.take⟩
  | .retire order => ⟨request, .retired, intake.retire order⟩

/-- The requests of a run with all that comes of them. -/
def transcript (intake : Intake) : List Request → List Entry
  | [] => []
  | request :: requests =>
      intake.perform request :: (intake.perform request).after.transcript requests

/-- The intake behind a run. -/
def run (intake : Intake) : List Request → Intake
  | [] => intake
  | request :: requests => (intake.perform request).after.run requests

/-- Whether something is offered. -/
def Request.isOffer : Request → Bool
  | .offer _ _ => true
  | .take | .retire _ => false

namespace Entry

/-- Whether an offer was rejected. -/
def isRejection (entry : Entry) : Bool :=
  match entry.answer with
  | .rejected _ => true
  | .accepted _ | .taken _ | .retired => false

/-- The number and the instant of an acceptance. -/
def acceptance? (entry : Entry) : Option (UInt32 × Nat) :=
  match entry.request, entry.answer with
  | .offer action now, .accepted _ => some (action.id, now)
  | _, _ => none

end Entry

/-- The acceptances of a run in their order. -/
def acceptances (entries : List Entry) : List (UInt32 × Nat) :=
  entries.filterMap Entry.acceptance?

/-! ## One request -/

theorem offer_eq (intake : Intake) (action : CustomAction) (now : Nat) :
    intake.offer action now =
      if intake.isDuplicate action.id now then .error (.duplicate action.id)
      else .ok (intake.nextOrder, intake.accept action now) :=
  rfl

/-- An offer is accepted or rejected, and each is told by what is remembered. -/
theorem perform_offer (intake : Intake) (action : CustomAction) (now : Nat) :
    intake.perform (.offer action now) =
      if intake.isDuplicate action.id now then
        ⟨.offer action now, .rejected (.duplicate action.id), intake⟩
      else ⟨.offer action now, .accepted intake.nextOrder, intake.accept action now⟩ := by
  rw [perform, offer_eq]
  cases intake.isDuplicate action.id now <;> rfl

theorem perform_request (intake : Intake) (request : Request) :
    (intake.perform request).request = request := by
  cases request with
  | offer action now =>
      rw [perform_offer]
      split <;> rfl
  | take | retire order => rfl

/-- A rejected offer leaves the intake as it is. -/
theorem perform_after_of_isRejection {intake : Intake} {request : Request}
    (refused : (intake.perform request).isRejection = true) :
    (intake.perform request).after = intake := by
  cases request with
  | offer action now =>
      rw [perform_offer] at refused ⊢
      split at refused
      next duplicate => rw [if_pos duplicate]
      next => cases refused
  | take | retire order => cases refused

/-- What is remembered changes with an acceptance, and with nothing else. -/
theorem perform_lastAccepted (intake : Intake) (request : Request) :
    (intake.perform request).after.lastAccepted =
      (intake.perform request).acceptance?.or intake.lastAccepted := by
  cases request with
  | offer action now =>
      rw [perform_offer]
      split <;> rfl
  | take | retire order => rfl

theorem isDuplicate_iff (intake : Intake) (id : UInt32) (now : Nat) :
    intake.isDuplicate id now = true ↔
      ∃ instant, intake.lastAccepted = some (id, instant)
        ∧ max 0 ((now : Int) - instant) < 1500000 := by
  rw [isDuplicate, Option.any_eq_true]
  constructor
  · rintro ⟨⟨other, instant⟩, remembered, repeated⟩
    rcases Bool.and_eq_true_iff.mp repeated with ⟨same, recent⟩
    have recent : now - instant < 1500000 := of_decide_eq_true recent
    obtain rfl := eq_of_beq same
    exact ⟨instant, remembered, by omega⟩
  · rintro ⟨instant, remembered, recent⟩
    have recent : now - instant < 1500000 := by omega
    exact ⟨(id, instant), remembered,
      Bool.and_eq_true_iff.mpr ⟨beq_self_eq_true id, decide_eq_true recent⟩⟩

/-! ## Runs -/

/-- What is remembered behind a run is its latest acceptance, if it has one. -/
theorem lastAccepted_run (intake : Intake) (requests : List Request) :
    (intake.run requests).lastAccepted =
      (acceptances (intake.transcript requests)).getLast?.or intake.lastAccepted := by
  induction requests generalizing intake with
  | nil => rfl
  | cons request requests induction =>
      rw [run, induction, perform_lastAccepted, transcript, acceptances, acceptances,
        List.filterMap_cons]
      cases (intake.perform request).acceptance? with
      | none => rfl
      | some acceptance =>
          rw [List.getLast?_cons]
          cases (List.filterMap Entry.acceptance? _).getLast? <;> rfl

/-- The requests of a run without the offers that were rejected. -/
def withoutRejected (intake : Intake) (requests : List Request) : List Request :=
  ((intake.transcript requests).filter fun entry => !entry.isRejection).map Entry.request

/-- The offers that were rejected leave no trace. -/
theorem transcript_withoutRejected (intake : Intake) (requests : List Request) :
    intake.transcript (intake.withoutRejected requests) =
        (intake.transcript requests).filter (fun entry => !entry.isRejection)
      ∧ intake.run (intake.withoutRejected requests) = intake.run requests := by
  induction requests generalizing intake with
  | nil => exact ⟨rfl, rfl⟩
  | cons request requests induction =>
      rcases induction (intake.perform request).after with ⟨entries, last⟩
      cases refused : (intake.perform request).isRejection with
      | true =>
          rw [perform_after_of_isRejection refused] at entries last
          have dropped : intake.withoutRejected (request :: requests) =
              intake.withoutRejected requests := by
            rw [withoutRejected, transcript, List.filter_cons_of_neg (by simp [refused]),
              perform_after_of_isRejection refused]
            rfl
          rw [dropped, run, transcript, perform_after_of_isRejection refused,
            List.filter_cons_of_neg (by simp [refused])]
          exact ⟨entries, last⟩
      | false =>
          have kept : intake.withoutRejected (request :: requests) =
              request :: (intake.perform request).after.withoutRejected requests := by
            rw [withoutRejected, transcript, List.filter_cons_of_pos (by simp [refused]),
              List.map_cons, perform_request]
            rfl
          rw [kept, run, run, transcript, transcript, List.filter_cons_of_pos (by simp [refused]),
            entries]
          exact ⟨rfl, last⟩

/-- Two intakes that number and remember alike answer all offers alike. -/
theorem answers_of_offers {one other : Intake} (number : one.nextOrder = other.nextOrder)
    (memory : one.lastAccepted = other.lastAccepted) (requests : List Request) :
    (one.transcript (requests.filter Request.isOffer)).map Entry.answer =
      ((other.transcript requests).filter fun entry => entry.request.isOffer).map
        Entry.answer := by
  induction requests generalizing one other with
  | nil => rfl
  | cons request requests induction =>
      cases request with
      | offer action now =>
          have alike : one.isDuplicate action.id now = other.isDuplicate action.id now := by
            rw [isDuplicate, isDuplicate, memory]
          rw [List.filter_cons_of_pos rfl, transcript, transcript, List.map_cons, perform_offer,
            perform_offer, alike]
          cases other.isDuplicate action.id now with
          | true =>
              rw [if_pos rfl, if_pos rfl, List.filter_cons_of_pos rfl, List.map_cons,
                induction number memory]
          | false =>
              have next : (one.accept action now).nextOrder = (other.accept action now).nextOrder :=
                congrArg Nat.succ number
              rw [if_neg Bool.false_ne_true, if_neg Bool.false_ne_true,
                List.filter_cons_of_pos rfl, List.map_cons, induction next rfl, number]
      | take | retire order => exact induction number memory

/-- As long as only a recent action is offered again nothing is accepted. -/
theorem acceptances_eq_nil {intake : Intake} {id : UInt32} {instant : Nat}
    (remembered : intake.lastAccepted = some (id, instant)) {requests : List Request}
    (again : ∀ action now, .offer action now ∈ requests →
      action.id = id ∧ now < instant + 1500000) :
    acceptances (intake.transcript requests) = [] := by
  induction requests generalizing intake with
  | nil => rfl
  | cons request requests induction =>
      have rest : ∀ action now, .offer action now ∈ requests →
          action.id = id ∧ now < instant + 1500000 :=
        fun action now member => again action now (List.mem_cons_of_mem _ member)
      have none : (intake.perform request).acceptance? = none := by
        cases request with
        | offer action now =>
            rcases again action now (List.mem_cons_self ..) with ⟨rfl, recent⟩
            have duplicate : intake.isDuplicate action.id now = true :=
              (intake.isDuplicate_iff _ _).mpr ⟨instant, remembered, by omega⟩
            rw [perform_offer, if_pos duplicate]
            rfl
        | take | retire order => rfl
      have still : (intake.perform request).after.lastAccepted = some (id, instant) := by
        rw [perform_lastAccepted, none]
        exact remembered
      rw [transcript, acceptances, List.filterMap_cons, none]
      exact induction still rest

/-! ## Duplicates -/

/--
An offer is rejected exactly if it repeats the number of the latest acceptance within a second and a
half, where time that runs backwards counts as none.  A run goes on in the same way without its
rejected offers, and its offers are answered in the same way without anything else.  So an action
that is sent again and again is accepted as soon as its acceptance is old enough, however often it
was rejected in between and whatever was taken and struck off.
-/
theorem duplicate_iff_latest_acceptance (past : List Request) :
    let log := empty.run past
    let latest := (acceptances (empty.transcript past)).getLast?
    (∀ action now,
        (log.offer action now = .error (.duplicate action.id) ↔
            ∃ instant, latest = some (action.id, instant)
              ∧ max 0 ((now : Int) - instant) < 1500000)
          ∧ ∀ rejection, log.offer action now = .error rejection →
              rejection = .duplicate action.id)
      ∧ empty.transcript (empty.withoutRejected past) =
          (empty.transcript past).filter (fun entry => !entry.isRejection)
      ∧ empty.run (empty.withoutRejected past) = log
      ∧ (empty.transcript (past.filter Request.isOffer)).map Entry.answer =
          ((empty.transcript past).filter fun entry => entry.request.isOffer).map Entry.answer
      ∧ ∀ action instant order next, log.offer action instant = .ok (order, next) →
          ∀ later : List Request,
            (∀ other now, .offer other now ∈ later →
              other.id = action.id ∧ now < instant + 1500000) →
            acceptances (next.transcript later) = []
              ∧ ∀ resent now, resent.id = action.id →
                  ((next.run later).offer resent now = .error (.duplicate action.id) ↔
                    now < instant + 1500000) := by
  intro log latest
  have refused (intake : Intake) (action : CustomAction) (now : Nat) :
      intake.offer action now = .error (.duplicate action.id) ↔
        intake.isDuplicate action.id now = true := by
    rw [offer_eq]
    cases intake.isDuplicate action.id now <;> simp
  have memory : log.lastAccepted = latest := (lastAccepted_run empty past).trans Option.or_none
  rcases transcript_withoutRejected empty past with ⟨entries, last⟩
  refine ⟨?_, entries, last, answers_of_offers rfl rfl past, ?_⟩
  · intro action now
    rw [refused, isDuplicate_iff, memory]
    refine ⟨Iff.rfl, ?_⟩
    intro rejection rejected
    rw [offer_eq] at rejected
    split at rejected
    · exact (Except.error.inj rejected).symm
    · cases rejected
  · intro action instant order next accepted later again
    have remembered : next.lastAccepted = some (action.id, instant) := by
      rw [offer_eq] at accepted
      split at accepted
      · cases accepted
      · cases accepted
        rfl
    have none := acceptances_eq_nil remembered again
    refine ⟨none, ?_⟩
    rintro resent now same
    rw [← same, refused, isDuplicate_iff, lastAccepted_run, none]
    change (∃ other, next.lastAccepted = some (resent.id, other) ∧ _) ↔ _
    rw [remembered, same]
    constructor
    · rintro ⟨other, found, recent⟩
      obtain ⟨_, rfl⟩ := Prod.mk.inj (Option.some.inj found)
      omega
    · intro recent
      exact ⟨instant, rfl, by omega⟩

/-- An action that calls a script. -/
def survey : CustomAction :=
  .ofScript 7 "survey" none

/-- The action is taken, sent again twice and struck off in between. -/
def resending : List Request :=
  [.take, .offer survey 1000000, .retire 0, .offer survey 1400000]

/-- Neither the two rejections nor the empty history change when the action is accepted again. -/
theorem acceptance_behind_resending :
    empty.offer survey 0 = .ok (0, empty.accept survey 0)
      ∧ acceptances ((empty.accept survey 0).transcript resending) = []
      ∧ ((empty.accept survey 0).run resending).history = []
      ∧ ((empty.accept survey 0).run resending).offer survey 1499999 = .error (.duplicate 7)
      ∧ ¬ ((empty.accept survey 0).run resending).offer survey 1500000 = .error (.duplicate 7) := by
  have accepted : (empty.run []).offer survey 0 = .ok (0, empty.accept survey 0) := rfl
  have again : ∀ other now, .offer other now ∈ resending →
      other.id = survey.id ∧ now < 0 + 1500000 := by
    intro other now member
    simp only [resending, List.mem_cons, Request.offer.injEq, reduceCtorEq, false_or,
      List.not_mem_nil, or_false] at member
    rcases member with ⟨rfl, rfl⟩ | ⟨rfl, rfl⟩
    · exact ⟨rfl, by decide⟩
    · exact ⟨rfl, by decide⟩
  rcases (duplicate_iff_latest_acceptance []).2.2.2.2 survey 0 _ _ accepted resending again with
    ⟨none, resent⟩
  exact ⟨accepted, none, rfl, (resent survey 1499999 rfl).mpr (by decide),
    fun duplicate => absurd ((resent survey 1500000 rfl).mp duplicate) (by decide)⟩

end Intake

end FlightGuard
