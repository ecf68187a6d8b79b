import FlightGuard.Proofs.Runner.Scenes
import Mathlib

/-!
# Requests by number

A client may name an action by its number and leave the rest to the catalog file.  The file is read
anew for each request, and what is found there is submitted: a request is the submission of the
first listed action with the number, or it fails and nothing has happened.

Between the look into the file and the submission others may come in, and the file may be replaced
at any time.  So a client at the desk holds the action that it has found until it offers it.
Nothing but a look into the file depends on what stands in it.
-/

namespace FlightGuard

/-! ## Looking an action up -/

/-- The file is a text that gives the catalog. -/
def StoredFile.Lists (file : StoredFile) (catalog : Catalog) : Prop :=
  ∃ text, file.readText = .ok text ∧ Catalog.decoder.ofText text = .ok catalog

/-- A file gives a catalog, or no text, or a text with a fault. -/
theorem StoredFile.lists_or_fails (file : StoredFile) :
    (∃ catalog, file.Lists catalog)
      ∨ (∃ failure, file.readText = .error failure)
      ∨ ∃ text fault, file.readText = .ok text ∧ Catalog.decoder.ofText text = .error fault := by
  cases given : file.readText with
  | error failure => exact Or.inr (Or.inl ⟨failure, rfl⟩)
  | ok text =>
      cases read : Catalog.decoder.ofText text with
      | ok catalog => exact Or.inl ⟨catalog, text, given, read⟩
      | error fault => exact Or.inr (Or.inr ⟨text, fault, rfl, read⟩)

namespace Catalog

/-- The action is the first of the catalog that has the number. -/
def ListsFirst (catalog : Catalog) (id : UInt32) (action : CustomAction) : Prop :=
  ∃ before after, catalog.actions = before ++ action :: after
    ∧ action.id = id ∧ ∀ other ∈ before, other.id ≠ id

variable {file : StoredFile} {catalog : Catalog} {action : CustomAction} {id : UInt32}

theorem resolve?_eq_some_iff :
    catalog.resolve? id = some action ↔ catalog.ListsFirst id action := by
  rw [resolve?, List.find?_eq_some_iff_append, ListsFirst]
  constructor
  · rintro ⟨same, before, after, split, others⟩
    refine ⟨before, after, split, eq_of_beq same, ?_⟩
    intro other member equal
    simpa [equal] using others other member
  · rintro ⟨before, after, split, rfl, others⟩
    refine ⟨beq_self_eq_true _, before, after, split, ?_⟩
    intro other member
    simpa using others other member

theorem resolve?_eq_none_iff :
    catalog.resolve? id = none ↔ ∀ action ∈ catalog.actions, action.id ≠ id := by
  simp [resolve?]

theorem lookUp_of_unreadable (path : String) (id : UInt32) {failure : ReadFailure}
    (unread : file.readText = .error failure) :
    lookUp file path id = .error (.catalog (.unreadable path failure)) := by
  rw [lookUp, StoredFile.load, unread]

theorem lookUp_of_unparsable (path : String) (id : UInt32) {text : String} {fault : Fault}
    (given : file.readText = .ok text) (faulty : decoder.ofText text = .error fault) :
    lookUp file path id = .error (.catalog (.unparsable path fault)) := by
  simp only [lookUp, StoredFile.load, given, faulty]

theorem lookUp_of_lists (path : String) (id : UInt32) (lists : file.Lists catalog) :
    lookUp file path id =
      match catalog.resolve? id with
      | some action => .ok action
      | none => .error (.unknownAction id) := by
  obtain ⟨text, given, read⟩ := lists
  have loaded : file.load path decoder = .ok catalog := by
    simp only [StoredFile.load, given, read]
  cases known : catalog.resolve? id with
  | none => simp only [lookUp, loaded, known]
  | some action => simp only [lookUp, loaded, known]

/-- A number is found if the file is a catalog that lists it, and then in its first place. -/
theorem lookUp_eq_ok_iff {path : String} :
    lookUp file path id = .ok action ↔
      ∃ catalog, file.Lists catalog ∧ catalog.ListsFirst id action := by
  constructor
  · intro found
    rcases file.lists_or_fails with
      ⟨catalog, lists⟩ | ⟨failure, unread⟩ | ⟨text, fault, given, faulty⟩
    · refine ⟨catalog, lists, resolve?_eq_some_iff.mp ?_⟩
      rw [lookUp_of_lists path id lists] at found
      split at found
      next known =>
        cases found
        exact known
      next => cases found
    · rw [lookUp_of_unreadable path id unread] at found
      cases found
    · rw [lookUp_of_unparsable path id given faulty] at found
      cases found
  · rintro ⟨catalog, lists, first⟩
    rw [lookUp_of_lists path id lists, resolve?_eq_some_iff.mpr first]

end Catalog

/-! ## One request -/

namespace Runner

variable {runner : Runner} {file : StoredFile} {path : String} {id : UInt32}

/-- A submission is accepted or is a duplicate. -/
theorem submit_cases (runner : Runner) (action : CustomAction) :
    (∃ order next, runner.submit action = .ok (order, next))
      ∨ runner.submit action = .error (.duplicate action.id) := by
  rw [submit, offer, Intake.offer]
  split
  · exact Or.inr rfl
  · exact Or.inl ⟨_, _, rfl⟩

theorem request_of_found {action : CustomAction}
    (found : Catalog.lookUp file path id = .ok action) :
    runner.request file path id = runner.submit action := by
  rw [request, found]
  rfl

theorem request_of_unfound {rejection : Rejection}
    (unfound : Catalog.lookUp file path id = .error rejection) :
    runner.request file path id = .error rejection := by
  rw [request, unfound]
  rfl

end Runner

namespace Scene

variable {scene : Scene} {file : StoredFile} {path : String} {id : UInt32}

theorem offer_of_rejected {action : CustomAction} {rejection : Rejection}
    (rejected : scene.runner.submit action = .error rejection) : scene.offer action = scene := by
  rw [offer]
  rcases scene.runner.offer_cases action with ⟨_, refused⟩ | accepted
  · rw [refused]
  · rw [Runner.submit, accepted] at rejected
    cases rejected

theorem request_of_found (link : Link) {action : CustomAction}
    (found : Catalog.lookUp file path id = .ok action) :
    scene.perform link (.request file path id) = scene.perform link (.offer action) := by
  simp only [perform, Beat.offered?, found, Except.toOption]

/-- A request that fails, for whatever reason, leaves the scene as it was. -/
theorem request_of_rejected (link : Link) {rejection : Rejection}
    (rejected : scene.runner.request file path id = .error rejection) :
    scene.perform link (.request file path id) = scene := by
  cases found : Catalog.lookUp file path id with
  | ok action =>
      rw [Runner.request_of_found found] at rejected
      rw [request_of_found link found]
      exact offer_of_rejected rejected
  | error unfound => simp only [perform, Beat.offered?, found, Except.toOption]

end Scene

/-! ## The desk -/

/--
A scene beside the catalog file as it stands, with the actions that clients have found in the file
and have not offered yet.
-/
structure Desk where
  scene : Scene
  path : String
  file : StoredFile
  found : List CustomAction

namespace Desk

/-- One thing that happens at the desk. -/
inductive Deed where
  /-- The catalog file is replaced. -/
  | replace (file : StoredFile)
  /-- A client looks for the action with a number in the file. -/
  | lookUp (id : UInt32)
  /-- A client offers an action that it has found. -/
  | hand (action : CustomAction)
  /-- Whatever else happens to the runner. -/
  | beat (beat : Scene.Beat)

/-- Whether a client looks into the file. -/
def Deed.looks : Deed → Bool
  | .lookUp _ => true
  | _ => false

/-- Whether the file is replaced. -/
def Deed.replaces : Deed → Bool
  | .replace _ => true
  | _ => false

/-- Performs a deed; a number that is not found and an action that nobody holds change nothing. -/
def perform (desk : Desk) (link : Link) : Deed → Desk
  | .replace file => { desk with file }
  | .lookUp id =>
      { desk with found := (Catalog.lookUp desk.file desk.path id).toOption.toList ++ desk.found }
  | .hand action =>
      if action ∈ desk.found then
        { desk with
            scene := desk.scene.perform link (.offer action)
            found := desk.found.erase action }
      else desk
  | .beat beat => { desk with scene := desk.scene.perform link beat }

/-- Performs deeds one after another, each under the link as it answers at that time. -/
def performAll (desk : Desk) : List (Link × Deed) → Desk
  | [] => desk
  | (link, deed) :: deeds => (desk.perform link deed).performAll deeds

/--
What deeds come down to: each action that is handed in is an offer of what was found in the file as
it stood at the look-up.
-/
def resolve (path : String) :
    StoredFile → List CustomAction → List (Link × Deed) → List (Link × Scene.Beat)
  | _, _, [] => []
  | _, found, (_, .replace file) :: deeds => resolve path file found deeds
  | file, found, (_, .lookUp id) :: deeds =>
      resolve path file ((Catalog.lookUp file path id).toOption.toList ++ found) deeds
  | file, found, (link, .hand action) :: deeds =>
      if action ∈ found then
        (link, .offer action) :: resolve path file (found.erase action) deeds
      else resolve path file found deeds
  | file, found, (link, .beat beat) :: deeds => (link, beat) :: resolve path file found deeds

/-- A run at the desk is a run of the offers that its deeds come down to. -/
theorem performAll_scene (desk : Desk) (deeds : List (Link × Deed)) :
    (desk.performAll deeds).scene =
      desk.scene.performAll (resolve desk.path desk.file desk.found deeds) := by
  induction deeds generalizing desk with
  | nil => rfl
  | cons head deeds induction =>
      rcases head with ⟨link, deed⟩
      rw [performAll, induction]
      cases deed with
      | replace file => rfl
      | lookUp id => rfl
      | beat beat => rfl
      | hand action =>
          rw [perform, resolve]
          split <;> rfl

/-- A look into the file and the offer of what was found there, in one go, are the request. -/
theorem request_at_once (desk : Desk) (link : Link) {id : UInt32} {action : CustomAction}
    (found : Catalog.lookUp desk.file desk.path id = .ok action) :
    desk.performAll [(link, .lookUp id), (link, .hand action)] =
      { desk with scene := desk.scene.perform link (.request desk.file desk.path id) } := by
  have held : action ∈ (Except.ok action : Except Rejection CustomAction).toOption.toList
      ++ desk.found := List.mem_cons_self
  rw [Scene.request_of_found link found, performAll, performAll, performAll, perform, found,
    perform, if_pos held]
  congr 1
  exact List.erase_cons_head action desk.found

/-- Where nobody looks into the file it might be another one. -/
theorem performAll_withFile {deeds : List (Link × Deed)}
    (blind : ∀ deed ∈ deeds, deed.2.looks = false) (desk : Desk) (file : StoredFile) :
    ({ desk with file }.performAll deeds).scene = (desk.performAll deeds).scene
      ∧ ({ desk with file }.performAll deeds).found = (desk.performAll deeds).found := by
  induction deeds generalizing desk file with
  | nil => exact ⟨rfl, rfl⟩
  | cons head deeds induction =>
      rcases head with ⟨link, deed⟩
      obtain ⟨unseen, later⟩ := List.forall_mem_cons.mp blind
      rw [performAll, performAll]
      cases deed with
      | lookUp id => cases unseen
      | replace other => exact ⟨rfl, rfl⟩
      | beat beat => exact induction later { desk with scene := desk.scene.perform link beat } file
      | hand action =>
          rw [perform, perform]
          dsimp only
          split
          next =>
            exact induction later
              { desk with
                  scene := desk.scene.perform link (.offer action)
                  found := desk.found.erase action } file
          next => exact induction later desk file

/-- The file is the one that was put there last. -/
theorem performAll_file {deeds : List (Link × Deed)}
    (kept : ∀ deed ∈ deeds, deed.2.replaces = false) (desk : Desk) :
    (desk.performAll deeds).file = desk.file ∧ (desk.performAll deeds).path = desk.path := by
  induction deeds generalizing desk with
  | nil => exact ⟨rfl, rfl⟩
  | cons head deeds induction =>
      rcases head with ⟨link, deed⟩
      obtain ⟨keeps, later⟩ := List.forall_mem_cons.mp kept
      rw [performAll, (induction later _).1, (induction later _).2]
      cases deed with
      | replace file => cases keeps
      | lookUp id | beat beat => exact ⟨rfl, rfl⟩
      | hand action =>
          rw [perform]
          split <;> exact ⟨rfl, rfl⟩

end Desk

/-! ## All requests -/

/-- A request for a number is answered as the file says, and does nothing where it fails. -/
structure Runner.AnswersBy (runner : Runner) (file : StoredFile) (path : String)
    (id : UInt32) : Prop where
  listed : ∀ catalog action, file.Lists catalog → catalog.ListsFirst id action →
    runner.request file path id = runner.submit action
      ∧ runner.operate (.request file path id) = runner.operate (.submit action)
  unlisted : ∀ catalog, file.Lists catalog → (∀ action ∈ catalog.actions, action.id ≠ id) →
    runner.request file path id = .error (.unknownAction id)
  unreadable : ∀ failure, file.readText = .error failure →
    runner.request file path id = .error (.catalog (.unreadable path failure))
  unparsable : ∀ text fault, file.readText = .ok text →
    Catalog.decoder.ofText text = .error fault →
      runner.request file path id = .error (.catalog (.unparsable path fault))
  unchanged : ∀ rejection, runner.request file path id = .error rejection →
    runner.operate (.request file path id) = runner

theorem Runner.answersBy (runner : Runner) (file : StoredFile) (path : String) (id : UInt32) :
    runner.AnswersBy file path id where
  listed catalog action lists first := by
    have same : runner.request file path id = runner.submit action :=
      request_of_found (Catalog.lookUp_eq_ok_iff.mpr ⟨catalog, lists, first⟩)
    refine ⟨same, ?_⟩
    rw [operate, operate, same]
  unlisted catalog lists unknown := by
    refine request_of_unfound ?_
    rw [Catalog.lookUp_of_lists path id lists, Catalog.resolve?_eq_none_iff.mpr unknown]
  unreadable failure unread := request_of_unfound (Catalog.lookUp_of_unreadable path id unread)
  unparsable text fault given faulty :=
    request_of_unfound (Catalog.lookUp_of_unparsable path id given faulty)
  unchanged rejection rejected := by
    rw [operate, rejected]
    rfl

/--
In every state a request for a number is the submission of the first listed action with the number
if the file is a catalog that lists it, and fails otherwise; a request that fails leaves everything
as it was, like a submission that is a duplicate.  In every run requests come down to offers of what
was found in the file as it stood at the look-up.  So whoever replaces the file changes nothing
until somebody looks into it, and then the new file counts.
-/
theorem requests_refine_submissions :
    (∀ (runner : Runner) (file : StoredFile) (path : String) (id : UInt32),
        runner.AnswersBy file path id)
      ∧ (∀ (scene : Scene) (link : Link) (action : CustomAction),
          (∃ order next, scene.runner.submit action = .ok (order, next))
            ∨ (scene.runner.submit action = .error (.duplicate action.id)
              ∧ scene.runner.operate (.submit action) = scene.runner
              ∧ scene.perform link (.offer action) = scene))
      ∧ (∀ (scene : Scene) (link : Link) (file : StoredFile) (path : String) (id : UInt32),
          (∀ catalog action, file.Lists catalog → catalog.ListsFirst id action →
              scene.perform link (.request file path id) = scene.perform link (.offer action))
            ∧ ∀ rejection, scene.runner.request file path id = .error rejection →
              scene.perform link (.request file path id) = scene)
      ∧ (∀ (desk : Desk) (link : Link) (id : UInt32) (action : CustomAction),
          Catalog.lookUp desk.file desk.path id = .ok action →
            desk.performAll [(link, .lookUp id), (link, .hand action)] =
              { desk with scene := desk.scene.perform link (.request desk.file desk.path id) })
      ∧ (∀ (desk : Desk) (deeds : List (Link × Desk.Deed)),
          (desk.performAll deeds).scene =
            desk.scene.performAll (Desk.resolve desk.path desk.file desk.found deeds))
      ∧ ∀ (desk : Desk) (link : Link) (file : StoredFile) (deeds : List (Link × Desk.Deed)),
          (∀ deed ∈ deeds, deed.2.looks = false) →
            let replaced := (desk.perform link (.replace file)).performAll deeds
            replaced.scene = (desk.performAll deeds).scene
              ∧ ((∀ deed ∈ deeds, deed.2.replaces = false) → ∀ later id,
                (replaced.perform later (.lookUp id)).found =
                  (Catalog.lookUp file desk.path id).toOption.toList
                    ++ (desk.performAll deeds).found) := by
  refine ⟨Runner.answersBy, ?_, ?_, fun desk link id action => desk.request_at_once link,
    Desk.performAll_scene, ?_⟩
  · intro scene link action
    rcases scene.runner.submit_cases action with accepted | duplicate
    · exact Or.inl accepted
    · refine Or.inr ⟨duplicate, ?_, Scene.offer_of_rejected duplicate⟩
      rw [Runner.operate, duplicate]
      rfl
  · intro scene link file path id
    refine ⟨?_, fun rejection => Scene.request_of_rejected link⟩
    intro catalog action lists first
    exact Scene.request_of_found link (Catalog.lookUp_eq_ok_iff.mpr ⟨catalog, lists, first⟩)
  · intro desk link file deeds blind replaced
    obtain ⟨scene, found⟩ := Desk.performAll_withFile blind desk file
    refine ⟨scene, ?_⟩
    intro kept later id
    obtain ⟨there, path⟩ := Desk.performAll_file kept { desk with file }
    change (Catalog.lookUp replaced.file replaced.path id).toOption.toList ++ replaced.found = _
    rw [show replaced.file = file from there, show replaced.path = desk.path from path,
      show replaced.found = (desk.performAll deeds).found from found]

/-- The text of a catalog that lists two actions with one number. -/
def repeatedText : String :=
  "\x7b\"actions\":[\x7b\"id\":7,\"global_script\":\"survey\"\x7d,"
    ++ "\x7b\"global_script\":\"land\",\"id\":7\x7d]\x7d"

/-- The actions of the text. -/
def repeatedCatalog : Catalog :=
  ⟨[.ofScript 7 "survey" none, .ofScript 7 "land" none]⟩

theorem lists_repeatedCatalog :
    (StoredFile.content repeatedText.toUTF8).Lists repeatedCatalog := by
  have reading : Reading.ofText repeatedText =
      ⟨.ofMembers
        [("actions", .list
          [.ofMembers
            [("id", .number ⟨⟨false, 7, 0⟩, true⟩), ("global_script", .ofString "survey")],
           .ofMembers
            [("global_script", .ofString "land"), ("id", .number ⟨⟨false, 7, 0⟩, true⟩)]]
          .closed)], false⟩ := by
    cbv
  refine ⟨repeatedText, StoredFile.readText_toUTF8 repeatedText, ?_⟩
  rw [Decoder.ofText, reading]
  rfl

/-- The first of both actions is found, and it is pending also where the file has gone meanwhile. -/
theorem survey_outlives_its_catalog :
    let file := StoredFile.content repeatedText.toUTF8
    let survey : CustomAction := .ofScript 7 "survey" none
    let desk : Desk := ⟨.initial 0, "catalog.json", file, [survey]⟩
    let deeds : List (Link × Desk.Deed) := [(.accepting, .hand survey)]
    file.Lists repeatedCatalog
      ∧ repeatedCatalog.ListsFirst 7 survey
      ∧ (Runner.initial 0).request file "catalog.json" 7 = (Runner.initial 0).submit survey
      ∧ (Runner.initial 0).request file "catalog.json" 8 = .error (.unknownAction 8)
      ∧ (Runner.initial 0).request .absent "catalog.json" 7 =
          .error (.catalog (.unreadable "catalog.json" .notFound))
      ∧ (((desk.perform .accepting (.replace .absent)).performAll deeds).scene =
          (desk.performAll deeds).scene)
      ∧ (desk.performAll deeds).scene.runner.intake.pending = some ⟨0, survey⟩ := by
  intro file survey desk deeds
  have lists : file.Lists repeatedCatalog := lists_repeatedCatalog
  have first : repeatedCatalog.ListsFirst 7 survey := ⟨[], _, rfl, rfl, nofun⟩
  have unlisted : ∀ action ∈ repeatedCatalog.actions, action.id ≠ 8 := by decide
  have blind : ∀ deed ∈ deeds, deed.2.looks = false := by
    intro deed member
    obtain rfl := List.mem_singleton.mp member
    rfl
  obtain ⟨answered, _, _, _, _, replaced⟩ := requests_refine_submissions
  have known := answered (.initial 0) file "catalog.json" 7
  have unknown := answered (.initial 0) file "catalog.json" 8
  have absent := answered (.initial 0) .absent "catalog.json" 7
  exact ⟨lists, first, (known.listed _ _ lists first).1, unknown.unlisted _ lists unlisted,
    absent.unreadable _ rfl, (replaced desk .accepting .absent deeds blind).1, by decide⟩

end FlightGuard
