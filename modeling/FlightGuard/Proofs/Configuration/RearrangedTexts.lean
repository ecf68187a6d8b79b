import FlightGuard.Action.Catalog
import FlightGuard.Proofs.Configuration.Provisioning
import FlightGuard.Proofs.Document.Rearranging

/-!
# Rearranged configurations and catalogs

The operator may write the members of a configuration and of a catalog in any order, with any
blanks between them and with remarks under names that mean nothing.  What is left out of a
configuration has its default, at every depth, and what is given twice spoils the whole text.

Each record has a layout, and the law of records goes up from the numbers and words to the whole
configuration and the whole catalog.
-/

namespace FlightGuard

open Decoder

/-! ## Choices -/

/-- A choice is a word or a word with nothing behind it, so there is nothing to reorder. -/
theorem Decoder.choice_ignoresOrder {Value : Type} (names : List (String × Value))
    (fallback : Option Value) : (choice names fallback).IgnoresOrder := by
  intro document other value reordered decoded
  obtain ⟨word, spelled, _⟩ := choice_eq_ok_iff.mp decoded
  have same : other = document := by
    rcases spelled with rfl | rfl
    · cases reordered
    · generalize whole : [(Document.ofString word, Document.null)] = members at reordered ⊢
      cases reordered with
      | here same =>
          rw [← whole, List.singleton_perm] at same
          rw [← whole, same]
      | @member before after key value other ending inner =>
          cases before with
          | nil =>
              cases whole
              cases inner
          | cons first before => simp at whole
  rw [same]
  exact decoded

theorem Form.choice_isLawful {Value : Type} (names : List (String × Value))
    (fallback : Option Value) : (Form.plain (choice names fallback)).IsLawful :=
  plain_isLawful (choice_isThorough names fallback) (choice_ignoresOrder names fallback)

/-! ## Configurations -/

/-- The parts of a waypoint. -/
def waypointLayout : Layout GlobalPosition where
  slots :=
    [.withDefault "lat_deg" (.plain double) (·.latitude) fun position value =>
       { position with latitude := value },
     .withDefault "lon_deg" (.plain double) (·.longitude) fun position value =>
       { position with longitude := value },
     .withDefault "alt_amsl_m" (.plain double) (·.altitude) fun position value =>
       { position with altitude := value }]
  defaults := .zero
  distinct := by decide
  apart := by simp [Slot.Apart, Slot.withDefault]

/-- The form of a waypoint. -/
def waypointForm : Form GlobalPosition :=
  ⟨waypointDecoder, waypointLayout.shape, waypointLayout.reset⟩

theorem waypointForm_isLawful : waypointForm.IsLawful := by
  have double := Form.plain_isLawful double_isThorough double_ignoresOrder
  refine waypointLayout.form_isLawful ?_
  simp only [waypointLayout, List.forall_mem_cons]
  exact ⟨double, double, double, List.forall_mem_nil _⟩

theorem waypointForm_isLenient : waypointForm.shape.IsLenient := by
  refine waypointLayout.shape_isLenient ?_
  simp only [waypointLayout, List.forall_mem_cons]
  exact ⟨⟨rfl, .plain⟩, ⟨rfl, .plain⟩, ⟨rfl, .plain⟩, List.forall_mem_nil _⟩

namespace BodyOffset

/-- The parts of an offset. -/
def layout : Layout BodyOffset where
  slots :=
    [.withDefault "x_m" (.plain double) (·.forward) fun offset value =>
       { offset with forward := value },
     .withDefault "y_m" (.plain double) (·.right) fun offset value =>
       { offset with right := value },
     .withDefault "z_m" (.plain double) (·.up) fun offset value => { offset with up := value }]
  defaults := .zero
  distinct := by decide
  apart := by simp [Slot.Apart, Slot.withDefault]

/-- The form of an offset. -/
def form : Form BodyOffset :=
  ⟨decoder, layout.shape, layout.reset⟩

theorem form_isLawful : form.IsLawful := by
  have double := Form.plain_isLawful double_isThorough double_ignoresOrder
  refine layout.form_isLawful ?_
  simp only [layout, List.forall_mem_cons]
  exact ⟨double, double, double, List.forall_mem_nil _⟩

theorem form_isLenient : form.shape.IsLenient := by
  refine layout.shape_isLenient ?_
  simp only [layout, List.forall_mem_cons]
  exact ⟨⟨rfl, .plain⟩, ⟨rfl, .plain⟩, ⟨rfl, .plain⟩, List.forall_mem_nil _⟩

end BodyOffset

namespace LandingPolicy

/-- The parts of a landing policy. -/
def layout : Layout LandingPolicy where
  slots :=
    [.withDefault "enabled" (.plain truth) (·.enabled) fun policy value =>
       { policy with enabled := value },
     .withDefault "on_no_safe_land" (.plain Reaction.decoder) (·.reaction) fun policy value =>
       { policy with reaction := value },
     .withDefault "try_landing_after_action" (.plain truth) (·.retryLanding) fun policy value =>
       { policy with retryLanding := value },
     .withDefault "waypoint" waypointForm (·.waypoint) fun policy value =>
       { policy with waypoint := value },
     .withDefault "offset" BodyOffset.form (·.offset) fun policy value =>
       { policy with offset := value }]
  defaults := .default
  distinct := by decide
  apart := by simp [Slot.Apart, Slot.withDefault]

/-- The form of a landing policy. -/
def form : Form LandingPolicy :=
  ⟨decoder, layout.shape, layout.reset⟩

theorem form_isLawful : form.IsLawful := by
  have truth := Form.plain_isLawful truth_isThorough truth_ignoresOrder
  refine layout.form_isLawful ?_
  simp only [layout, List.forall_mem_cons]
  exact ⟨truth, Form.choice_isLawful _ _, truth, waypointForm_isLawful, BodyOffset.form_isLawful,
    List.forall_mem_nil _⟩

theorem form_isLenient : form.shape.IsLenient := by
  refine layout.shape_isLenient ?_
  simp only [layout, List.forall_mem_cons]
  exact ⟨⟨rfl, .plain⟩, ⟨rfl, .plain⟩, ⟨rfl, .plain⟩, ⟨rfl, waypointForm_isLenient⟩,
    ⟨rfl, BodyOffset.form_isLenient⟩, List.forall_mem_nil _⟩

end LandingPolicy

namespace AvoidancePolicy

/-- The parts of an obstacle policy. -/
def layout : Layout AvoidancePolicy where
  slots :=
    [.withDefault "enabled" (.plain truth) (·.enabled) fun policy value =>
       { policy with enabled := value },
     .withDefault "distance_threshold_m" (.plain single) (·.threshold) fun policy value =>
       { policy with threshold := value },
     .withDefault "action_on_trigger" (.plain Reaction.decoder) (·.reaction) fun policy value =>
       { policy with reaction := value }]
  defaults := .default
  distinct := by decide
  apart := by simp [Slot.Apart, Slot.withDefault]

/-- The form of an obstacle policy. -/
def form : Form AvoidancePolicy :=
  ⟨decoder, layout.shape, layout.reset⟩

theorem form_isLawful : form.IsLawful := by
  refine layout.form_isLawful ?_
  simp only [layout, List.forall_mem_cons]
  exact ⟨Form.plain_isLawful truth_isThorough truth_ignoresOrder,
    Form.plain_isLawful single_isThorough single_ignoresOrder, Form.choice_isLawful _ _,
    List.forall_mem_nil _⟩

theorem form_isLenient : form.shape.IsLenient := by
  refine layout.shape_isLenient ?_
  simp only [layout, List.forall_mem_cons]
  exact ⟨⟨rfl, .plain⟩, ⟨rfl, .plain⟩, ⟨rfl, .plain⟩, List.forall_mem_nil _⟩

end AvoidancePolicy

namespace Configuration

/-- The parts of a configuration. -/
def layout : Layout Configuration where
  slots :=
    [.withDefault "enabled" (.plain truth) (·.enabled) fun configuration value =>
       { configuration with enabled := value },
     .withDefault "mode" (.plain Mode.decoder) (·.mode) fun configuration value =>
       { configuration with mode := value },
     .withDefault "safe_landing" LandingPolicy.form (·.landing) fun configuration value =>
       { configuration with landing := value },
     .withDefault "collision_avoidance" AvoidancePolicy.form (·.avoidance)
       fun configuration value => { configuration with avoidance := value }]
  defaults := .default
  distinct := by decide
  apart := by simp [Slot.Apart, Slot.withDefault]

/-- The form of a configuration. -/
def form : Form Configuration :=
  ⟨decoder, layout.shape, layout.reset⟩

theorem form_isLawful : form.IsLawful := by
  refine layout.form_isLawful ?_
  simp only [layout, List.forall_mem_cons]
  exact ⟨Form.plain_isLawful truth_isThorough truth_ignoresOrder, Form.choice_isLawful _ _,
    LandingPolicy.form_isLawful, AvoidancePolicy.form_isLawful, List.forall_mem_nil _⟩

/-- Without its threshold a policy has the default one, which is not zero. -/
example (configuration : Configuration) :
    form.reset [.member "collision_avoidance"] "distance_threshold_m" configuration =
      { configuration with avoidance := { configuration.avoidance with threshold := 1 } } := rfl

theorem form_isLenient : form.shape.IsLenient := by
  refine layout.shape_isLenient ?_
  simp only [layout, List.forall_mem_cons]
  exact ⟨⟨rfl, .plain⟩, ⟨rfl, .plain⟩, ⟨rfl, LandingPolicy.form_isLenient⟩,
    ⟨rfl, AvoidancePolicy.form_isLenient⟩, List.forall_mem_nil _⟩

end Configuration

/-! ## Catalogs -/

theorem Form.natural_isLawful {Value : Type} (bound : Nat) (change : Nat → Value) :
    (Form.plain (mapped (natural bound) change)).IsLawful :=
  plain_isLawful (mapped_isThorough (natural_isThorough bound) change)
    (mapped_ignoresOrder (natural_ignoresOrder bound) change)

namespace VehicleCommand

/-- The parts of a command. -/
def layout : Layout VehicleCommand where
  slots :=
    [.withDefault "kind" (.plain Encoding.decoder) (·.encoding) fun command value =>
       { command with encoding := value },
     .mandatory "command" (.plain (mapped (natural UInt16.size) .ofNat)) (·.code)
       fun command value => { command with code := value },
     .withDefault "target_system" (.plain (mapped (natural UInt8.size) .ofNat)) (·.targetSystem)
       fun command value => { command with targetSystem := value },
     .withDefault "target_component" (.plain (mapped (natural UInt8.size) .ofNat))
       (·.targetComponent) fun command value => { command with targetComponent := value },
     .withDefault "params" (.plain (exactly 7 single)) (·.parameters) fun command value =>
       { command with parameters := value }]
  defaults := .ofCode 0
  distinct := by decide
  apart := by simp [Slot.Apart, Slot.withDefault, Slot.mandatory]

/-- The form of a command. -/
def form : Form VehicleCommand :=
  ⟨decoder, layout.shape, layout.reset⟩

theorem layout_fields : layout.fields = fields := by
  simp only [Layout.fields, layout, List.map_cons, List.map_nil, Slot.withDefault,
    Slot.mandatory, Form.field_mapped]
  rfl

theorem form_isLawful : form.IsLawful := by
  have same : form = layout.form := by
    rw [form, Layout.form, Layout.decoder, layout_fields]
    rfl
  rw [same]
  refine layout.form_isLawful ?_
  simp only [layout, List.forall_mem_cons]
  exact ⟨Form.choice_isLawful _ _, Form.natural_isLawful _ _, Form.natural_isLawful _ _,
    Form.natural_isLawful _ _, Form.plain_isLawful (exactly_isThorough 7 single_isThorough)
      (exactly_ignoresOrder 7 single_ignoresOrder), List.forall_mem_nil _⟩

end VehicleCommand

namespace Stage

/-- The parts of a stage. -/
def layout : Layout Stage where
  slots :=
    [.mandatory "command" VehicleCommand.form (·.command) fun stage value =>
       { stage with command := value },
     .withDefault "duration_s" (.plain double) (·.seconds) fun stage value =>
       { stage with seconds := value }]
  defaults := ⟨.ofCode 0, 0⟩
  distinct := by decide
  apart := by simp [Slot.Apart, Slot.withDefault, Slot.mandatory]

/-- The form of a stage. -/
def form : Form Stage :=
  ⟨decoder, layout.shape, layout.reset⟩

theorem form_isLawful : form.IsLawful := by
  refine layout.form_isLawful ?_
  simp only [layout, List.forall_mem_cons]
  exact ⟨VehicleCommand.form_isLawful, Form.plain_isLawful double_isThorough double_ignoresOrder,
    List.forall_mem_nil _⟩

end Stage

namespace CustomAction

/-- The parts of an action. -/
def layout : Layout CustomAction where
  slots :=
    [.mandatory "id" (.plain (mapped (natural UInt32.size) .ofNat)) (·.id) fun action value =>
       { action with id := value },
     .withDefault "stages" (.listOf Stage.form) (·.stages) fun action value =>
       { action with stages := value },
     .withDefault "global_script" (.plain (optional text)) (·.script) fun action value =>
       { action with script := value },
     .withDefault "global_timeout_s" (.plain (optional double)) (·.limitSeconds)
       fun action value => { action with limitSeconds := value }]
  defaults := .ofStages 0 []
  distinct := by decide
  apart := by simp [Slot.Apart, Slot.withDefault, Slot.mandatory]

/-- The form of an action. -/
def form : Form CustomAction :=
  ⟨decoder, layout.shape, layout.reset⟩

theorem layout_fields : layout.fields = fields := by
  simp only [Layout.fields, layout, List.map_cons, List.map_nil, Slot.withDefault,
    Slot.mandatory, Form.field_mapped]
  rfl

theorem form_isLawful : form.IsLawful := by
  have same : form = layout.form := by
    rw [form, Layout.form, Layout.decoder, layout_fields]
    rfl
  rw [same]
  refine layout.form_isLawful ?_
  simp only [layout, List.forall_mem_cons]
  exact ⟨Form.natural_isLawful _ _, Form.listOf_isLawful Stage.form_isLawful,
    Form.plain_isLawful (optional_isThorough text_isThorough)
      (optional_ignoresOrder text_ignoresOrder),
    Form.plain_isLawful (optional_isThorough double_isThorough)
      (optional_ignoresOrder double_ignoresOrder), List.forall_mem_nil _⟩

end CustomAction

namespace Catalog

/-- The one part of a catalog. -/
def layout : Layout Catalog where
  slots :=
    [.withDefault "actions" (.listOf CustomAction.form) (·.actions) fun catalog value =>
       { catalog with actions := value }]
  defaults := ⟨[]⟩
  distinct := by decide
  apart := List.pairwise_singleton _ _

/-- The form of a catalog. -/
def form : Form Catalog :=
  ⟨decoder, layout.shape, layout.reset⟩

theorem form_isLawful : form.IsLawful := by
  refine layout.form_isLawful ?_
  simp only [layout, List.forall_mem_cons]
  exact ⟨Form.listOf_isLawful CustomAction.form_isLawful, List.forall_mem_nil _⟩

end Catalog

/-! ## Whole texts -/

/--
The texts of configurations and of catalogs withstand being rearranged: new orders of members,
unknown members in the records and blanks leave what is read, a member that is left out has its
default in the record where it is missing, and a member that is given twice is a mismatch.  Every
member of every record in a configuration may be left out.
-/
theorem texts_withstand_rearrangement :
    Configuration.form.shape.IsLenient
      ∧ (∀ text configuration, Configuration.decoder.ofText text = .ok configuration →
          Configuration.form.Withstands text configuration)
      ∧ ∀ text catalog, Catalog.decoder.ofText text = .ok catalog →
          Catalog.form.Withstands text catalog :=
  ⟨Configuration.form_isLenient, fun _ _ => Configuration.form_isLawful.withstands,
    fun _ _ => Catalog.form_isLawful.withstands⟩

/-- A text that gives a threshold. -/
def thresholdText : String :=
  "\x7b\"enabled\":true,"
    ++ "\"collision_avoidance\":\x7b\"distance_threshold_m\":20,\"enabled\":true\x7d\x7d"

/-- The text with its parts in another order, more blanks, and a remark that none could keep. -/
def remarkedText : String :=
  " \x7b \"collision_avoidance\" : \x7b\"distance_threshold_m\":20, \"note\": [1e999,"
    ++ "\x7b\"by\":\"\\ud800\"\x7d],\"enabled\":true\x7d,\n\"enabled\":true\x7d\n"

/-- The text without its threshold. -/
def switchText : String :=
  "\x7b\"enabled\":true,\"collision_avoidance\":\x7b\"enabled\":true\x7d\x7d"

/-- The text with its threshold given once more. -/
def doubledText : String :=
  "\x7b\"enabled\":true,\"collision_avoidance\":\x7b\"distance_threshold_m\":20,"
    ++ "\"enabled\":true,\"distance_threshold_m\":20\x7d\x7d"

/-- A catalog of one action. -/
def actionText : String :=
  "\x7b\"actions\":[\x7b\"stages\":[],\"id\":7\x7d]\x7d"

/-- The catalog with a remark on its action. -/
def remarkedActionText : String :=
  "\x7b\"actions\":[\x7b\"stages\":[],\"by\":null,\"id\":7\x7d]\x7d"

/-- The member with the threshold. -/
def thresholdMember : String × Document :=
  ("distance_threshold_m", .number ⟨⟨false, 20, 0⟩, true⟩)

/-- The remark. -/
def remark : Document :=
  .list [.number ⟨⟨false, 1, 999⟩, false⟩, .ofMembers [("by", .text (.error .malformed))]] .closed

/-- What a text with the members of a policy stands for. -/
def avoidanceDocument (members : List (String × Document)) : Document :=
  .ofMembers [("enabled", .truth true), ("collision_avoidance", .ofMembers members)]

/-- What a text with the members of an action stands for. -/
def actionDocument (members : List (String × Document)) : Document :=
  .ofMembers [("actions", .list [.ofMembers members] .closed)]

/-- The member with the number of the action. -/
def numberMember : String × Document :=
  ("id", .number ⟨⟨false, 7, 0⟩, true⟩)

theorem avoidanceDocument_edited {edit : Edit} {before after : List (String × Document)}
    (inner : AvoidancePolicy.form.shape.Edited edit [] (.ofMembers before) (.ofMembers after)) :
    Configuration.form.shape.Edited edit [.member "collision_avoidance"]
      (avoidanceDocument before) (avoidanceDocument after) := by
  have shape : Configuration.form.shape = .record [] [("enabled", .plain), ("mode", .plain),
      ("safe_landing", LandingPolicy.form.shape),
      ("collision_avoidance", AvoidancePolicy.form.shape)] := rfl
  rw [shape]
  exact @Shape.Edited.member _ _ _ _ _ _ [(.ofString "enabled", .truth true)] [] _ _ _
    (.tail _ (.tail _ (.tail _ (.head _)))) inner

theorem actionDocument_edited {edit : Edit} {before after : List (String × Document)}
    (inner : CustomAction.form.shape.Edited edit [] (.ofMembers before) (.ofMembers after)) :
    Catalog.form.shape.Edited edit [.member "actions", .item 0] (actionDocument before)
      (actionDocument after) := by
  have shape : Catalog.form.shape =
      .record [] [("actions", .listOf CustomAction.form.shape)] := rfl
  rw [shape]
  exact @Shape.Edited.member _ _ _ _ _ _ [] [] _ _ _ (.head _)
    (@Shape.Edited.item _ _ _ [] [] _ _ _ inner)

theorem hasText_thresholdText :
    (avoidanceDocument [thresholdMember, ("enabled", .truth true)]).HasText thresholdText :=
  Document.hasText_iff.mpr ⟨by cbv, rfl⟩

theorem remark_isValid : remark.IsValid :=
  ⟨"[1e999,\x7b\"by\":\"\\ud800\"\x7d]", Document.hasText_iff.mpr ⟨by cbv, rfl⟩⟩

theorem hasText_remarkedText :
    (Document.ofMembers [("collision_avoidance", .ofMembers
      [thresholdMember, ("note", remark), ("enabled", .truth true)]),
      ("enabled", .truth true)]).HasText remarkedText :=
  Document.hasText_iff.mpr ⟨by cbv, rfl⟩

theorem hasText_switchText : (avoidanceDocument [("enabled", .truth true)]).HasText switchText :=
  Document.hasText_iff.mpr ⟨by cbv, rfl⟩

theorem hasText_doubledText :
    (avoidanceDocument [thresholdMember, ("enabled", .truth true), thresholdMember]).HasText
      doubledText :=
  Document.hasText_iff.mpr ⟨by cbv, rfl⟩

theorem hasText_actionText :
    (actionDocument [("stages", .list [] .closed), numberMember]).HasText actionText :=
  Document.hasText_iff.mpr ⟨by cbv, rfl⟩

theorem hasText_remarkedActionText :
    (actionDocument [("stages", .list [] .closed), ("by", .null), numberMember]).HasText
      remarkedActionText :=
  Document.hasText_iff.mpr ⟨by cbv, rfl⟩

theorem threshold_outlives_remark :
    Configuration.decoder.ofText thresholdText =
        .ok ⟨true, .disabled, .default, ⟨true, 20, .hold⟩⟩
      ∧ Configuration.decoder.ofText remarkedText =
        .ok ⟨true, .disabled, .default, ⟨true, 20, .hold⟩⟩
      ∧ Configuration.decoder.ofText switchText =
        .ok ⟨true, .disabled, .default, ⟨true, 1, .hold⟩⟩
      ∧ Configuration.decoder.ofText doubledText = .error .mismatch
      ∧ Catalog.decoder.ofText actionText = .ok ⟨[.ofStages 7 []]⟩
      ∧ Catalog.decoder.ofText remarkedActionText = .ok ⟨[.ofStages 7 []]⟩ := by
  obtain ⟨_, configurations, catalogs⟩ := texts_withstand_rearrangement
  have threshold : Configuration.decoder.ofText thresholdText =
      .ok ⟨true, .disabled, .default, ⟨true, 20, .hold⟩⟩ := by
    rw [hasText_thresholdText.ofText_eq]
    decide +kernel
  have action : Catalog.decoder.ofText actionText = .ok ⟨[.ofStages 7 []]⟩ := by
    rw [hasText_actionText.ofText_eq]
    decide +kernel
  obtain ⟨document, only, rearranged, deleted, repeated⟩ := configurations _ _ threshold
  obtain rfl := (only _).mp hasText_thresholdText
  obtain ⟨document, only, remarked, _⟩ := catalogs _ _ action
  obtain rfl := (only _).mp hasText_actionText
  refine ⟨threshold, ?_, ?_, ?_, action, ?_⟩
  · have inserted : Configuration.form.Rearranged
        (avoidanceDocument [thresholdMember, ("enabled", .truth true)])
        (avoidanceDocument [thresholdMember, ("note", remark), ("enabled", .truth true)]) :=
      Or.inr ⟨"note", _, avoidanceDocument_edited
        (.here (@Edit.Changes.insertion _ _ _ _ [_] [_] (by decide) remark_isValid))⟩
    exact (rearranged _ ((Relation.ReflTransGen.single inserted).tail
      (Or.inl (.here (.swap _ _ _))))).2 _ hasText_remarkedText
  · exact (deleted "distance_threshold_m" _ _ (avoidanceDocument_edited
      (.here (@Edit.Changes.deletion _ _ _ _ [] _ (by decide) (by decide))))).2 _
        hasText_switchText
  · exact (repeated "distance_threshold_m" _ _ (avoidanceDocument_edited
      (.here (.repetition (by decide) List.mem_cons_self)))).2 _ hasText_doubledText
  · have inserted : Catalog.form.Rearranged
        (actionDocument [("stages", .list [] .closed), numberMember])
        (actionDocument [("stages", .list [] .closed), ("by", .null), numberMember]) :=
      Or.inr ⟨"by", _, actionDocument_edited
        (.here (@Edit.Changes.insertion _ _ _ _ [_] [_] (by decide)
          Document.Phrase.HasText.null.isValid))⟩
    exact (remarked _ (.single inserted)).2 _ hasText_remarkedActionText

end FlightGuard
