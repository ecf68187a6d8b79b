import FlightGuard.Configuration.Provision
import FlightGuard.Proofs.Document.Records
import FlightGuard.Proofs.Watch.Phases

/-!
# Protection has to be given in writing

A file switches protection on only by a text that gives every switch of a mode, and only if that
text is in order from its first character to its last.  Any other file leaves a configuration that
protects nothing, and a watch over such a configuration sends nothing, whatever the vehicle does
and whatever is seen around it.

What a text gives is said of its document: a member of an object, or an item at the place of a
field (`Document.given?`).
-/

namespace FlightGuard

open Decoder

/-! ## What a document gives -/

namespace Document

/-- The document is a word, as a text or as the one key of an object with nothing behind it. -/
def Spells (document : Document) (word : String) : Prop :=
  document = ofString word ∨ document = .object [(ofString word, .null)] .closed

/-- The field with a name is given as true. -/
def SwitchesOn {Record : Type} (fields : List (RecordField Record)) (name : String)
    (document : Document) : Prop :=
  document.given? fields name = some (.truth true)

/-- The protection of landings is given as switched on. -/
def ArmsLanding (document : Document) : Prop :=
  document.SwitchesOn Configuration.fields "enabled"
    ∧ (∃ mode, document.given? Configuration.fields "mode" = some mode
        ∧ mode.Spells "SAFE_LANDING")
    ∧ ∃ policy, document.given? Configuration.fields "safe_landing" = some policy
        ∧ policy.SwitchesOn LandingPolicy.fields "enabled"

/-- The protection from obstacles is given as switched on. -/
def ArmsAvoidance (document : Document) : Prop :=
  document.SwitchesOn Configuration.fields "enabled"
    ∧ (∃ mode, document.given? Configuration.fields "mode" = some mode
        ∧ mode.Spells "SIMPLE_COLLISION_AVOIDANCE")
    ∧ ∃ policy, document.given? Configuration.fields "collision_avoidance" = some policy
        ∧ policy.SwitchesOn AvoidancePolicy.fields "enabled"

end Document

namespace Decoder

theorem truth_eq_ok_iff {document : Document} {value : Bool} :
    truth document = .ok value ↔ document = .truth value := by
  constructor
  · intro decoded
    cases document with
    | truth given => exact congrArg Document.truth (Except.ok.inj decoded)
    | null | number _ | text _ | list _ _ | object _ _ | broken _ _ _ => cases decoded
  · rintro rfl
    rfl

theorem text_eq_ok {document : Document} {value : String}
    (decoded : text document = .ok value) : document = .ofString value := by
  cases document with
  | text content => exact congrArg Document.text decoded
  | null | truth _ | number _ | list _ _ | object _ _ | broken _ _ _ => cases decoded

theorem nothing_eq_ok {document : Document} {value : Unit}
    (decoded : nothing document = .ok value) : document = .null := by
  cases document with
  | null => rfl
  | truth _ | number _ | text _ | list _ _ | object _ _ | broken _ _ _ => cases decoded

/-- A choice is made by a document that spells a word, and by nothing else. -/
theorem choice_eq_ok_iff {Value : Type} {names : List (String × Value)}
    {fallback : Option Value} {document : Document} {value : Value} :
    choice names fallback document = .ok value ↔
      ∃ word, document.Spells word ∧ choose names fallback word = .ok value := by
  constructor
  · intro decoded
    cases document with
    | text content =>
        obtain ⟨word, rfl, chosen⟩ := bind_eq_ok.mp decoded
        exact ⟨word, Or.inl rfl, chosen⟩
    | object members ending =>
        cases members with
        | nil => cases ending <;> cases decoded
        | cons member members =>
            rcases member with ⟨key, given⟩
            obtain ⟨word, named, rest⟩ := bind_eq_ok.mp decoded
            obtain ⟨choice, chosen, valued⟩ := bind_eq_ok.mp rest
            obtain ⟨_, empty, finished⟩ := bind_eq_ok.mp valued
            obtain rfl := text_eq_ok named
            obtain rfl := nothing_eq_ok empty
            cases members with
            | cons other members => cases finished
            | nil =>
                obtain ⟨_, closed, same⟩ := bind_eq_ok.mp finished
                cases ending with
                | cut fault => cases closed
                | closed => exact ⟨word, Or.inr rfl, chosen.trans same⟩
    | broken part kept skipped => cases part <;> cases decoded
    | null | truth _ | number _ | list _ _ => cases decoded
  · rintro ⟨word, rfl | rfl, chosen⟩
    · exact chosen
    · exact bind_eq_ok.mpr ⟨word, rfl, bind_eq_ok.mpr ⟨value, chosen, rfl⟩⟩

variable {Record : Type} {fields : List (RecordField Record)}

/-- A switch that is off by default is on if it is given as on. -/
theorem switchesOn_iff {name : String} {switch : Record → Bool} {defaults result : Record}
    {document : Document} (distinct : (fields.map RecordField.name).Nodup)
    (fit : ∀ field ∈ fields, field.Fits name truth switch)
    (decoded : record fields defaults document = .ok result) (off : switch defaults = false) :
    document.SwitchesOn fields name ↔ switch result = true := by
  rw [Document.SwitchesOn]
  rcases part_of_record distinct fit decoded with ⟨given, found, read⟩ | ⟨absent, kept⟩
  · rw [found, truth_eq_ok_iff.mp read]
    cases switch result <;> simp
  · rw [absent, kept, off]
    simp

end Decoder

/-! ## Switches of a configuration -/

namespace Mode

/-- Every mode but the disabled one has to be spelled; any other word disables. -/
theorem decoder_eq_ok_iff {document : Document} {mode : Mode} (active : mode ≠ .disabled) :
    decoder document = .ok mode ↔ document.Spells mode.word := by
  rw [decoder, choice_eq_ok_iff]
  constructor
  · rintro ⟨word, spelled, chosen⟩
    have found : names.lookup word = some mode := by
      rw [choose] at chosen
      cases known : names.lookup word with
      | some named =>
          rw [known] at chosen
          exact congrArg some (Except.ok.inj chosen)
      | none =>
          rw [known] at chosen
          exact absurd (Except.ok.inj chosen).symm active
    obtain ⟨before, after, listed, _⟩ := List.lookup_eq_some_iff.mp found
    have named : ∀ entry ∈ names, entry.1 = entry.2.word := by decide
    have spelling : word = mode.word := named (word, mode) (by simp [listed])
    exact spelling ▸ spelled
  · intro spelled
    exact ⟨mode.word, spelled, by cases mode <;> rfl⟩

end Mode

theorem LandingPolicy.switchesOn_iff {document : Document} {policy : LandingPolicy}
    (decoded : LandingPolicy.decoder document = .ok policy) :
    document.SwitchesOn LandingPolicy.fields "enabled" ↔ policy.enabled = true := by
  have fit : ∀ field ∈ LandingPolicy.fields, field.Fits "enabled" truth LandingPolicy.enabled := by
    simp only [LandingPolicy.fields, List.forall_mem_cons]
    exact ⟨RecordField.fits_of_put fun _ _ => rfl,
      RecordField.fits_of_ne (by decide) fun _ _ => rfl,
      RecordField.fits_of_ne (by decide) fun _ _ => rfl,
      RecordField.fits_of_ne (by decide) fun _ _ => rfl,
      RecordField.fits_of_ne (by decide) fun _ _ => rfl, List.forall_mem_nil _⟩
  exact Decoder.switchesOn_iff (by decide) fit decoded rfl

theorem AvoidancePolicy.switchesOn_iff {document : Document} {policy : AvoidancePolicy}
    (decoded : AvoidancePolicy.decoder document = .ok policy) :
    document.SwitchesOn AvoidancePolicy.fields "enabled" ↔ policy.enabled = true := by
  have fit : ∀ field ∈ AvoidancePolicy.fields,
      field.Fits "enabled" truth AvoidancePolicy.enabled := by
    simp only [AvoidancePolicy.fields, List.forall_mem_cons]
    exact ⟨RecordField.fits_of_put fun _ _ => rfl,
      RecordField.fits_of_ne (by decide) fun _ _ => rfl,
      RecordField.fits_of_ne (by decide) fun _ _ => rfl, List.forall_mem_nil _⟩
  exact Decoder.switchesOn_iff (by decide) fit decoded rfl

namespace Configuration

theorem names_nodup : (fields.map RecordField.name).Nodup := by
  decide

theorem fields_fit_enabled : ∀ field ∈ fields, field.Fits "enabled" truth enabled := by
  simp only [fields, List.forall_mem_cons]
  exact ⟨RecordField.fits_of_put fun _ _ => rfl,
    RecordField.fits_of_ne (by decide) fun _ _ => rfl,
    RecordField.fits_of_ne (by decide) fun _ _ => rfl,
    RecordField.fits_of_ne (by decide) fun _ _ => rfl, List.forall_mem_nil _⟩

theorem fields_fit_mode : ∀ field ∈ fields, field.Fits "mode" Mode.decoder mode := by
  simp only [fields, List.forall_mem_cons]
  exact ⟨RecordField.fits_of_ne (by decide) fun _ _ => rfl,
    RecordField.fits_of_put fun _ _ => rfl,
    RecordField.fits_of_ne (by decide) fun _ _ => rfl,
    RecordField.fits_of_ne (by decide) fun _ _ => rfl, List.forall_mem_nil _⟩

theorem fields_fit_landing :
    ∀ field ∈ fields, field.Fits "safe_landing" LandingPolicy.decoder landing := by
  simp only [fields, List.forall_mem_cons]
  exact ⟨RecordField.fits_of_ne (by decide) fun _ _ => rfl,
    RecordField.fits_of_ne (by decide) fun _ _ => rfl,
    RecordField.fits_of_put fun _ _ => rfl,
    RecordField.fits_of_ne (by decide) fun _ _ => rfl, List.forall_mem_nil _⟩

theorem fields_fit_avoidance :
    ∀ field ∈ fields, field.Fits "collision_avoidance" AvoidancePolicy.decoder avoidance := by
  simp only [fields, List.forall_mem_cons]
  exact ⟨RecordField.fits_of_ne (by decide) fun _ _ => rfl,
    RecordField.fits_of_ne (by decide) fun _ _ => rfl,
    RecordField.fits_of_ne (by decide) fun _ _ => rfl,
    RecordField.fits_of_put fun _ _ => rfl, List.forall_mem_nil _⟩

variable {document : Document} {configuration : Configuration}

theorem switchesOn_iff (decoded : decoder document = .ok configuration) :
    document.SwitchesOn fields "enabled" ↔ configuration.enabled = true :=
  Decoder.switchesOn_iff names_nodup fields_fit_enabled decoded rfl

/-- Any mode but the disabled one has been given. -/
theorem mode_eq_iff (decoded : decoder document = .ok configuration) {mode : Mode}
    (active : mode ≠ .disabled) :
    configuration.mode = mode ↔
      ∃ given, document.given? fields "mode" = some given ∧ given.Spells mode.word := by
  rcases part_of_record names_nodup fields_fit_mode decoded with
    ⟨given, found, read⟩ | ⟨absent, kept⟩
  · simp only [found, Option.some.injEq, exists_eq_left', ← Mode.decoder_eq_ok_iff active, read,
      Except.ok.injEq]
  · rw [absent, kept]
    simpa [default] using active.symm

/-- The landing policy is switched on if it has been given as switched on. -/
theorem landing_enabled_iff (decoded : decoder document = .ok configuration) :
    configuration.landing.enabled = true ↔
      ∃ policy, document.given? fields "safe_landing" = some policy
        ∧ policy.SwitchesOn LandingPolicy.fields "enabled" := by
  rcases part_of_record names_nodup fields_fit_landing decoded with
    ⟨given, found, read⟩ | ⟨absent, kept⟩
  · simp only [found, Option.some.injEq, exists_eq_left', LandingPolicy.switchesOn_iff read]
  · rw [absent, kept]
    simp [default, LandingPolicy.default]

theorem avoidance_enabled_iff (decoded : decoder document = .ok configuration) :
    configuration.avoidance.enabled = true ↔
      ∃ policy, document.given? fields "collision_avoidance" = some policy
        ∧ policy.SwitchesOn AvoidancePolicy.fields "enabled" := by
  rcases part_of_record names_nodup fields_fit_avoidance decoded with
    ⟨given, found, read⟩ | ⟨absent, kept⟩
  · simp only [found, Option.some.injEq, exists_eq_left', AvoidancePolicy.switchesOn_iff read]
  · rw [absent, kept]
    simp [default, AvoidancePolicy.default]

/-- Landing protection is on if it has been given in writing. -/
theorem armsLanding_iff (decoded : decoder document = .ok configuration) :
    document.ArmsLanding ↔
      configuration.enabled = true ∧ configuration.mode = .safeLanding
        ∧ configuration.landing.enabled = true := by
  rw [Document.ArmsLanding, switchesOn_iff decoded, landing_enabled_iff decoded,
    mode_eq_iff decoded (by decide)]
  rfl

/-- Obstacle protection is on if it has been given in writing. -/
theorem armsAvoidance_iff (decoded : decoder document = .ok configuration) :
    document.ArmsAvoidance ↔
      configuration.enabled = true ∧ configuration.mode = .collisionAvoidance
        ∧ configuration.avoidance.enabled = true := by
  rw [Document.ArmsAvoidance, switchesOn_iff decoded, avoidance_enabled_iff decoded,
    mode_eq_iff decoded (by decide)]
  rfl

end Configuration

/-! ## Faults -/

theorem waypointDecoder_isThorough : waypointDecoder.IsThorough := by
  refine record_isThorough ?_ _
  simp only [waypointFields, List.forall_mem_cons]
  exact ⟨withDefault_isThorough double_isThorough, withDefault_isThorough double_isThorough,
    withDefault_isThorough double_isThorough, List.forall_mem_nil _⟩

theorem BodyOffset.decoder_isThorough : BodyOffset.decoder.IsThorough := by
  refine record_isThorough ?_ _
  simp only [BodyOffset.fields, List.forall_mem_cons]
  exact ⟨withDefault_isThorough double_isThorough, withDefault_isThorough double_isThorough,
    withDefault_isThorough double_isThorough, List.forall_mem_nil _⟩

theorem LandingPolicy.decoder_isThorough : LandingPolicy.decoder.IsThorough := by
  refine record_isThorough ?_ _
  simp only [LandingPolicy.fields, List.forall_mem_cons]
  exact ⟨withDefault_isThorough truth_isThorough,
    withDefault_isThorough (choice_isThorough _ _),
    withDefault_isThorough truth_isThorough,
    withDefault_isThorough waypointDecoder_isThorough,
    withDefault_isThorough BodyOffset.decoder_isThorough, List.forall_mem_nil _⟩

theorem AvoidancePolicy.decoder_isThorough : AvoidancePolicy.decoder.IsThorough := by
  refine record_isThorough ?_ _
  simp only [AvoidancePolicy.fields, List.forall_mem_cons]
  exact ⟨withDefault_isThorough truth_isThorough, withDefault_isThorough single_isThorough,
    withDefault_isThorough (choice_isThorough _ _), List.forall_mem_nil _⟩

/-- A configuration is only read from a document that is in order throughout. -/
theorem Configuration.decoder_isThorough : Configuration.decoder.IsThorough := by
  refine record_isThorough ?_ _
  simp only [Configuration.fields, List.forall_mem_cons]
  exact ⟨withDefault_isThorough truth_isThorough,
    withDefault_isThorough (choice_isThorough _ _),
    withDefault_isThorough LandingPolicy.decoder_isThorough,
    withDefault_isThorough AvoidancePolicy.decoder_isThorough, List.forall_mem_nil _⟩

/-! ## Files -/

/-- The file is a text that gives a whole configuration, by a document of a kind. -/
def StoredFile.Gives (file : StoredFile) (kind : Document → Prop) : Prop :=
  ∃ text configuration, file.readText = .ok text
    ∧ Configuration.decoder.ofText text = .ok configuration
    ∧ kind (Reading.ofText text).document

namespace Configuration

/-- What a file provisions is what its whole text gives, or the default. -/
theorem provision_cases (file : StoredFile) (path : String) :
    (∃ text, file.readText = .ok text
        ∧ decoder.ofText text = .ok (provision file path))
      ∨ ((∀ text configuration, file.readText = .ok text →
            decoder.ofText text ≠ .ok configuration)
          ∧ provision file path = .default) := by
  cases given : file.readText with
  | error failure =>
      refine Or.inr ⟨?_, ?_⟩
      · intro text configuration same
        cases same
      · simp only [provision, StoredFile.load, given]
  | ok text =>
      cases read : decoder.ofText text with
      | ok configuration =>
          refine Or.inl ⟨text, rfl, ?_⟩
          simp only [provision, StoredFile.load, given, read]
      | error fault =>
          refine Or.inr ⟨?_, ?_⟩
          · intro other configuration same decoded
            cases same
            rw [read] at decoded
            cases decoded
          · simp only [provision, StoredFile.load, given, read]

/-- What is off by default is on in the provisioned configuration if the file gives it so. -/
theorem gives_iff {kind : Document → Prop} (armed : Configuration → Prop)
    (written : ∀ document configuration, decoder document = .ok configuration →
      (kind document ↔ armed configuration))
    (off : ¬ armed default) (file : StoredFile) (path : String) :
    file.Gives kind ↔ armed (provision file path) := by
  rcases provision_cases file path with ⟨text, given, read⟩ | ⟨nothing, kept⟩
  · have decoded := (ofText_eq_ok_iff.mp read).1
    rw [← written _ _ decoded, StoredFile.Gives]
    constructor
    · rintro ⟨other, _, same, _, found⟩
      rw [given] at same
      cases same
      exact found
    · exact fun found => ⟨text, _, given, read, found⟩
  · rw [kept]
    refine iff_of_false ?_ off
    rintro ⟨text, configuration, given, read, _⟩
    exact nothing text configuration given read

theorem gives_armsLanding_iff (file : StoredFile) (path : String) :
    file.Gives Document.ArmsLanding ↔
      let configuration := provision file path
      configuration.enabled = true ∧ configuration.mode = .safeLanding
        ∧ configuration.landing.enabled = true :=
  gives_iff
    (fun configuration => configuration.enabled = true ∧ configuration.mode = .safeLanding
      ∧ configuration.landing.enabled = true)
    (fun _ _ => armsLanding_iff) (fun armed => Bool.noConfusion armed.1) file path

theorem gives_armsAvoidance_iff (file : StoredFile) (path : String) :
    file.Gives Document.ArmsAvoidance ↔
      let configuration := provision file path
      configuration.enabled = true ∧ configuration.mode = .collisionAvoidance
        ∧ configuration.avoidance.enabled = true :=
  gives_iff
    (fun configuration => configuration.enabled = true ∧ configuration.mode = .collisionAvoidance
      ∧ configuration.avoidance.enabled = true)
    (fun _ _ => armsAvoidance_iff) (fun armed => Bool.noConfusion armed.1) file path

end Configuration

/-! ## The watch over a configuration that protects nothing -/

namespace Tick

/-- Where no protection is on, a tick sends nothing, whatever earlier ticks have left behind. -/
theorem signals_of_unguarded {tick : Tick} (landing : ¬ tick.situation.GuardsLanding)
    (flight : ¬ tick.situation.GuardsFlight) : tick.signals = [] := by
  have calm : ¬ tick.situation.IsEligible := by
    rintro (⟨guards, _⟩ | ⟨guards, _⟩)
    · exact landing guards
    · exact flight guards
  exact (calm_of_not_eligible calm).1.silent fun retries => landing retries.1

end Tick

namespace Watch

/-- The news of these events leave the configuration as it is. -/
def KeepsConfiguration (events : List (Link × Event)) : Prop :=
  ∀ value, .configuration value ∉ newsOf events

theorem configuration_run {watch : Watch} {events : List (Link × Event)}
    (keeps : KeepsConfiguration events) :
    (watch.run events).1.feeds.configuration = watch.feeds.configuration := by
  rw [feeds_run]
  refine Feeds.foldl_update_eq Feeds.configuration ?_ watch.feeds
  intro feed member feeds
  cases feed with
  | configuration value => exact absurd member (keeps value)
  | telemetry _ | landing _ | noLandingData | obstacle _ | time _ => rfl

theorem run_sent_of_unguarded {configuration : Configuration} {events : List (Link × Event)}
    (landing : ¬ (configuration.enabled = true ∧ configuration.mode = .safeLanding
      ∧ configuration.landing.enabled = true))
    (flight : ¬ (configuration.enabled = true ∧ configuration.mode = .collisionAvoidance
      ∧ configuration.avoidance.enabled = true))
    (keeps : KeepsConfiguration events) : ((initial configuration).run events).2 = [] := by
  rw [run_sent, List.flatMap_eq_nil_iff]
  intro tick member
  obtain ⟨past, link, now, later, rfl, rfl⟩ := mem_ticks_iff.mp member
  have before : KeepsConfiguration past := by
    intro value changed
    refine keeps value ?_
    rw [newsOf, List.filterMap_append]
    exact List.mem_append_left _ changed
  have seen : (((initial configuration).run past).1.tickAt link now).situation.configuration =
      configuration :=
    configuration_run before
  have silent : (((initial configuration).run past).1.tickAt link now).signals = [] := by
    refine Tick.signals_of_unguarded ?_ ?_
    · rw [Situation.GuardsLanding, seen]
      exact landing
    · rw [Situation.GuardsFlight, seen]
      exact flight
  rw [silent]
  rfl

/--
A file is taken as a whole or not at all, and a fault anywhere in its text leaves the default
configuration.  Protection is on if it is given as switched on, and only then.  Without that the
watch sends nothing until it is given another configuration.
-/
theorem provision_fails_safe (file : StoredFile) (path : String) :
    let configuration := Configuration.provision file path
    ((∃ text, file.readText = .ok text
          ∧ Configuration.decoder.ofText text = .ok configuration)
        ∨ configuration = .default)
      ∧ (∀ text fault, file.readText = .ok text →
          ofText Document.skip text = .error fault
            ∨ Configuration.decoder.ofText text = .error fault →
          configuration = .default)
      ∧ (file.Gives Document.ArmsLanding ↔
          configuration.enabled = true ∧ configuration.mode = .safeLanding
            ∧ configuration.landing.enabled = true)
      ∧ (file.Gives Document.ArmsAvoidance ↔
          configuration.enabled = true ∧ configuration.mode = .collisionAvoidance
            ∧ configuration.avoidance.enabled = true)
      ∧ (¬ file.Gives Document.ArmsLanding → ¬ file.Gives Document.ArmsAvoidance →
          ∀ events, KeepsConfiguration events →
            ((initial configuration).run events).2 = []) := by
  intro configuration
  have whole := Configuration.provision_cases file path
  have landing := Configuration.gives_armsLanding_iff file path
  have avoidance := Configuration.gives_armsAvoidance_iff file path
  refine ⟨whole.imp_right And.right, ?_, landing, avoidance, ?_⟩
  · intro text fault given faulty
    rcases whole with ⟨other, same, read⟩ | ⟨_, kept⟩
    · rw [given] at same
      cases same
      rcases faulty with broken | refused
      · obtain ⟨decoded, ended⟩ := ofText_eq_ok_iff.mp read
        have sound : ofText Document.skip text = .ok () :=
          ofText_eq_ok_iff.mpr ⟨Configuration.decoder_isThorough _ _ decoded, ended⟩
        rw [sound] at broken
        cases broken
      · rw [refused] at read
        cases read
    · exact kept
  · intro noLanding noFlight events keeps
    exact run_sent_of_unguarded (noLanding ∘ landing.mpr) (noFlight ∘ avoidance.mpr) keeps

/-- A text that chooses the mode for landings, but leaves the switch of its policy out. -/
def switchlessText : String :=
  "\x7b\"enabled\":true,\"mode\":\"SAFE_LANDING\","
    ++ "\"safe_landing\":\x7b\"on_no_safe_land\":\"RTL\"\x7d\x7d"

/-- A text that switches the protection from obstacles on, and breaks off before its end. -/
def unendedText : String :=
  "[true,\"SIMPLE_COLLISION_AVOIDANCE\",[],[true]"

theorem decoded_switchlessText :
    Configuration.decoder.ofText switchlessText =
      .ok ⟨true, .safeLanding, ⟨false, .returnToLaunch, false, .zero, .zero⟩, .default⟩ := by
  have reading : Reading.ofText switchlessText =
      ⟨.ofMembers
        [("enabled", .truth true), ("mode", .ofString "SAFE_LANDING"),
         ("safe_landing", .ofMembers [("on_no_safe_land", .ofString "RTL")])], false⟩ := by
    cbv
  rw [ofText_eq_ok_iff, reading]
  exact ⟨rfl, rfl⟩

theorem skipped_unendedText : ofText Document.skip unendedText = .error .truncated := by
  have reading : Reading.ofText unendedText =
      ⟨.list
        [.truth true, .ofString "SIMPLE_COLLISION_AVOIDANCE", .list [] .closed,
          .list [.truth true] .closed] (.cut .truncated), false⟩ := by
    cbv
  rw [ofText, reading]
  rfl

/-- Over the first text a landing where the vehicle cannot land goes on without a reaction. -/
theorem nothing_sent_over_switchlessText :
    let file := StoredFile.content switchlessText.toUTF8
    let unended := StoredFile.content unendedText.toUTF8
    let landing : List (Link × Event) :=
      [.feed (.telemetry (.phase .landing)), .feed (.landing .cannotLand), .tick 0].map
        fun event => (.accepting, event)
    ¬ file.Gives Document.ArmsLanding
      ∧ ¬ file.Gives Document.ArmsAvoidance
      ∧ KeepsConfiguration landing
      ∧ ((initial (Configuration.provision file "")).run landing).2 = []
      ∧ Configuration.provision unended "" = .default := by
  intro file unended landing
  have provisioned : Configuration.provision file "" =
      ⟨true, .safeLanding, ⟨false, .returnToLaunch, false, .zero, .zero⟩, .default⟩ := by
    simp only [Configuration.provision, StoredFile.load, file, StoredFile.readText_toUTF8,
      decoded_switchlessText]
  have noLanding : ¬ file.Gives Document.ArmsLanding := by
    rw [Configuration.gives_armsLanding_iff file "", provisioned]
    decide
  have noFlight : ¬ file.Gives Document.ArmsAvoidance := by
    rw [Configuration.gives_armsAvoidance_iff file "", provisioned]
    decide
  have keeps : KeepsConfiguration landing := by
    intro value
    simp [landing, newsOf, Event.news?]
  exact ⟨noLanding, noFlight, keeps,
    (provision_fails_safe file "").2.2.2.2 noLanding noFlight landing keeps,
    (provision_fails_safe unended "").2.1 unendedText .truncated
      (StoredFile.readText_toUTF8 unendedText) (Or.inl skipped_unendedText)⟩

end Watch

end FlightGuard
