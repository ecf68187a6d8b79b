import FlightGuard.Configuration.Form
import FlightGuard.Number.Rounding
import FlightGuard.Proofs.Document.Contents
import FlightGuard.Proofs.Document.Records
import Mathlib.Data.List.Nodup

/-!
# Writing and reading a configuration

A configuration is read back from its own text exactly if all its numbers are finite.  The text of
another one has `null` where a number is not finite, and is refused as a mismatch.  How numbers are
written and how numerals are read is left open here; all that is asked of the two is that the text
of each finite number in the configuration is read back as the same number.

An object that has all fields of a record in their order is read like the list of its values, so
the parts of a configuration follow each other: `ReadsAs` goes from the numbers over the policies up
to the whole configuration.
-/

namespace FlightGuard

open Decoder

section

variable [NumberReading] {writing : NumberWriting}

/-! ## Records from their own members -/

section

variable {Record Value : Type}

omit [NumberReading] in
theorem fillMembers_cons_of_new {fields : List (RecordField Record)} {ending : Ending}
    {field : RecordField Record} {seen : List String} {name : String}
    (known : fields.find? (·.name == name) = some field) (new : seen.contains name = false)
    (record : Record) (document : Document) (members : List (Document × Document)) :
    fillMembers fields ending seen record ((.ofString name, document) :: members) =
      field.read document record >>= (fillMembers fields ending (name :: seen) · members) := by
  rw [fillMembers, Document.ofString, Document.keyName]
  simp only [bind, Except.bind, known, new, Bool.false_eq_true, if_false]

omit [NumberReading] in
/-- The fields in front have been given, and those behind are given one after another. -/
theorem fillMembers_documents {fields front back : List (RecordField Record)}
    (distinct : (fields.map RecordField.name).Nodup) (whole : fields = front ++ back)
    (record : Record) {members : List (String × Content)}
    (named : members.map Prod.fst = back.map RecordField.name) :
    fillMembers fields .closed (front.map RecordField.name).reverse record
        (Content.documents writing members) =
      readEntries record (back.zip (members.map (·.2.document writing))) := by
  induction back generalizing front record members with
  | nil =>
      obtain rfl : members = [] := List.map_eq_nil_iff.mp named
      have complete : fields.all (fun field => !field.required
          || (front.map RecordField.name).reverse.contains field.name) = true := by
        rw [List.append_nil] at whole
        rw [whole, List.all_eq_true]
        intro field member
        simp [List.mem_map_of_mem member]
      change (if _ then _ else _) = _
      rw [if_pos complete]
      rfl
  | cons field back induction =>
      obtain ⟨⟨name, content⟩, members, rfl, same, others⟩ := List.map_eq_cons_iff.mp named
      obtain rfl : name = field.name := same
      have new : field.name ∉ front.map RecordField.name := by
        rw [whole, List.map_append] at distinct
        exact fun old => distinct.disjoint old List.mem_cons_self
      have unseen : (front.map RecordField.name).reverse.contains field.name = false := by
        simpa using new
      have known : fields.find? (·.name == field.name) = some field := by
        refine find?_eq_some_of_mem distinct ?_
        rw [whole]
        exact List.mem_append_right _ List.mem_cons_self
      have rest : ∀ record, fillMembers fields .closed
          (field.name :: (front.map RecordField.name).reverse) record
            (Content.documents writing members) =
          readEntries record (back.zip (members.map (·.2.document writing))) := by
        intro record
        have moved : fields = (front ++ [field]) ++ back := by
          rw [whole, List.append_assoc]
          rfl
        have later := induction moved record others
        rwa [List.map_append, List.reverse_append] at later
      rw [List.map_cons, List.zip_cons_cons, readEntries_cons, Content.documents,
        fillMembers_cons_of_new known unseen]
      exact congrArg (field.read (content.document writing) record >>= ·) (funext rest)

namespace Decoder

/-- The document is read as the value if it is sound, and is a mismatch otherwise. -/
def ReadsAs (decoder : Decoder Value) (document : Document) (value : Value) (sound : Bool) : Prop :=
  decoder document = if sound then .ok value else .error .mismatch

omit [NumberReading] in
/-- An entry that is read puts its value into the record, and the next entries follow. -/
theorem ReadsAs.readEntries_cons {decoder : Decoder Value} {document : Document} {value : Value}
    {sound : Bool} (reads : decoder.ReadsAs document value sound) (name : String)
    (put : Record → Value → Record) (record : Record)
    (entries : List (RecordField Record × Document)) :
    readEntries record ((.withDefault name decoder put, document) :: entries) =
      if sound then readEntries (put record value) entries else .error .mismatch := by
  change (decoder document).map (put record) >>= _ = _
  rw [reads]
  cases sound <;> rfl

/-- An object with all fields in their order is read like the list of its values. -/
theorem record_readsAs {fields : List (RecordField Record)} {defaults value : Record}
    {members : List (String × Content)} {sound : Bool}
    (distinct : (fields.map RecordField.name).Nodup)
    (named : members.map Prod.fst = fields.map RecordField.name)
    (read : readEntries defaults (fields.zip (members.map (·.2.document writing))) =
      if sound then .ok value else .error .mismatch) :
    (record fields defaults).ReadsAs ((Content.record members).document writing) value sound := by
  rw [ReadsAs, ← read]
  exact fillMembers_documents distinct (List.nil_append fields).symm defaults named

end Decoder

end

/-! ## Scalars -/

theorem truth_readsAs (value : Bool) :
    truth.ReadsAs ((Content.truth value).document writing) value true := rfl

theorem number_readsAs {Value : Type} {read : Numeral → Value} {value : Value} {part : Number}
    (given : ∀ document, part.IsReadFrom document → number read document = .ok value)
    (kept : (Content.number part).IsKept writing) :
    (number read).ReadsAs ((Content.number part).document writing) value part.isFinite := by
  change number read (part.document writing) = _
  cases finite : part.isFinite with
  | true =>
      obtain ⟨numeral, same, reads, _⟩ := Number.document_of_isKept finite (kept.of_number finite)
      rw [same]
      exact given _ reads
  | false =>
      rw [Number.document_of_endless finite]
      rfl

theorem double_readsAs {value : Float} (kept : (Content.double value).IsKept writing) :
    double.ReadsAs ((Content.double value).document writing) value value.isFinite :=
  number_readsAs (fun _ given => given) kept

theorem single_readsAs {value : Float32} (kept : (Content.single value).IsKept writing) :
    single.ReadsAs ((Content.single value).document writing) value value.isFinite :=
  number_readsAs (fun _ given => given) kept

/-- Also a word that stands for all unknown ones is read as what it was written for. -/
theorem Mode.decoder_readsAs (mode : Mode) :
    Mode.decoder.ReadsAs ((Content.word mode.word).document writing) mode true := by
  cases mode <;> rfl

theorem Reaction.decoder_readsAs (reaction : Reaction) :
    Reaction.decoder.ReadsAs ((Content.word reaction.word).document writing) reaction true := by
  cases reaction <;> rfl

/-! ## Policies -/

theorem waypointDecoder_readsAs {position : GlobalPosition}
    (kept : (waypointContent position).IsKept writing) :
    waypointDecoder.ReadsAs ((waypointContent position).document writing) position
      position.isFinite := by
  have each := kept.of_record
  simp only [List.forall_mem_cons] at each
  obtain ⟨latitude, longitude, altitude, _⟩ := each
  refine record_readsAs (by simp [waypointFields, RecordField.withDefault]) rfl ?_
  simp only [waypointFields, List.map_cons, List.zip_cons_cons,
    (double_readsAs latitude).readEntries_cons, (double_readsAs longitude).readEntries_cons,
    (double_readsAs altitude).readEntries_cons, GlobalPosition.isFinite, Bool.and_eq_true, ite_and]
  rfl

theorem BodyOffset.decoder_readsAs {offset : BodyOffset} (kept : offset.content.IsKept writing) :
    BodyOffset.decoder.ReadsAs (offset.content.document writing) offset
      (offset.forward.isFinite && offset.right.isFinite && offset.up.isFinite) := by
  have each := kept.of_record
  simp only [List.forall_mem_cons] at each
  obtain ⟨forward, right, up, _⟩ := each
  refine record_readsAs (by simp [fields, RecordField.withDefault]) rfl ?_
  simp only [BodyOffset.fields, List.map_cons, List.zip_cons_cons,
    (double_readsAs forward).readEntries_cons, (double_readsAs right).readEntries_cons,
    (double_readsAs up).readEntries_cons, Bool.and_eq_true, ite_and]
  rfl

theorem LandingPolicy.decoder_readsAs {policy : LandingPolicy}
    (kept : policy.content.IsKept writing) :
    LandingPolicy.decoder.ReadsAs (policy.content.document writing) policy
      (policy.waypoint.isFinite
        && (policy.offset.forward.isFinite && policy.offset.right.isFinite
          && policy.offset.up.isFinite)) := by
  have each := kept.of_record
  simp only [List.forall_mem_cons] at each
  obtain ⟨_, _, _, waypoint, offset, _⟩ := each
  refine record_readsAs (by simp [fields, RecordField.withDefault]) rfl ?_
  simp only [LandingPolicy.fields, List.map_cons, List.zip_cons_cons,
    (truth_readsAs _).readEntries_cons, (Reaction.decoder_readsAs _).readEntries_cons,
    (waypointDecoder_readsAs waypoint).readEntries_cons,
    (BodyOffset.decoder_readsAs offset).readEntries_cons, if_true, Bool.and_eq_true, ite_and]
  rfl

theorem AvoidancePolicy.decoder_readsAs {policy : AvoidancePolicy}
    (kept : policy.content.IsKept writing) :
    AvoidancePolicy.decoder.ReadsAs (policy.content.document writing) policy
      policy.threshold.isFinite := by
  have each := kept.of_record
  simp only [List.forall_mem_cons] at each
  obtain ⟨_, threshold, _⟩ := each
  refine record_readsAs (by simp [fields, RecordField.withDefault]) rfl ?_
  simp only [AvoidancePolicy.fields, List.map_cons, List.zip_cons_cons,
    (truth_readsAs _).readEntries_cons, (single_readsAs threshold).readEntries_cons,
    (Reaction.decoder_readsAs _).readEntries_cons, if_true]
  rfl

/-! ## Configurations -/

/-- What stands in a document at the end of a path of names. -/
def Document.at? : (path : List String) → Document → Option Document
  | [], document => some document
  | name :: path, .object members _ =>
      (members.find? (·.1.keyName.toOption == some name)).bind (·.2.at? path)
  | _ :: _, _ => none

namespace Configuration

theorem decoder_readsAs {configuration : Configuration}
    (kept : configuration.content.IsKept writing) :
    decoder.ReadsAs (configuration.content.document writing) configuration
      configuration.isFinite := by
  have each := kept.of_record
  simp only [List.forall_mem_cons] at each
  obtain ⟨_, _, landing, avoidance, _⟩ := each
  refine record_readsAs (by simp [fields, RecordField.withDefault]) rfl ?_
  simp only [fields, List.map_cons, List.zip_cons_cons, (truth_readsAs _).readEntries_cons,
    (Mode.decoder_readsAs _).readEntries_cons,
    (LandingPolicy.decoder_readsAs landing).readEntries_cons,
    (AvoidancePolicy.decoder_readsAs avoidance).readEntries_cons, if_true, isFinite,
    Bool.and_eq_true, ite_and]
  rfl

/-- The seven numbers of a configuration, each with its place in the document. -/
def numbers (configuration : Configuration) : List (List String × Number) :=
  [(["safe_landing", "waypoint", "lat_deg"], .double configuration.landing.waypoint.latitude),
   (["safe_landing", "waypoint", "lon_deg"], .double configuration.landing.waypoint.longitude),
   (["safe_landing", "waypoint", "alt_amsl_m"], .double configuration.landing.waypoint.altitude),
   (["safe_landing", "offset", "x_m"], .double configuration.landing.offset.forward),
   (["safe_landing", "offset", "y_m"], .double configuration.landing.offset.right),
   (["safe_landing", "offset", "z_m"], .double configuration.landing.offset.up),
   (["collision_avoidance", "distance_threshold_m"], .single configuration.avoidance.threshold)]

omit [NumberReading] in
theorem isFinite_iff (configuration : Configuration) :
    configuration.isFinite = true ↔
      ∀ entry ∈ configuration.numbers, entry.2.isFinite = true := by
  simp only [numbers, List.forall_mem_cons, List.not_mem_nil, false_implies, implies_true,
    Number.isFinite, isFinite, GlobalPosition.isFinite, Bool.and_eq_true, and_assoc, and_true]

omit [NumberReading] in
theorem at?_document (configuration : Configuration) (writing : NumberWriting) :
    ∀ entry ∈ configuration.numbers,
      (configuration.content.document writing).at? entry.1 = some (entry.2.document writing) := by
  simp only [numbers, List.forall_mem_cons]
  exact ⟨rfl, rfl, rfl, rfl, rfl, rfl, rfl, List.forall_mem_nil _⟩

/-- A configuration is kept if its seven numbers are. -/
theorem content_isKept {configuration : Configuration}
    (kept : ∀ entry ∈ configuration.numbers,
      entry.2.isFinite = true → entry.2.IsKept writing) :
    configuration.content.IsKept writing := by
  simp only [numbers, List.forall_mem_cons] at kept
  obtain ⟨latitude, longitude, altitude, forward, right, up, threshold, _⟩ := kept
  have waypoint : (waypointContent configuration.landing.waypoint).IsKept writing := by
    refine .record ?_
    simp only [List.forall_mem_cons]
    exact ⟨.number latitude, .number longitude, .number altitude, List.forall_mem_nil _⟩
  have offset : configuration.landing.offset.content.IsKept writing := by
    refine .record ?_
    simp only [List.forall_mem_cons]
    exact ⟨.number forward, .number right, .number up, List.forall_mem_nil _⟩
  have landing : configuration.landing.content.IsKept writing := by
    refine .record ?_
    simp only [List.forall_mem_cons]
    exact ⟨.truth _, .word _, .truth _, waypoint, offset, List.forall_mem_nil _⟩
  have avoidance : configuration.avoidance.content.IsKept writing := by
    refine .record ?_
    simp only [List.forall_mem_cons]
    exact ⟨.truth _, .number threshold, .word _, List.forall_mem_nil _⟩
  refine .record ?_
  simp only [List.forall_mem_cons]
  exact ⟨.truth _, .word _, landing, avoidance, List.forall_mem_nil _⟩

/--
The text of a configuration gives exactly this configuration if its seven numbers are finite, and a
mismatch otherwise.  In the text there is a numeral that is read as the number at the place of a
finite number, and `null` at the place of another one.

The one thing assumed of the numbers is that the text of each finite one is read back as the same
number.
-/
theorem reads_own_text_iff (writing : NumberWriting) (configuration : Configuration)
    (kept : ∀ entry ∈ configuration.numbers,
      entry.2.isFinite = true → entry.2.IsKept writing) :
    let text := configuration.content.toText writing
    (decoder.ofText text = .ok configuration ↔ configuration.isFinite = true)
      ∧ (decoder.ofText text = .error .mismatch ↔ configuration.isFinite = false)
      ∧ (configuration.isFinite = true ↔
        ∀ entry ∈ configuration.numbers, entry.2.isFinite = true)
      ∧ ∀ entry ∈ configuration.numbers,
          ((Reading.ofText text).document.at? entry.1 = some .null ↔ entry.2.isFinite = false)
            ∧ (entry.2.isFinite = true ↔
              ∃ numeral, (Reading.ofText text).document.at? entry.1 = some (.number numeral)
                ∧ entry.2.IsReadFrom (.number numeral)) := by
  intro text
  have content : configuration.content.IsKept writing := content_isKept kept
  have reading : Reading.ofText text = ⟨configuration.content.document writing, false⟩ :=
    content.hasText.reading
  have read : decoder.ofText text =
      if configuration.isFinite then .ok configuration else .error .mismatch := by
    rw [content.hasText.ofText_eq]
    exact decoder_readsAs content
  refine ⟨?_, ?_, isFinite_iff configuration, ?_⟩
  · rw [read]
    cases configuration.isFinite <;> simp
  · rw [read]
    cases configuration.isFinite <;> simp
  · intro entry member
    rw [reading, at?_document configuration writing entry member]
    cases finite : entry.2.isFinite with
    | true =>
        obtain ⟨numeral, same, given, _⟩ :=
          Number.document_of_isKept finite (kept entry member finite)
        rw [same]
        simp [given]
    | false =>
        rw [Number.document_of_endless finite]
        simp

end Configuration

end

/-- The first text of a number, with one decimal place or more, from which it is read back. -/
def plainText {Value : Type} [DecidableEq Value] (decoder : Decoder Value) (value : Value)
    (exact : Binary) : String :=
  let texts := (List.range 20).map fun places => exact.fixedText (places + 1)
  (texts.find? fun text => (decoder.ofText text).toOption = some value).getD ""

/-- Numbers written with as few decimal places as it takes to read them back. -/
def plainNumbers : NumberWriting where
  double value := plainText double value (.ofFloat value)
  single value := plainText single value (.ofFloat32 value)

namespace Configuration

/-- A waypoint with six decimal places, and a threshold that is not a number of meters. -/
def boundlessThreshold : Configuration :=
  ⟨true, .collisionAvoidance,
    { LandingPolicy.default with waypoint := ⟨47.397742, 8.545594, 488⟩ }, ⟨true, 1 / 0, .land⟩⟩

/-- The same policies with a threshold of about a tenth of a meter, rounded to a single. -/
def tenthThreshold : Configuration :=
  { boundlessThreshold with avoidance := ⟨true, 1 / 10, .land⟩ }

theorem refused_boundlessThreshold :
    let text := boundlessThreshold.content.toText plainNumbers
    decoder.ofText text = .error .mismatch
      ∧ (Reading.ofText text).document.at? ["collision_avoidance", "distance_threshold_m"] =
        some .null
      ∧ decoder.ofText (tenthThreshold.content.toText plainNumbers) = .ok tenthThreshold := by
  intro text
  have latitude : (Number.double 47.397742).IsKept plainNumbers := by
    change double.ofText _ = _
    decide +kernel
  have longitude : (Number.double 8.545594).IsKept plainNumbers := by
    change double.ofText _ = _
    decide +kernel
  have altitude : (Number.double 488).IsKept plainNumbers := by
    change double.ofText _ = _
    decide +kernel
  have zero : (Number.double 0).IsKept plainNumbers := by
    change double.ofText _ = _
    decide +kernel
  have tenth : (Number.single (1 / 10)).IsKept plainNumbers := by
    change single.ofText _ = _
    decide +kernel
  have endless : (Number.single (1 / 0)).isFinite = false := by
    decide +kernel
  obtain ⟨_, refused, _, each⟩ := reads_own_text_iff plainNumbers boundlessThreshold (by
    simp only [numbers, List.forall_mem_cons]
    exact ⟨fun _ => latitude, fun _ => longitude, fun _ => altitude, fun _ => zero, fun _ => zero,
      fun _ => zero, fun finite => Bool.noConfusion (endless.symm.trans finite),
      List.forall_mem_nil _⟩)
  obtain ⟨accepted, _⟩ := reads_own_text_iff plainNumbers tenthThreshold (by
    simp only [numbers, List.forall_mem_cons]
    exact ⟨fun _ => latitude, fun _ => longitude, fun _ => altitude, fun _ => zero, fun _ => zero,
      fun _ => zero, fun _ => tenth, List.forall_mem_nil _⟩)
  have member : (["collision_avoidance", "distance_threshold_m"],
      Number.single boundlessThreshold.avoidance.threshold) ∈ boundlessThreshold.numbers := by
    simp [numbers]
  exact ⟨refused.mpr (by decide +kernel), (each _ member).1.mpr endless,
    accepted.mpr (by decide +kernel)⟩

end Configuration

end FlightGuard
