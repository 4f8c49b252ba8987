import KeySteward.Proofs.ConditionLists
import KeySteward.Proofs.ReadTimes
import KeySteward.Proofs.SpecLayouts

/-! Specs, statuses, tags and conditions survive being written and read. An object may say one thing in
many ways: entries that are passed over, keys that come twice, times with an offset. What is read of it
is a value with one way to be written, and that is read as the same value. -/

namespace KeySteward

open Json

namespace Json

variable {α β ρ : Type}

/-- Values of a type in their written form. -/
structure RoundTrips (IsSound : α → Prop) (decode : Decoder α) (toJson : α → Json) : Prop where
  /-- A value is read back from what is written of it. -/
  written : ∀ value, IsSound value → decode (document (toJson value)) = .ok value
  /-- Whatever is read of any document is such a value. -/
  sound : ∀ part value, decode part = .ok value → IsSound value
  /-- What is read is read again from what is written of it. -/
  again : ∀ part, (decode part >>= fun value => decode (document (toJson value))) = decode part

private theorem RoundTrips.of_sound {IsSound : α → Prop} {decode : Decoder α} {toJson : α → Json}
    (written : ∀ value, IsSound value → decode (document (toJson value)) = .ok value)
    (sound : ∀ part value, decode part = .ok value → IsSound value) :
    RoundTrips IsSound decode toJson where
  written
  sound
  again part := by
    cases read : decode part with
    | error error => rfl
    | ok value => exact written value (sound part value read)

private theorem RoundTrips.of_iff {IsSound IsProper : α → Prop} {decode : Decoder α} {toJson : α → Json}
    (trips : RoundTrips IsSound decode toJson) (same : ∀ {value}, IsSound value ↔ IsProper value) :
    RoundTrips IsProper decode toJson where
  written value proper := trips.written value (same.mpr proper)
  sound part value read := same.mp (trips.sound part value read)
  again := trips.again

private theorem Layout.Lawful.roundTrips {layout : Layout ρ} (lawful : layout.Lawful) :
    RoundTrips (fun _ => True) layout.decode layout.toJson :=
  .of_sound (fun value _ => lawful.decode_toJson value) fun _ _ _ => trivial

/-! ### What is read -/

private theorem Decode.nullable_eq_some {decode : Decoder α} {part : Document} {value : α}
    (read : Decode.nullable decode part = .ok (some value)) : decode part = .ok value := by
  have mapped (read : (decode part).map some = .ok (some value)) : decode part = .ok value := by
    cases decoded : decode part with
    | error error =>
      rw [decoded] at read
      cases read
    | ok found =>
      rw [decoded] at read
      cases read
      rfl
  cases part with
  | null => cases read
  | _ => exact mapped read

private theorem mapM_eq_ok {read : α → Except DecodeError β} {parts : List α} {values : List β}
    (reads : parts.mapM read = .ok values) {value : β} (listed : value ∈ values) :
    ∃ part ∈ parts, read part = .ok value := by
  induction parts generalizing values with
  | nil =>
    cases reads
    cases listed
  | cons part rest ih =>
    simp only [List.mapM_cons, bind_eq_ok] at reads
    obtain ⟨first, readFirst, others, readOthers, same⟩ := reads
    cases same
    obtain rfl | later := List.mem_cons.mp listed
    · exact ⟨part, by simp, readFirst⟩
    · obtain ⟨other, inside, readOther⟩ := ih readOthers later
      exact ⟨other, by simp [inside], readOther⟩

private theorem Decode.list_eq_ok {decode : Decoder α} {part : Document} {values : List α}
    (read : Decode.list decode part = .ok values) {value : α} (listed : value ∈ values) :
    ∃ entry, decode entry = .ok value := by
  cases part with
  | array entries =>
    obtain ⟨entry, -, readEntry⟩ := mapM_eq_ok read listed
    exact ⟨entry, readEntry⟩
  | _ => cases read

private theorem Decode.timestamp_proper {part : Document} {time : Timestamp}
    (read : Decode.timestamp part = .ok time) : time.IsProper := by
  simp only [Decode.timestamp, bind_eq_ok] at read
  obtain ⟨text, -, read⟩ := read
  split at read
  next parsed =>
    cases read
    exact Timestamp.isProper_of_parse? parsed
  next => cases read

private theorem Decode.integer_le {part : Document} {value : Int}
    (read : Decode.integer part = .ok value) :
    value ≤ Text.greatestInteger := by
  unfold Decode.integer at read
  split at read
  · split at read
    next small =>
      cases read
      exact small
    next => cases read
  · cases read
  · cases read

/-! ### Fields -/

namespace Field

/-- Whatever the field is read of, the value can be written. -/
structure Checked (field : Field ρ) : Prop where
  absent : field.IsSound field.absent
  decode : ∀ {part value}, field.decode part = .ok value → field.IsSound value

private theorem Checked.orElse {field : Field ρ} (checked : field.Checked) {found : Fields}
    {value : field.Value} (read : found.orElse field.name field.absent field.decode = .ok value) :
    field.IsSound value := by
  unfold Fields.orElse at read
  split at read
  · exact checked.decode read
  · cases read
    exact checked.absent

variable {name : String}

private theorem optional_checked {get : ρ → Option α} {decode : Decoder α} {write : α → Json}
    {isSound : α → Prop} (sound : ∀ {part value}, decode part = .ok value → isSound value) :
    (optional name get decode write isSound).Checked where
  absent := nofun
  decode read _ same := sound (Decode.nullable_eq_some (same ▸ read))

private theorem listed_checked {get : ρ → List α} {decode : Decoder α} {write : α → Json}
    {isSound : α → Prop} (sound : ∀ {part value}, decode part = .ok value → isSound value) :
    (listed name get decode write isSound).Checked where
  absent := nofun
  decode read _ listed := by
    obtain ⟨_, readEntry⟩ := Decode.list_eq_ok read listed
    exact sound readEntry

private theorem nested_checked {get : ρ → Option α} {record : Record α}
    (sound : ∀ {part value}, record.decode part = .ok value → record.IsSound value) :
    (nested name get record).Checked where
  absent := nofun
  decode read _ same := sound (Decode.nullable_eq_some (same ▸ read))

variable (name)

private theorem text_checked (get : ρ → Option String) : (text name get).Checked :=
  optional_checked fun _ => trivial

private theorem flag_checked (get : ρ → Option Bool) : (flag name get).Checked :=
  optional_checked fun _ => trivial

private theorem keyState_checked (get : ρ → Option KeyState) : (keyState name get).Checked :=
  optional_checked fun _ => trivial

private theorem texts_checked (get : ρ → List String) : (texts name get).Checked :=
  listed_checked fun _ => trivial

private theorem integer_checked (get : ρ → Option Int) : (integer name get).Checked :=
  optional_checked Decode.integer_le

private theorem time_checked (get : ρ → Option Timestamp) : (time name get).Checked :=
  optional_checked Decode.timestamp_proper

end Field

namespace Record

variable {record : Record ρ} (lawful : record.Lawful)
  (checked : ∀ field ∈ record.fields, field.Checked)

include lawful checked

private theorem Lawful.isSound_of_decode {part : Document} {value : ρ}
    (read : record.decode part = .ok value) : record.IsSound value := by
  obtain ⟨found, -, fields⟩ := (lawful.decode_iff _ _).mp read
  intro field listed
  exact (checked field listed).orElse (fields field listed)

private theorem Lawful.roundTrips : RoundTrips record.IsSound record.decode record.toJson :=
  .of_sound (fun _ => lawful.decode_toJson) fun _ _ => lawful.isSound_of_decode checked

end Record

end Json

/-! ### Conditions -/

private theorem Condition.decode_proper {part : Document} {condition : Condition}
    (read : decode part = .ok condition) :
    ∀ time ∈ condition.state.lastTransitionTime, time.IsProper := by
  simp only [decode, bind_eq_ok] at read
  obtain ⟨found, -, type, -, status, -, time, readTime, reason, -, message, -, same⟩ := read
  cases same
  exact (Field.time_checked "lastTransitionTime" id).orElse readTime

namespace Conditions

private theorem mem_of_ofList {list : List Condition} {condition : Condition}
    (stays : condition ∈ (ofList list).toList) : condition ∈ list := by
  rw [mem_toList] at stays
  induction list using List.reverseRecOn with
  | nil => cases found : condition.type <;> rw [found] at stays <;> cases stays
  | append_singleton earlier last ih =>
    rw [ofList_concat, get?_put] at stays
    split at stays
    next same =>
      obtain ⟨type, state⟩ := last
      obtain ⟨_, _⟩ := condition
      cases same
      cases stays
      exact List.mem_append_right _ (List.mem_singleton_self _)
    next => exact List.mem_append_left _ (ih stays)

private theorem isProper_of_decode {part : Document} {conditions : Conditions}
    (read : decode part = .ok conditions) : conditions.IsProper := by
  simp only [decode, bind_eq_ok] at read
  obtain ⟨entries, readEntries, same⟩ := read
  cases same
  intro condition stays
  have kept : some condition ∈ entries.getD [] := by
    simpa using mem_of_ofList stays
  cases entries with
  | none => cases kept
  | some entries =>
    obtain ⟨entry, readEntry⟩ := Decode.list_eq_ok (Decode.nullable_eq_some readEntries) kept
    unfold entry? at readEntry
    split at readEntry
    · cases readEntry
    · cases decoded : Condition.decode entry with
      | error error =>
        rw [decoded] at readEntry
        cases readEntry
      | ok found =>
        rw [decoded] at readEntry
        cases readEntry
        exact Condition.decode_proper decoded

private theorem roundTrips : RoundTrips IsProper decode toJson :=
  .of_sound (fun _ => decode_toJson) fun _ _ => isProper_of_decode

end Conditions

private theorem Json.Field.conditions_checked {ρ : Type} (name : String) (get : ρ → Conditions) :
    (conditions name get).Checked where
  absent := by
    change Conditions.IsProper {}
    decide
  decode := Conditions.isProper_of_decode

/-! ### Statuses -/

private theorem Ownership.record_checked : ∀ field ∈ record.fields, field.Checked := by
  simp only [record, List.forall_mem_cons]
  exact ⟨Field.text_checked _ _, Field.text_checked _ _, Field.text_checked _ _, List.forall_mem_nil _⟩

namespace MultiRegion

private theorem referenceRecord_checked : ∀ field ∈ referenceRecord.fields, field.Checked := by
  simp only [referenceRecord, List.forall_mem_cons]
  exact ⟨Field.text_checked _ _, Field.text_checked _ _, List.forall_mem_nil _⟩

private theorem record_checked : ∀ field ∈ record.fields, field.Checked := by
  simp only [record, List.forall_mem_cons]
  exact ⟨Field.text_checked _ _,
    Field.nested_checked (referenceRecord_lawful.isSound_of_decode referenceRecord_checked),
    Field.listed_checked fun _ => trivial, List.forall_mem_nil _⟩

end MultiRegion

private theorem ReplicaKeyMetadata.record_checked : ∀ field ∈ record.fields, field.Checked := by
  simp only [record, List.forall_mem_cons]
  exact ⟨Field.text_checked _ _, Field.text_checked _ _, Field.time_checked _ _,
    Field.time_checked _ _, Field.text_checked _ _, Field.flag_checked _ _, Field.text_checked _ _,
    Field.text_checked _ _, Field.keyState_checked _ _, Field.text_checked _ _,
    Field.nested_checked (MultiRegion.record_lawful.isSound_of_decode MultiRegion.record_checked),
    Field.text_checked _ _, Field.integer_checked _ _, List.forall_mem_nil _⟩

namespace KeyStatus

/-- All times are proper, and the days fit a signed word. -/
def IsProper (status : KeyStatus) : Prop :=
  status.conditions.IsProper ∧ (∀ time ∈ status.creationDate, time.IsProper) ∧
    (∀ time ∈ status.deletionDate, time.IsProper) ∧
    (∀ days ∈ status.pendingDeletionWindowInDays, days ≤ Text.greatestInteger) ∧
    ∀ time ∈ status.validTo, time.IsProper

private theorem record_checked : ∀ field ∈ record.fields, field.Checked := by
  simp only [record, List.forall_mem_cons]
  exact ⟨Field.nested_checked (Ownership.record_lawful.isSound_of_decode Ownership.record_checked),
    Field.conditions_checked _ _, Field.text_checked _ _, Field.text_checked _ _,
    Field.time_checked _ _, Field.time_checked _ _, Field.flag_checked _ _, Field.texts_checked _ _,
    Field.text_checked _ _, Field.text_checked _ _, Field.text_checked _ _,
    Field.keyState_checked _ _, Field.texts_checked _ _,
    Field.nested_checked (MultiRegion.record_lawful.isSound_of_decode MultiRegion.record_checked),
    Field.integer_checked _ _, Field.texts_checked _ _, Field.time_checked _ _,
    List.forall_mem_nil _⟩

private theorem roundTrips : RoundTrips IsProper decode toJson :=
  (record_lawful.roundTrips record_checked).of_iff isSound_iff

end KeyStatus

namespace ReplicaKeyStatus

/-- All times are proper, and the days fit a signed word. -/
def IsProper (status : ReplicaKeyStatus) : Prop :=
  status.conditions.IsProper ∧ ∀ replica ∈ status.replica,
    (∀ time ∈ replica.creationDate, time.IsProper) ∧
    (∀ time ∈ replica.deletionDate, time.IsProper) ∧
    ∀ days ∈ replica.pendingDeletionWindowInDays, days ≤ Text.greatestInteger

private theorem record_checked : ∀ field ∈ record.fields, field.Checked := by
  simp only [record, List.forall_mem_cons]
  exact ⟨Field.conditions_checked _ _,
    Field.nested_checked
      (ReplicaKeyMetadata.record_lawful.isSound_of_decode ReplicaKeyMetadata.record_checked),
    Field.text_checked _ _, List.forall_mem_nil _⟩

private theorem isSound_iff {status : ReplicaKeyStatus} : record.IsSound status ↔ status.IsProper := by
  simp [Record.IsSound, IsProper, record, ReplicaKeyMetadata.record, MultiRegion.record,
    MultiRegion.referenceRecord, Field.optional, Field.nested, Field.always, Field.listed]

private theorem roundTrips : RoundTrips IsProper decode toJson :=
  (record_lawful.roundTrips record_checked).of_iff isSound_iff

end ReplicaKeyStatus

namespace AliasStatus

/-- All times are proper. -/
def IsProper (status : AliasStatus) : Prop :=
  status.conditions.IsProper ∧ (∀ time ∈ status.creationDate, time.IsProper) ∧
    ∀ time ∈ status.lastUpdatedDate, time.IsProper

private theorem record_checked : ∀ field ∈ record.fields, field.Checked := by
  simp only [record, List.forall_mem_cons]
  exact ⟨Field.nested_checked (Ownership.record_lawful.isSound_of_decode Ownership.record_checked),
    Field.conditions_checked _ _, Field.time_checked _ _, Field.time_checked _ _,
    List.forall_mem_nil _⟩

private theorem isSound_iff {status : AliasStatus} : record.IsSound status ↔ status.IsProper := by
  simp [Record.IsSound, IsProper, record, Ownership.record, Field.optional, Field.nested, Field.always]

private theorem roundTrips : RoundTrips IsProper decode toJson :=
  (record_lawful.roundTrips record_checked).of_iff isSound_iff

end AliasStatus

namespace GrantStatus

private theorem record_checked : ∀ field ∈ record.fields, field.Checked := by
  simp only [record, List.forall_mem_cons]
  exact ⟨Field.nested_checked (Ownership.record_lawful.isSound_of_decode Ownership.record_checked),
    Field.conditions_checked _ _, Field.text_checked _ _, Field.text_checked _ _,
    List.forall_mem_nil _⟩

private theorem isSound_iff {status : GrantStatus} :
    record.IsSound status ↔ status.conditions.IsProper := by
  simp [Record.IsSound, record, Ownership.record, Field.optional, Field.nested, Field.always]

private theorem roundTrips :
    RoundTrips (fun status => status.conditions.IsProper) decode toJson :=
  (record_lawful.roundTrips record_checked).of_iff isSound_iff

end GrantStatus

/-! ### All of them -/

/-- Every spec, status, tag map and list of conditions is read back from what is written of it, and
whatever an object holds of one, reading it, writing what was read and reading that ends as the first
reading did. -/
theorem resources_round_trip :
    RoundTrips (fun _ => True) KeySpec.decode KeySpec.toJson ∧
    RoundTrips KeyStatus.IsProper KeyStatus.decode KeyStatus.toJson ∧
    RoundTrips (fun _ => True) ReplicaKeySpec.decode ReplicaKeySpec.toJson ∧
    RoundTrips ReplicaKeyStatus.IsProper ReplicaKeyStatus.decode ReplicaKeyStatus.toJson ∧
    RoundTrips (fun _ => True) AliasSpec.decode AliasSpec.toJson ∧
    RoundTrips AliasStatus.IsProper AliasStatus.decode AliasStatus.toJson ∧
    RoundTrips (fun _ => True) GrantSpec.decode GrantSpec.toJson ∧
    RoundTrips (fun status => status.conditions.IsProper) GrantStatus.decode GrantStatus.toJson ∧
    RoundTrips (fun _ => True) TagMap.decode TagMap.toJson ∧
    RoundTrips Conditions.IsProper Conditions.decode Conditions.toJson := by
  have tags : RoundTrips (fun _ => True) TagMap.decode TagMap.toJson :=
    .of_sound (fun tags _ => tags.decode_toJson) fun _ _ _ => trivial
  exact ⟨KeySpec.layout_lawful.roundTrips, KeyStatus.roundTrips,
    ReplicaKeySpec.layout_lawful.roundTrips, ReplicaKeyStatus.roundTrips,
    AliasSpec.layout_lawful.roundTrips, AliasStatus.roundTrips,
    GrantSpec.layout_lawful.roundTrips, GrantStatus.roundTrips, tags, Conditions.roundTrips⟩

/-- A status as other tooling may have left it: a type comes twice, another is none of a pass, and a time
has an offset. It is read as a status that is written another way, and read the same again. -/
theorem resources_round_trip_rewritten :
    let first : Json := .object [("status", .string "False"), ("type", .string "Synced")]
    let foreign : Json := .object [("status", .string "True"), ("type", .string "Ready")]
    let last : Json := .object [("lastTransitionTime", .string "1970-01-01T01:00:00+01:00"),
      ("status", .string "True"), ("type", .string "Synced")]
    let stored : Json := .object [("conditions", .array [first, foreign, last]), ("keyID", .null)]
    let status : KeyStatus :=
      { conditions := { synced := some { status := .true, lastTransitionTime := some ⟨0, 0⟩ } } }
    KeyStatus.decode (document stored) = .ok status ∧
      KeyStatus.decode (document status.toJson) = .ok status := by
  intro first foreign last stored status
  obtain ⟨-, trips, -⟩ := resources_round_trip
  have read : KeyStatus.decode (document stored) = .ok status := by
    decide +kernel
  exact ⟨read, trips.written status (trips.sound _ _ read)⟩

end KeySteward
