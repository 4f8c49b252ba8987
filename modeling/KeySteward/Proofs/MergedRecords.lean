import KeySteward.Json.MergePatch
import KeySteward.Proofs.SpecDifferences

/-! Records that are merged into stored objects. A record is written without the fields that are unset,
and a merge patch leaves a member alone that it does not name; so what is read after the patch has the
fields that the record sets from the record, and the others from the object as it was stored. -/

namespace KeySteward.Json

variable {α β ρ : Type}

/-- The part of a value under a path of names. -/
def at? (value : Json) : List String → Option Json
  | [] => some value
  | name :: path => (value.get? name).bind fun member => member.at? path

/-- No array stands at the paths, where a record may be written as one. -/
def HasRecordsAt (value : Json) (paths : List (List String)) : Prop :=
  ∀ path ∈ paths, ∀ part ∈ value.at? path, part.items? = none

instance (value : Json) (paths : List (List String)) : Decidable (value.HasRecordsAt paths) :=
  inferInstanceAs (Decidable (∀ path ∈ paths, ∀ part ∈ value.at? path, part.items? = none))

/-! ### Members of an object -/

theorem Fields.get?_ofMembers {names : List String} {members : List (String × Json)} {fields : Fields}
    (read : Fields.ofMembers names (memberDocuments members) = .ok fields) {name : String}
    (known : name ∈ names) :
    Entries.get? name fields = (Entries.get? name members).map document := by
  induction members generalizing fields with
  | nil =>
    cases read
    rfl
  | cons member rest ih =>
    obtain ⟨first, value⟩ := member
    simp only [memberDocuments, ofMembers] at read
    cases others : ofMembers names (memberDocuments rest) with
    | error error =>
      rw [others] at read
      cases read
    | ok found =>
      simp only [others, bind, Except.bind] at read
      have looks := ih others
      split at read
      next listed =>
        split at read
        · cases read
        · cases read
          simp only [Entries.get?, looks]
          split <;> rfl
      next unlisted =>
        cases read
        have differ : first ≠ name := fun same => unlisted (same ▸ known)
        rw [looks, Entries.get?, if_neg differ]

theorem Fields.ofMembers_documents (names : List String) {members : List (String × Json)}
    (distinct : (members.map Prod.fst).Nodup) :
    ∃ fields, Fields.ofMembers names (memberDocuments members) = .ok fields ∧
      ∀ name ∈ names, Entries.get? name fields = (Entries.get? name members).map document := by
  suffices readable : ∃ fields, Fields.ofMembers names (memberDocuments members) = .ok fields by
    obtain ⟨fields, read⟩ := readable
    exact ⟨fields, read, fun _ known => get?_ofMembers read known⟩
  induction members with
  | nil => exact ⟨[], rfl⟩
  | cons member rest ih =>
    obtain ⟨name, value⟩ := member
    obtain ⟨fresh, others⟩ := List.nodup_cons.mp distinct
    obtain ⟨fields, read⟩ := ih others
    simp only [memberDocuments, Fields.ofMembers, read, bind, Except.bind]
    by_cases known : name ∈ names
    · have missing : Entries.get? name fields = none := by
        rw [get?_ofMembers read known, Option.map_eq_none_iff, Entries.get?_eq_none_iff]
        exact fresh
      simp only [if_pos known, missing, Option.isSome_none, Bool.false_eq_true, if_false]
      exact ⟨_, rfl⟩
    · simp only [if_neg known]
      exact ⟨fields, rfl⟩

theorem Fields.read_record (names : List String) {members : List (String × Option Json)}
    (distinct : (members.map Prod.fst).Nodup) :
    ∃ fields, Fields.read names (document (record members)) = .ok fields ∧
      ∀ name ∈ names, Entries.get? name fields = (Entries.get? name members).join.map document := by
  let written := Entries.ofList
    (members.filterMap fun member => member.2.map fun value => (member.1, value))
  have ascending : Ascending written := Entries.ascending_ofList _
  obtain ⟨fields, read, looks⟩ := Fields.ofMembers_documents names ascending.distinct
  refine ⟨fields, read, fun name known => ?_⟩
  rw [looks name known]
  exact congrArg (Option.map document) (get?_record distinct name)

def readMember (absent : α) (decode : Decoder α) : Option Json → Except DecodeError α
  | some value => decode (document value)
  | none => .ok absent

theorem Fields.orElse_eq {fields : Fields} {name : String} {member : Option Json}
    (look : Entries.get? name fields = member.map document) (absent : α) (decode : Decoder α) :
    fields.orElse name absent decode = readMember absent decode member := by
  rw [orElse, look]
  cases member <;> rfl

def mergeMember (change member : Option Json) : Option Json :=
  match change with
  | some change => if change.isNull then none else some (merge change (member.getD null))
  | none => member

theorem get?_mergeMembers {changes : List (String × Json)} (distinct : (changes.map Prod.fst).Nodup)
    (members : List (String × Json)) (name : String) :
    Entries.get? name (mergeMembers changes members) =
      mergeMember (Entries.get? name changes) (Entries.get? name members) := by
  induction changes generalizing members with
  | nil => simp [mergeMembers, mergeMember, Entries.get?]
  | cons head rest ih =>
    obtain ⟨first, change⟩ := head
    obtain ⟨fresh, others⟩ := List.nodup_cons.mp distinct
    rw [mergeMembers, ih others]
    by_cases same : first = name
    · subst same
      have missing : Entries.get? first rest = none := Entries.get?_eq_none_iff.mpr fresh
      simp only [missing, mergeMember, Entries.get?, if_true]
      split
      · rw [Entries.get?_erase, if_pos rfl]
      · rw [Entries.get?_insert, if_pos rfl]
    · have untouched : Entries.get? name (if change.isNull then Entries.erase first members
          else Entries.insert first (merge change ((Entries.get? first members).getD null)) members) =
          Entries.get? name members := by
        split
        · rw [Entries.get?_erase, if_neg same]
        · rw [Entries.get?_insert, if_neg same]
      simp only [untouched, Entries.get?, if_neg same]

theorem get?_mergeMembers_single {change : Json} (present : change.isNull = false)
    (members : List (String × Json)) (changed name : String) :
    Entries.get? name (mergeMembers [(changed, change)] members) =
      if changed = name then some (merge change ((Entries.get? changed members).getD null))
      else Entries.get? name members := by
  simp [mergeMembers, present, Entries.get?_insert]

theorem ascending_mergeMembers (changes : List (String × Json)) {members : List (String × Json)}
    (ascending : Ascending members) : Ascending (mergeMembers changes members) := by
  induction changes generalizing members with
  | nil => simpa [mergeMembers] using ascending
  | cons head rest ih =>
    rw [mergeMembers]
    refine ih ?_
    split
    · exact Entries.ascending_erase _ ascending
    · exact Entries.ascending_insert _ _ ascending

theorem CanonicalMembers.get? {members : List (String × Json)} (canonical : CanonicalMembers members)
    {name : String} {value : Json} (found : Entries.get? name members = some value) :
    value.Canonical := by
  induction members with
  | nil => cases found
  | cons member rest ih =>
    obtain ⟨first, head⟩ := member
    rw [CanonicalMembers] at canonical
    rw [Entries.get?] at found
    split at found
    · cases found
      exact canonical.1
    · exact ih canonical.2 found

/-! ### Fields -/

/-- A field of a record: how it is read and written, and what is read once a value is merged into
another. -/
structure Field (ρ : Type) where
  name : String
  Value : Type
  get : ρ → Value
  /-- What is read where the member is missing. -/
  absent : Value
  decode : Decoder Value
  /-- The member that is written, if one is. -/
  write : Value → Option Json
  overlay : Value → Value → Value
  /-- All that is set in the second value is set in the first. -/
  Covers : Value → Value → Prop
  /-- The value is within what is read of its text. -/
  IsSound : Value → Prop
  /-- Where records stand in the member. -/
  records : List (List String)

namespace Field

structure Lawful (field : Field ρ) : Prop where
  present : ∀ {value change}, field.write value = some change → change.isNull = false
  reads : ∀ {value}, field.IsSound value →
    readMember field.absent field.decode (field.write value) = .ok value
  merges : ∀ {value old member}, field.IsSound value →
    (∀ stored, member = some stored → stored.Canonical ∧ stored.HasRecordsAt field.records) →
    readMember field.absent field.decode member = .ok old →
    readMember field.absent field.decode (mergeMember (field.write value) member) =
      .ok (field.overlay value old)
  keeps : ∀ {value old}, field.write value = none → field.overlay value old = old
  overlay_eq_iff : ∀ {value old}, field.overlay value old = value ↔ field.Covers value old

/-- A change that replaces what it is merged into. -/
structure Replaces (change : Json) : Prop where
  isNull : change.isNull = false
  merge : ∀ target, merge change target = change

theorem replaces_of_ne_object {change : Json} (isNull : change.isNull = false)
    (noObject : ∀ members, change ≠ .object members) : Replaces change where
  isNull
  merge _ := by
    rw [merge]
    exact noObject

theorem replaces_array (items : List Json) : Replaces (.array items) :=
  replaces_of_ne_object rfl (by simp)

theorem mergeMember_replaces {change : Json} (replaces : Replaces change) (member : Option Json) :
    mergeMember (some change) member = some change := by
  simp [mergeMember, replaces.isNull, replaces.merge]

def optional (name : String) (get : ρ → Option α) (decode : Decoder α) (write : α → Json)
    (isSound : α → Prop) : Field ρ where
  name
  Value := Option α
  get
  absent := none
  decode := Decode.nullable decode
  write value := value.map write
  overlay value old := value.or old
  Covers value old := value = none → old = none
  IsSound value := ∀ inner, value = some inner → isSound inner
  records := []

theorem nullable_of_present {decode : Decoder α} {value : Json} (present : value.isNull = false) :
    Decode.nullable decode (document value) = (decode (document value)).map some := by
  cases value with
  | null => cases present
  | _ => rfl

theorem readMember_nullable {decode : Decoder α} {value : Json} (present : value.isNull = false)
    (read : Option α) :
    readMember none (Decode.nullable decode) (some value) = .ok read ↔
      ∃ inner, decode (document value) = .ok inner ∧ some inner = read := by
  rw [readMember, nullable_of_present present]
  cases decode (document value) <;> simp [Except.map]

theorem optional_lawful {name : String} {get : ρ → Option α} {decode : Decoder α} {write : α → Json}
    {isSound : α → Prop} (replaces : ∀ value, Replaces (write value))
    (reads : ∀ value, isSound value → decode (document (write value)) = .ok value) :
    (optional name get decode write isSound).Lawful where
  present written := by
    obtain ⟨value, -, rfl⟩ := Option.map_eq_some_iff.mp written
    exact (replaces value).isNull
  reads {value} sound := by
    cases value with
    | none => rfl
    | some value =>
      change Decode.nullable decode (document (write value)) = _
      rw [nullable_of_present (replaces value).isNull, reads value (sound value rfl)]
      rfl
  merges {value old member} sound _ read := by
    cases value with
    | none => exact read
    | some value =>
      change readMember _ _ (mergeMember (some (write value)) member) = _
      rw [mergeMember_replaces (replaces value)]
      change Decode.nullable decode (document (write value)) = _
      rw [nullable_of_present (replaces value).isNull, reads value (sound value rfl)]
      rfl
  keeps unwritten := by
    rw [Option.map_eq_none_iff.mp unwritten]
    rfl
  overlay_eq_iff {value old} := by
    cases value <;> cases old <;> simp [optional]

/-- The second list where the first is empty. -/
def unlessEmpty (values old : List α) : List α :=
  if values.isEmpty then old else values

@[simp] theorem unlessEmpty_nil (values : List α) : unlessEmpty values [] = values := by
  unfold unlessEmpty
  split
  next empty => exact (List.isEmpty_iff.mp empty).symm
  next => rfl

def listed (name : String) (get : ρ → List α) (decode : Decoder α) (write : α → Json)
    (isSound : α → Prop) : Field ρ where
  name
  Value := List α
  get
  absent := []
  decode := Decode.list decode
  write values := if values.isEmpty then none else some (.array (values.map write))
  overlay := unlessEmpty
  Covers values old := values = [] → old = []
  IsSound values := ∀ value ∈ values, isSound value
  records := []

theorem list_reads {decode : Decoder β} {write : α → Json} {read : α → β} {values : List α}
    (reads : ∀ value ∈ values, decode (document (write value)) = .ok (read value)) :
    Decode.list decode (document (.array (values.map write))) = .ok (values.map read) := by
  change (itemDocuments (values.map write)).mapM decode = .ok (values.map read)
  induction values with
  | nil => rfl
  | cons first rest ih =>
    rw [List.map_cons, itemDocuments, List.mapM_cons, reads first (by simp),
      ih fun value inside => reads value (by simp [inside])]
    rfl

theorem array_reads {decode : Decoder α} {write : α → Json} {values : List α}
    (reads : ∀ value ∈ values, decode (document (write value)) = .ok value) :
    Decode.list decode (document (.array (values.map write))) = .ok values := by
  have read : Decode.list decode (document (.array (values.map write))) = .ok (values.map id) :=
    list_reads reads
  rwa [List.map_id] at read

theorem listed_lawful {name : String} {get : ρ → List α} {decode : Decoder α} {write : α → Json}
    {isSound : α → Prop}
    (reads : ∀ value, isSound value → decode (document (write value)) = .ok value) :
    (listed name get decode write isSound).Lawful where
  present {values change} written := by
    change (if values.isEmpty then _ else _) = _ at written
    split at written
    · cases written
    · cases written
      rfl
  reads {values} sound := by
    change readMember _ _ (if values.isEmpty then _ else _) = _
    split
    next empty => rw [List.isEmpty_iff.mp empty]; rfl
    next => exact array_reads fun value inside => reads value (sound value inside)
  merges {values old member} sound _ read := by
    change readMember _ _ (mergeMember (if values.isEmpty then _ else _) member) =
      .ok (if values.isEmpty then _ else _)
    split
    · exact read
    · rw [mergeMember_replaces (replaces_array _)]
      exact array_reads fun value inside => reads value (sound value inside)
  keeps {values old} unwritten := by
    change (if values.isEmpty then _ else _) = _ at unwritten
    change (if values.isEmpty then _ else _) = _
    split at unwritten
    next empty => rw [if_pos empty]
    next => cases unwritten
  overlay_eq_iff {values old} := by
    cases values <;> simp [listed, unlessEmpty]

def always (name : String) (get : ρ → α) (absent : α) (decode : Decoder α) (write : α → Json)
    (isSound : α → Prop) : Field ρ where
  name
  Value := α
  get
  absent
  decode
  write value := some (write value)
  overlay value _ := value
  Covers _ _ := True
  IsSound := isSound
  records := []

theorem always_lawful {name : String} {get : ρ → α} {absent : α} {decode : Decoder α}
    {write : α → Json} {isSound : α → Prop} (replaces : ∀ value, Replaces (write value))
    (reads : ∀ value, isSound value → decode (document (write value)) = .ok value) :
    (always name get absent decode write isSound).Lawful where
  present written := by
    cases written
    exact (replaces _).isNull
  reads {value} sound := reads value sound
  merges {value old member} sound _ _ := by
    change readMember _ _ (mergeMember (some (write value)) member) = _
    rw [mergeMember_replaces (replaces value)]
    exact reads value sound
  keeps := nofun
  overlay_eq_iff := iff_of_true rfl trivial

end Field

/-! ### Records -/

/-- How a record is read and written, with its fields. -/
structure Record (ρ : Type) where
  fields : List (Field ρ)
  decode : Decoder ρ
  toJson : ρ → Json
  /-- The record with nothing in it. -/
  fresh : ρ
  overlay : ρ → ρ → ρ

namespace Record

/-- The record is read and written field by field. -/
structure Lawful (record : Record ρ) : Prop where
  distinct : (record.fields.map Field.name).Nodup
  toJson_eq : ∀ value, record.toJson value =
    .record (record.fields.map fun field => (field.name, field.write (field.get value)))
  decode_iff : ∀ document value, record.decode document = .ok value ↔
    ∃ found, Fields.read (record.fields.map Field.name) document = .ok found ∧
      ∀ field ∈ record.fields, found.orElse field.name field.absent field.decode =
        .ok (field.get value)
  get_fresh : ∀ field ∈ record.fields, field.get record.fresh = field.absent
  get_overlay : ∀ value old, ∀ field ∈ record.fields,
    field.get (record.overlay value old) = field.overlay (field.get value) (field.get old)
  overlay_fresh : ∀ value, record.overlay value record.fresh = value
  ext : ∀ {value other}, (∀ field ∈ record.fields, field.get value = field.get other) → value = other
  fields : ∀ field ∈ record.fields, field.Lawful

/-- What is set in the record is within what is read of its text. -/
def IsSound (record : Record ρ) (value : ρ) : Prop :=
  ∀ field ∈ record.fields, field.IsSound (field.get value)

/-- All that is set in the second record is set in the first. -/
def Covers (record : Record ρ) (value old : ρ) : Prop :=
  ∀ field ∈ record.fields, field.Covers (field.get value) (field.get old)

/-- Where records stand in a value that holds the record. -/
def paths (record : Record ρ) : List (List String) :=
  [] :: record.fields.flatMap fun field => field.records.map (field.name :: ·)

def members (record : Record ρ) (value : ρ) : List (String × Json) :=
  Entries.ofList ((record.fields.map fun field => (field.name, field.write (field.get value))).filterMap
    fun member => member.2.map fun written => (member.1, written))

variable {record : Record ρ} (lawful : record.Lawful)

include lawful

theorem Lawful.toJson_members (value : ρ) : record.toJson value = .object (record.members value) :=
  lawful.toJson_eq value

theorem Lawful.get?_members (value : ρ) {field : Field ρ} (listed : field ∈ record.fields) :
    Entries.get? field.name (record.members value) = field.write (field.get value) := by
  have names : (record.fields.map fun field => (field.name, field.write (field.get value))).map
      Prod.fst = record.fields.map Field.name := by
    simp
  have distinct := names ▸ lawful.distinct
  have found : Entries.get? field.name
      (record.fields.map fun field => (field.name, field.write (field.get value))) =
      some (field.write (field.get value)) :=
    (Entries.get?_eq_some_iff distinct).mpr (List.mem_map.mpr ⟨field, listed, rfl⟩)
  rw [members, get?_record distinct, found]
  rfl

theorem Lawful.get_overlay_of_unwritten {value old : ρ} {field : Field ρ} (listed : field ∈ record.fields)
    (unwritten : field.write (field.get value) = none) :
    field.get (record.overlay value old) = field.get old := by
  rw [lawful.get_overlay value old field listed]
  exact (lawful.fields field listed).keeps unwritten

/-- A record that is laid over another hides all of it exactly if nothing is set there alone. -/
theorem Lawful.overlay_eq_iff {value old : ρ} :
    record.overlay value old = value ↔ record.Covers value old := by
  have each (field : Field ρ) (listed : field ∈ record.fields) :
      field.get (record.overlay value old) = field.get value ↔
        field.Covers (field.get value) (field.get old) := by
    rw [lawful.get_overlay value old field listed]
    exact (lawful.fields field listed).overlay_eq_iff
  constructor
  · intro same field listed
    exact (each field listed).mp (congrArg field.get same)
  · intro covers
    exact lawful.ext fun field listed => (each field listed).mpr (covers field listed)

theorem Lawful.decode_object {members : List (String × Json)} (ascending : Ascending members)
    (value : ρ) :
    record.decode (document (.object members)) = .ok value ↔
      ∀ field ∈ record.fields, readMember field.absent field.decode
        (Entries.get? field.name members) = .ok (field.get value) := by
  obtain ⟨found, read, looks⟩ :=
    Fields.ofMembers_documents (record.fields.map Field.name) ascending.distinct
  have known : ∀ field ∈ record.fields, found.orElse field.name field.absent field.decode =
      readMember field.absent field.decode (Entries.get? field.name members) :=
    fun field listed => Fields.orElse_eq (looks _ (List.mem_map_of_mem listed)) _ _
  have reading : Fields.read (record.fields.map Field.name) (document (.object members)) = .ok found :=
    read
  rw [lawful.decode_iff]
  constructor
  · rintro ⟨other, again, fields⟩ field listed
    cases reading.symm.trans again
    rw [← known field listed]
    exact fields field listed
  · intro fields
    refine ⟨found, reading, fun field listed => ?_⟩
    rw [known field listed]
    exact fields field listed

private theorem Lawful.object_of_decode {stored : Json} {value : ρ}
    (decoded : record.decode (document stored) = .ok value) (noItems : stored.items? = none) :
    ∃ members, stored = .object members := by
  obtain ⟨found, read, -⟩ := (lawful.decode_iff _ _).mp decoded
  cases stored with
  | object members => exact ⟨members, rfl⟩
  | array items => cases noItems
  | _ => cases read

theorem Lawful.decode_toJson {value : ρ} (sound : record.IsSound value) :
    record.decode (document (record.toJson value)) = .ok value := by
  rw [lawful.toJson_members]
  have ascending : Ascending (record.members value) := Entries.ascending_ofList _
  refine (lawful.decode_object ascending value).mpr fun field listed => ?_
  rw [lawful.get?_members value listed]
  exact (lawful.fields field listed).reads (sound field listed)

private theorem Lawful.decode_mergeMembers {members : List (String × Json)} {value old : ρ}
    (sound : record.IsSound value) (ascending : Ascending members)
    (plain : ∀ field ∈ record.fields, ∀ stored, Entries.get? field.name members = some stored →
      stored.Canonical ∧ stored.HasRecordsAt field.records)
    (decoded : record.decode (document (.object members)) = .ok old) :
    record.decode (document (.object (mergeMembers (record.members value) members))) =
      .ok (record.overlay value old) := by
  refine (lawful.decode_object (ascending_mergeMembers _ ascending) _).mpr fun field listed => ?_
  have read := (lawful.decode_object ascending old).mp decoded field listed
  have distinct : ((record.members value).map Prod.fst).Nodup :=
    Ascending.distinct (Entries.ascending_ofList _)
  rw [get?_mergeMembers distinct, lawful.get?_members value listed,
    lawful.get_overlay value old field listed]
  exact (lawful.fields field listed).merges (sound field listed) (plain field listed) read

private theorem Lawful.decode_merge_null {value : ρ} (sound : record.IsSound value) :
    record.decode (document (merge (record.toJson value) .null)) = .ok value := by
  have blank : record.decode (document (.object [])) = .ok record.fresh :=
    (lawful.decode_object .nil _).mpr fun field listed => by
      rw [lawful.get_fresh field listed]
      rfl
  have merged := lawful.decode_mergeMembers sound .nil (fun _ _ _ found => by cases found) blank
  rw [lawful.overlay_fresh] at merged
  rw [lawful.toJson_members, merge]
  exact merged

/-- A record that is merged into a stored one is laid over it. -/
theorem Lawful.decode_merge {stored : Json} {value old : ρ} (sound : record.IsSound value)
    (canonical : stored.Canonical) (records : stored.HasRecordsAt record.paths)
    (decoded : record.decode (document stored) = .ok old) :
    record.decode (document (merge (record.toJson value) stored)) = .ok (record.overlay value old) := by
  obtain ⟨members, rfl⟩ := lawful.object_of_decode decoded (records [] (by simp [paths]) _ rfl)
  rw [Canonical] at canonical
  rw [lawful.toJson_members, merge]
  refine lawful.decode_mergeMembers sound canonical.1 (fun field listed part found => ?_) decoded
  refine ⟨canonical.2.get? found, fun path deeper inner reached => ?_⟩
  refine records (field.name :: path) ?_ inner ?_
  · refine List.mem_cons_of_mem _ (List.mem_flatMap.mpr ⟨field, listed, ?_⟩)
    exact List.mem_map_of_mem deeper
  · have member : (Json.object members).get? field.name = some part := found
    rw [at?, member]
    exact reached

end Record

section Nested

variable {record : Record α} (lawful : record.Lawful) {value : α}

include lawful

private theorem Record.Lawful.isNull_merge (target : Json) :
    (merge (record.toJson value) target).isNull = false := by
  rw [lawful.toJson_members, merge]
  rfl

theorem Record.Lawful.isNull_toJson : (record.toJson value).isNull = false := by
  rw [lawful.toJson_members]
  rfl

private theorem Record.Lawful.nested_reads {value : Option α}
    (sound : ∀ inner, value = some inner → record.IsSound inner) :
    readMember none (Decode.nullable record.decode) (value.map record.toJson) = .ok value := by
  cases value with
  | none => rfl
  | some value =>
    change Decode.nullable record.decode (document (record.toJson value)) = _
    rw [Field.nullable_of_present lawful.isNull_toJson, lawful.decode_toJson (sound value rfl)]
    rfl

/-- A record that may be unset is laid over the stored one, if both are there. -/
theorem Record.Lawful.nested_merges {value old : Option α} {member : Option Json}
    (sound : ∀ inner, value = some inner → record.IsSound inner)
    (plain : ∀ stored, member = some stored → stored.Canonical ∧ stored.HasRecordsAt record.paths)
    (read : readMember none (Decode.nullable record.decode) member = .ok old) :
    readMember none (Decode.nullable record.decode) (mergeMember (value.map record.toJson) member) =
      .ok (Option.merge record.overlay value old) := by
  cases value with
  | none =>
    rw [Option.merge_none_left]
    exact read
  | some value =>
    have sound := sound value rfl
    have alone : (Decode.nullable record.decode (document (merge (record.toJson value) .null))) =
        .ok (some value) := by
      rw [Field.nullable_of_present (lawful.isNull_merge _), lawful.decode_merge_null sound]
      rfl
    simp only [Option.map_some, mergeMember, lawful.isNull_toJson, Bool.false_eq_true, if_false,
      readMember]
    cases member with
    | none =>
      cases read
      exact alone
    | some stored =>
      by_cases absent : stored = .null
      · subst absent
        cases read
        exact alone
      · have present : stored.isNull = false := by
          cases stored with
          | null => exact absurd rfl absent
          | _ => rfl
        change Decode.nullable record.decode (document stored) = _ at read
        rw [Field.nullable_of_present present] at read
        cases decoded : record.decode (document stored) with
        | error error =>
          rw [decoded] at read
          cases read
        | ok inner =>
          rw [decoded] at read
          cases read
          obtain ⟨canonical, records⟩ := plain stored rfl
          rw [Option.getD_some, Field.nullable_of_present (lawful.isNull_merge _),
            lawful.decode_merge sound canonical records decoded]
          rfl

end Nested

def Field.nested (name : String) (get : ρ → Option α) (record : Record α) : Field ρ where
  name
  Value := Option α
  get
  absent := none
  decode := Decode.nullable record.decode
  write value := value.map record.toJson
  overlay := Option.merge record.overlay
  Covers value old :=
    ∀ earlier, old = some earlier → ∃ inner, value = some inner ∧ record.Covers inner earlier
  IsSound value := ∀ inner, value = some inner → record.IsSound inner
  records := record.paths

theorem Field.nested_lawful {name : String} {get : ρ → Option α} {record : Record α}
    (lawful : record.Lawful) : (nested name get record).Lawful where
  present written := by
    obtain ⟨value, -, rfl⟩ := Option.map_eq_some_iff.mp written
    exact lawful.isNull_toJson
  reads := lawful.nested_reads
  merges := lawful.nested_merges
  keeps unwritten := by
    rw [Option.map_eq_none_iff.mp unwritten]
    exact Option.merge_none_left
  overlay_eq_iff {value old} := by
    cases value <;> cases old <;> simp [nested, lawful.overlay_eq_iff]

end KeySteward.Json
