import KeySteward.Proofs.StatusRecords

/-! The specs of the four kinds as they are laid out in an object. Unlike a status, a spec has members
that may not be missing, and maps in it are written as lists or as objects and left out when they are
empty. Every spec is read back from what is written of it. -/

namespace KeySteward

open Json

namespace Json

variable {α ρ : Type}

/-- A slot of an object that holds a record: what is read of it, and the member that is written, if one
is. -/
structure Slot (ρ : Type) where
  name : String
  Value : Type
  get : ρ → Value
  read : Fields → Except DecodeError Value
  write : Value → Option Json

namespace Slot

/-- What is written in the slot is read back. -/
def Lawful (slot : Slot ρ) : Prop :=
  ∀ {value : slot.Value} {found : Fields},
    Entries.get? slot.name found = (slot.write value).map document → slot.read found = .ok value

def required (name : String) (get : ρ → α) (decode : Decoder α) (write : α → Json) : Slot ρ where
  name
  Value := α
  get
  read found := found.required name decode
  write value := some (write value)

private theorem required_lawful {name : String} {get : ρ → α} {decode : Decoder α} {write : α → Json}
    (reads : ∀ value, decode (document (write value)) = .ok value) :
    (required name get decode write).Lawful := by
  change ∀ {value : α} {found : Fields}, Entries.get? name found = some (document (write value)) →
    found.required name decode = .ok value
  intro value found look
  rw [Fields.required, look]
  exact reads value

def map (name : String) (get : ρ → SortedMap α) (decode : Decoder (SortedMap α))
    (write : SortedMap α → Json) : Slot ρ where
  name
  Value := SortedMap α
  get
  read found := found.orElse name {} decode
  write value := if value.isEmpty then none else some (write value)

private theorem map_lawful {name : String} {get : ρ → SortedMap α} {decode : Decoder (SortedMap α)}
    {write : SortedMap α → Json} (reads : ∀ value, decode (document (write value)) = .ok value) :
    (map name get decode write).Lawful := by
  change ∀ {value : SortedMap α} {found : Fields}, Entries.get? name found =
    (if value.isEmpty then none else some (write value)).map document →
    found.orElse name {} decode = .ok value
  intro value found look
  rw [Fields.orElse_eq look]
  split
  next empty =>
    obtain ⟨entries, _⟩ := value
    obtain rfl : entries = [] := List.isEmpty_iff.mp empty
    rfl
  next => exact reads value

def field (field : Field ρ) : Slot ρ where
  name := field.name
  Value := field.Value
  get := field.get
  read found := found.orElse field.name field.absent field.decode
  write := field.write

private theorem field_lawful {field : Field ρ} (lawful : field.Lawful)
    (sound : ∀ value, field.IsSound value) :
    (Slot.field field).Lawful := by
  change ∀ {value : field.Value} {found : Fields},
    Entries.get? field.name found = (field.write value).map document →
    found.orElse field.name field.absent field.decode = .ok value
  intro value found look
  rw [Fields.orElse_eq look]
  exact lawful.reads (sound value)

private theorem text_lawful (name : String) (get : ρ → Option String) :
    (Slot.field (.text name get)).Lawful :=
  field_lawful (Field.text_lawful name get) fun _ _ _ => trivial

private theorem flag_lawful (name : String) (get : ρ → Option Bool) :
    (Slot.field (.flag name get)).Lawful :=
  field_lawful (Field.flag_lawful name get) fun _ _ _ => trivial

private theorem texts_lawful (name : String) (get : ρ → List String) :
    (Slot.field (.texts name get)).Lawful :=
  field_lawful (Field.texts_lawful name get) fun _ _ _ => trivial

end Slot

/-- How a record is laid out in an object. -/
structure Layout (ρ : Type) where
  slots : List (Slot ρ)
  decode : Decoder ρ
  toJson : ρ → Json

namespace Layout

structure Lawful (layout : Layout ρ) : Prop where
  distinct : (layout.slots.map Slot.name).Nodup
  toJson_eq : ∀ value, layout.toJson value =
    .record (layout.slots.map fun slot => (slot.name, slot.write (slot.get value)))
  decode_iff : ∀ document value, layout.decode document = .ok value ↔
    ∃ found, Fields.read (layout.slots.map Slot.name) document = .ok found ∧
      ∀ slot ∈ layout.slots, slot.read found = .ok (slot.get value)
  slots : ∀ slot ∈ layout.slots, slot.Lawful

theorem Lawful.decode_toJson {layout : Layout ρ} (lawful : layout.Lawful) (value : ρ) :
    layout.decode (document (layout.toJson value)) = .ok value := by
  let members := layout.slots.map fun slot => (slot.name, slot.write (slot.get value))
  have names : members.map Prod.fst = layout.slots.map Slot.name := by
    simp [members]
  have distinct : (members.map Prod.fst).Nodup := names ▸ lawful.distinct
  obtain ⟨found, reading, looks⟩ := Fields.read_record (layout.slots.map Slot.name) distinct
  rw [lawful.toJson_eq]
  refine (lawful.decode_iff _ _).mpr ⟨found, reading, fun slot listed => ?_⟩
  refine lawful.slots slot listed ?_
  have written : Entries.get? slot.name members = some (slot.write (slot.get value)) :=
    (Entries.get?_eq_some_iff distinct).mpr (List.mem_map_of_mem listed)
  rw [looks _ (List.mem_map_of_mem listed), written]
  rfl

end Layout

def Slot.nested (name : String) (get : ρ → Option α) (layout : Layout α) : Slot ρ where
  name
  Value := Option α
  get
  read found := found.optional name layout.decode
  write value := value.map layout.toJson

private theorem Slot.nested_lawful {name : String} {get : ρ → Option α} {layout : Layout α}
    (lawful : layout.Lawful) : (Slot.nested name get layout).Lawful := by
  change ∀ {value : Option α} {found : Fields},
    Entries.get? name found = (value.map layout.toJson).map document →
    found.optional name layout.decode = .ok value
  intro value found look
  rw [Fields.optional, Fields.orElse_eq look]
  cases value with
  | none => rfl
  | some value =>
    have present : (layout.toJson value).isNull = false := by
      rw [lawful.toJson_eq]
      rfl
    exact (Field.readMember_nullable present _).mpr ⟨value, lawful.decode_toJson value, rfl⟩

end Json

/-! ### Maps -/

private theorem Tag.decode_toJson (tag : Tag) : decode (document tag.toJson) = .ok tag := rfl

theorem TagMap.decode_tags (tags : List Tag) :
    decode (document (.array (tags.map Tag.toJson))) = .ok (ofTags tags) := by
  have read : Decode.list Tag.decode (document (.array (tags.map Tag.toJson))) = .ok tags :=
    Field.array_reads fun tag _ => tag.decode_toJson
  have nullable : Decode.nullable (Decode.list Tag.decode) (document (.array (tags.map Tag.toJson))) =
      .ok (some tags) :=
    (Field.nullable_of_present rfl).trans (congrArg (Except.map some) read)
  rw [decode, nullable]
  rfl

theorem TagMap.decode_toJson (tags : TagMap) : decode (document tags.toJson) = .ok tags :=
  (decode_tags tags.toTags).trans (congrArg Except.ok tags.ofTags_toTags)

private theorem Json.mapM_memberDocuments
    {read : Option String × Document → Except DecodeError (String × String)}
    (reads : ∀ name text, read (some name, .string text) = .ok (name, text))
    (entries : List (String × String)) :
    (memberDocuments (entries.map fun entry => (entry.1, .string entry.2))).mapM read =
      .ok entries := by
  induction entries with
  | nil => rfl
  | cons entry rest ih =>
    rw [List.map_cons, memberDocuments, List.mapM_cons, ih, document, reads]
    rfl

private theorem SortedMap.decode_ofTexts (texts : SortedMap String) :
    Decode.mapping Decode.text (document (.ofTexts texts)) = .ok texts := by
  change (do return SortedMap.ofList (← (memberDocuments _).mapM _) :
    Except DecodeError (SortedMap String)) = _
  rw [mapM_memberDocuments (fun _ _ => rfl) texts.entries]
  exact congrArg Except.ok texts.ofList_entries

/-! ### Specs -/

namespace KeySpec

def layout : Layout KeySpec where
  slots := [
    .field (.flag "bypassPolicyLockoutSafetyCheck" bypassPolicyLockoutSafetyCheck),
    .field (.text "customKeyStoreID" customKeyStoreId),
    .field (.text "description" description),
    .field (.flag "enableKeyRotation" enableKeyRotation),
    .field (.text "keySpec" keySpec),
    .field (.text "keyUsage" keyUsage),
    .field (.flag "multiRegion" multiRegion),
    .field (.text "origin" origin),
    .field (.text "policy" policy),
    .map "tags" tags TagMap.decode TagMap.toJson]
  decode := decode
  toJson := toJson

theorem layout_lawful : layout.Lawful where
  distinct := by decide
  toJson_eq _ := rfl
  decode_iff document value := by
    cases value
    simp [layout, Slot.field, Slot.map, Field.optional, decode, bind_eq_ok, Fields.optional, pure,
      Except.pure]
  slots := by
    simp only [layout, List.forall_mem_cons]
    exact ⟨Slot.flag_lawful _ _, Slot.text_lawful _ _, Slot.text_lawful _ _, Slot.flag_lawful _ _,
      Slot.text_lawful _ _, Slot.text_lawful _ _, Slot.flag_lawful _ _, Slot.text_lawful _ _,
      Slot.text_lawful _ _, Slot.map_lawful TagMap.decode_toJson, List.forall_mem_nil _⟩

end KeySpec

namespace ReplicaKeySpec

def layout : Layout ReplicaKeySpec where
  slots := [
    .field (.text "keyID" keyId),
    .required "replicaRegion" replicaRegion Decode.text .string,
    .field (.text "description" description),
    .field (.text "policy" policy),
    .field (.flag "bypassPolicyLockoutSafetyCheck" bypassPolicyLockoutSafetyCheck),
    .map "tags" tags TagMap.decode TagMap.toJson]
  decode := decode
  toJson := toJson

theorem layout_lawful : layout.Lawful where
  distinct := by decide
  toJson_eq _ := rfl
  decode_iff document value := by
    cases value
    simp [layout, Slot.field, Slot.required, Slot.map, Field.optional, decode, bind_eq_ok,
      Fields.optional, pure, Except.pure]
  slots := by
    simp only [layout, List.forall_mem_cons]
    exact ⟨Slot.text_lawful _ _, Slot.required_lawful fun _ => rfl, Slot.text_lawful _ _,
      Slot.text_lawful _ _, Slot.flag_lawful _ _, Slot.map_lawful TagMap.decode_toJson,
      List.forall_mem_nil _⟩

end ReplicaKeySpec

namespace AliasSpec

def layout : Layout AliasSpec where
  slots := [
    .required "name" name Decode.text .string,
    .field (.text "targetKeyID" targetKeyId)]
  decode := decode
  toJson := toJson

theorem layout_lawful : layout.Lawful where
  distinct := by decide
  toJson_eq _ := rfl
  decode_iff document value := by
    cases value
    simp [layout, Slot.field, Slot.required, Field.optional, decode, bind_eq_ok, Fields.optional, pure,
      Except.pure]
  slots := by
    simp only [layout, List.forall_mem_cons]
    exact ⟨Slot.required_lawful fun _ => rfl, Slot.text_lawful _ _, List.forall_mem_nil _⟩

end AliasSpec

namespace GrantConstraints

def layout : Layout GrantConstraints where
  slots := [
    .map "encryptionContextEquals" encryptionContextEquals (Decode.mapping Decode.text) .ofTexts,
    .map "encryptionContextSubset" encryptionContextSubset (Decode.mapping Decode.text) .ofTexts]
  decode := decode
  toJson := toJson

theorem layout_lawful : layout.Lawful where
  distinct := by decide
  toJson_eq _ := rfl
  decode_iff document value := by
    cases value
    simp [layout, Slot.map, decode, bind_eq_ok, pure, Except.pure]
  slots := by
    simp only [layout, List.forall_mem_cons]
    exact ⟨Slot.map_lawful SortedMap.decode_ofTexts, Slot.map_lawful SortedMap.decode_ofTexts,
      List.forall_mem_nil _⟩

end GrantConstraints

namespace GrantSpec

def layout : Layout GrantSpec where
  slots := [
    .nested "constraints" constraints GrantConstraints.layout,
    .field (.texts "grantTokens" grantTokens),
    .required "granteePrincipal" granteePrincipal Decode.text .string,
    .field (.text "keyID" keyId),
    .field (.text "name" name),
    .required "operations" operations Decode.texts .ofStrings,
    .field (.text "retiringPrincipal" retiringPrincipal)]
  decode := decode
  toJson := toJson

theorem layout_lawful : layout.Lawful where
  distinct := by decide
  toJson_eq _ := rfl
  decode_iff document value := by
    cases value
    simp [layout, Slot.field, Slot.required, Slot.nested, GrantConstraints.layout, Field.optional,
      Field.listed, decode, bind_eq_ok, Fields.optional, Decode.texts, pure, Except.pure]
  slots := by
    simp only [layout, List.forall_mem_cons]
    have operations (names : List String) : Decode.texts (document (.ofStrings names)) = .ok names :=
      Field.array_reads fun _ _ => rfl
    exact ⟨Slot.nested_lawful GrantConstraints.layout_lawful, Slot.texts_lawful _ _,
      Slot.required_lawful fun _ => rfl, Slot.text_lawful _ _, Slot.text_lawful _ _,
      Slot.required_lawful operations, Slot.text_lawful _ _, List.forall_mem_nil _⟩

end GrantSpec

end KeySteward
