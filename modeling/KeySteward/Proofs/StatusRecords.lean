import KeySteward.Proofs.MergedRecords
import KeySteward.Proofs.PassVerdicts
import KeySteward.Proofs.WrittenTimes

/-! The statuses of the four kinds as records: their fields, and what is read back of them. -/

namespace KeySteward

open Json

/-! ### Kinds of fields -/

/-- All times in the conditions are proper. -/
def Conditions.IsProper (conditions : Conditions) : Prop :=
  ∀ condition ∈ conditions.toList, ∀ time ∈ condition.state.lastTransitionTime, time.IsProper

instance (conditions : Conditions) : Decidable conditions.IsProper :=
  inferInstanceAs (Decidable (∀ condition ∈ conditions.toList,
    ∀ time ∈ condition.state.lastTransitionTime, time.IsProper))

namespace Json

theorem bind_eq_ok {α β : Type} {first : Except DecodeError α} {next : α → Except DecodeError β}
    {value : β} :
    (first >>= next) = .ok value ↔ ∃ middle, first = .ok middle ∧ next middle = .ok value := by
  cases first <;> simp [bind, Except.bind]

mutual
theorem value?_document : (value : Json) → ∃ same, (document value).value? = some same
  | null => ⟨_, rfl⟩
  | bool _ => ⟨_, rfl⟩
  | number _ => ⟨_, rfl⟩
  | string _ => ⟨_, rfl⟩
  | array items => by
    obtain ⟨same, read⟩ := itemValues?_documents items
    exact ⟨_, by rw [document, Document.value?, read]; rfl⟩
  | object members => by
    obtain ⟨same, read⟩ := memberValues?_documents members
    exact ⟨_, by rw [document, Document.value?, read]; rfl⟩
theorem itemValues?_documents : (items : List Json) →
    ∃ same, Document.itemValues? (itemDocuments items) = some same
  | [] => ⟨_, rfl⟩
  | item :: rest => by
    obtain ⟨first, readFirst⟩ := value?_document item
    obtain ⟨others, readOthers⟩ := itemValues?_documents rest
    exact ⟨_, by rw [itemDocuments, Document.itemValues?, readFirst, readOthers]; rfl⟩
theorem memberValues?_documents : (members : List (String × Json)) →
    ∃ same, Document.memberValues? (memberDocuments members) = some same
  | [] => ⟨_, rfl⟩
  | (name, value) :: rest => by
    obtain ⟨first, readFirst⟩ := value?_document value
    obtain ⟨others, readOthers⟩ := memberValues?_documents rest
    exact ⟨_, by rw [memberDocuments, Document.memberValues?, readFirst, readOthers]; rfl⟩
end

private theorem decode_time {time : Timestamp} (proper : time.IsProper) :
    Decode.timestamp (document (.string time.render)) = .ok time := by
  simp only [Decode.timestamp, document, Decode.text, bind, Except.bind, Timestamp.parse?_render proper]
  rfl

private theorem decode_variant {α : Type} {read : String → Option α} {name : String} {value : α}
    (found : read name = some value) : Decode.variant read (document (.string name)) = .ok value := by
  simp only [Decode.variant, document, pure_bind, found]
  rfl

namespace Field

variable {ρ : Type} (name : String)

@[simp] def text (get : ρ → Option String) : Field ρ :=
  optional name get Decode.text .string fun _ => True

@[simp] def flag (get : ρ → Option Bool) : Field ρ :=
  optional name get Decode.flag .bool fun _ => True

@[simp] def integer (get : ρ → Option Int) : Field ρ :=
  optional name get Decode.integer .ofInt fun value => value ≤ Text.greatestInteger

@[simp] def time (get : ρ → Option Timestamp) : Field ρ :=
  optional name get Decode.timestamp (fun time => .string time.render) Timestamp.IsProper

@[simp] def keyState (get : ρ → Option KeyState) : Field ρ :=
  optional name get KeyState.decode (fun state => .string state.name) fun _ => True

@[simp] def texts (get : ρ → List String) : Field ρ :=
  listed name get Decode.text .string fun _ => True

@[simp] def conditions (get : ρ → Conditions) : Field ρ :=
  always name get {} Conditions.decode Conditions.toJson Conditions.IsProper

private theorem replaces_string (text : String) : Replaces (.string text) :=
  replaces_of_ne_object rfl (by simp)

theorem text_lawful (get : ρ → Option String) : (text name get).Lawful :=
  optional_lawful replaces_string fun _ _ => rfl

theorem flag_lawful (get : ρ → Option Bool) : (flag name get).Lawful :=
  optional_lawful (fun _ => replaces_of_ne_object rfl (by simp)) fun _ _ => rfl

private theorem integer_lawful (get : ρ → Option Int) : (integer name get).Lawful :=
  optional_lawful (fun _ => replaces_of_ne_object rfl (by simp [ofInt])) fun value small => by
    change (if value ≤ Text.greatestInteger then _ else _) = _
    rw [if_pos small]

private theorem time_lawful (get : ρ → Option Timestamp) : (time name get).Lawful :=
  optional_lawful (fun _ => replaces_string _) fun _ => decode_time

private theorem keyState_lawful (get : ρ → Option KeyState) : (keyState name get).Lawful :=
  optional_lawful (fun _ => replaces_string _) fun state _ => decode_variant state.ofName?_name

theorem texts_lawful (get : ρ → List String) : (texts name get).Lawful :=
  listed_lawful fun _ _ => rfl

end Field

end Json

/-! ### Conditions -/

theorem ConditionType.ofName?_name (type : ConditionType) : ofName? type.name = some type := by
  cases type <;> rfl

private theorem ConditionStatus.ofName?_name (status : ConditionStatus) :
    ofName? status.name = some status := by
  cases status <;> rfl

private theorem Condition.decode_toJson {condition : Condition}
    (proper : ∀ time ∈ condition.state.lastTransitionTime, time.IsProper) :
    decode (document condition.toJson) = .ok condition := by
  obtain ⟨type, status, lastTransitionTime, reason, message⟩ := condition
  let members : List (String × Option Json) := [
    ("type", some (.string type.name)),
    ("status", some (.string status.name)),
    ("lastTransitionTime", lastTransitionTime.map fun time => .string time.render),
    ("reason", reason.map .string),
    ("message", message.map .string)]
  have distinct : (members.map Prod.fst).Nodup := by
    simp [members]
  obtain ⟨found, reading, known⟩ := Fields.read_record
    ["type", "status", "lastTransitionTime", "reason", "message"] distinct
  have readTime : found.optional "lastTransitionTime" Decode.timestamp = .ok lastTransitionTime :=
    (Fields.orElse_eq (known _ (by simp)) _ _).trans ((Field.time_lawful "" id).reads proper)
  have readReason : found.optional "reason" Decode.text = .ok reason :=
    (Fields.orElse_eq (known _ (by simp)) _ _).trans ((Field.text_lawful "" id).reads fun _ _ => trivial)
  have readMessage : found.optional "message" Decode.text = .ok message :=
    (Fields.orElse_eq (known _ (by simp)) _ _).trans ((Field.text_lawful "" id).reads fun _ _ => trivial)
  have readType : found.required "type" ConditionType.decode = .ok type := by
    rw [Fields.required, known _ (by simp)]
    exact decode_variant type.ofName?_name
  have readStatus : found.required "status" ConditionStatus.decode = .ok status := by
    rw [Fields.required, known _ (by simp)]
    exact decode_variant status.ofName?_name
  change decode (document (.record members)) = _
  simp only [decode, reading, readType, readStatus, readTime, readReason, readMessage, bind, Except.bind]
  rfl

private theorem Conditions.ofList_toList (conditions : Conditions) :
    ofList conditions.toList = conditions := by
  obtain ⟨_ | _, _ | _, _ | _⟩ := conditions <;> rfl

theorem Conditions.decode_toJson {conditions : Conditions} (proper : conditions.IsProper) :
    decode (document conditions.toJson) = .ok conditions := by
  have entries : ∀ condition ∈ conditions.toList, entry? (document condition.toJson) =
      .ok (some condition) := by
    intro condition listed
    obtain ⟨same, readable⟩ := value?_document condition.toJson
    rw [ entry?, readable, Condition.decode_toJson (proper condition listed)]
    rfl
  have read : Decode.nullable (Decode.list entry?) (document conditions.toJson) =
      .ok (some (conditions.toList.map some)) := by
    change (Decode.list entry? (document (.array _))).map some = _
    rw [Field.list_reads entries]
    rfl
  have present : (conditions.toList.map some).filterMap id = conditions.toList := by
    simp [List.filterMap_map]
  rw [decode, read]
  change Except.ok (ofList ((conditions.toList.map some).filterMap id)) = _
  rw [present, ofList_toList]

private theorem Json.Field.conditions_lawful {ρ : Type} (name : String) (get : ρ → Conditions) :
    (conditions name get).Lawful :=
  always_lawful (fun _ => replaces_array _) fun _ => Conditions.decode_toJson

/-! ### Records -/

namespace Ownership

def overlay (value old : Ownership) : Ownership where
  arn := value.arn.or old.arn
  ownerAccountId := value.ownerAccountId.or old.ownerAccountId
  region := value.region.or old.region

def record : Record Ownership where
  fields := [
    .text "arn" arn,
    .text "ownerAccountID" ownerAccountId,
    .text "region" region]
  decode := decode
  toJson := toJson
  fresh := {}
  overlay := overlay

theorem record_lawful : record.Lawful where
  distinct := by decide
  toJson_eq _ := rfl
  decode_iff document value := by
    cases value
    simp [record, decode, bind_eq_ok, Field.optional, Fields.optional, pure, Except.pure]
  get_fresh := by simp [record, Field.optional]
  get_overlay value old := by simp [record, overlay, Field.optional]
  overlay_fresh value := by simp [record, overlay]
  ext {value other} same := by
    cases value
    cases other
    simpa [record, Field.optional, Field.nested, Field.always, Field.listed] using same
  fields := by
    simp only [record, List.forall_mem_cons]
    exact ⟨Field.text_lawful _ _, Field.text_lawful _ _, Field.text_lawful _ _, List.forall_mem_nil _⟩

end Ownership

namespace MultiRegion

def overlayReference (value old : KeyReference) : KeyReference where
  arn := value.arn.or old.arn
  region := value.region.or old.region

def referenceRecord : Record KeyReference where
  fields := [
    .text "arn" KeyReference.arn,
    .text "region" KeyReference.region]
  decode := decodeReference .resource
  toJson := referenceToJson
  fresh := {}
  overlay := overlayReference

theorem referenceRecord_lawful : referenceRecord.Lawful where
  distinct := by decide
  toJson_eq _ := rfl
  decode_iff document value := by
    cases value
    simp [referenceRecord, decodeReference, Spelling.resource, bind_eq_ok, Field.optional,
      Fields.optional, pure, Except.pure]
  get_fresh := by simp [referenceRecord, Field.optional]
  get_overlay value old := by simp [referenceRecord, overlayReference, Field.optional]
  overlay_fresh value := by simp [referenceRecord, overlayReference]
  ext {value other} same := by
    cases value
    cases other
    simpa [referenceRecord, Field.optional, Field.nested, Field.always, Field.listed] using same
  fields := by
    simp only [referenceRecord, List.forall_mem_cons]
    exact ⟨Field.text_lawful _ _, Field.text_lawful _ _, List.forall_mem_nil _⟩

def overlay (value old : MultiRegion) : MultiRegion where
  keyType := value.keyType.or old.keyType
  primaryKey := Option.merge overlayReference value.primaryKey old.primaryKey
  replicaKeys := Field.unlessEmpty value.replicaKeys old.replicaKeys

def record : Record MultiRegion where
  fields := [
    .text "multiRegionKeyType" keyType,
    .nested "primaryKey" primaryKey referenceRecord,
    .listed "replicaKeys" replicaKeys (decodeReference .resource) referenceToJson fun _ => True]
  decode := decode .resource
  toJson := toJson
  fresh := {}
  overlay := overlay

theorem record_lawful : record.Lawful where
  distinct := by decide
  toJson_eq _ := rfl
  decode_iff document value := by
    cases value
    simp [record, referenceRecord, decode, Spelling.resource, bind_eq_ok, Field.optional, Field.nested,
      Field.listed, Fields.optional, pure, Except.pure]
  get_fresh := by simp [record, Field.optional, Field.nested, Field.listed]
  get_overlay value old := by
    simp [record, overlay, referenceRecord, Field.optional, Field.nested, Field.listed]
  overlay_fresh value := by simp [record, overlay]
  ext {value other} same := by
    cases value
    cases other
    simpa [record, Field.optional, Field.nested, Field.always, Field.listed] using same
  fields := by
    have reads (reference : KeyReference) :
        decodeReference .resource (document (referenceToJson reference)) = .ok reference :=
      referenceRecord_lawful.decode_toJson (by simp [Record.IsSound, referenceRecord, Field.optional])
    simp only [record, List.forall_mem_cons]
    exact ⟨Field.text_lawful _ _, Field.nested_lawful referenceRecord_lawful,
      Field.listed_lawful fun reference _ => reads reference, List.forall_mem_nil _⟩

end MultiRegion

namespace ReplicaKeyMetadata

def overlay (value old : ReplicaKeyMetadata) : ReplicaKeyMetadata where
  awsAccountId := value.awsAccountId.or old.awsAccountId
  arn := value.arn.or old.arn
  creationDate := value.creationDate.or old.creationDate
  deletionDate := value.deletionDate.or old.deletionDate
  description := value.description.or old.description
  enabled := value.enabled.or old.enabled
  keyId := value.keyId.or old.keyId
  keySpec := value.keySpec.or old.keySpec
  keyState := value.keyState.or old.keyState
  keyUsage := value.keyUsage.or old.keyUsage
  multiRegionConfiguration :=
    Option.merge MultiRegion.overlay value.multiRegionConfiguration old.multiRegionConfiguration
  origin := value.origin.or old.origin
  pendingDeletionWindowInDays := value.pendingDeletionWindowInDays.or old.pendingDeletionWindowInDays

def record : Record ReplicaKeyMetadata where
  fields := [
    .text "awsAccountID" awsAccountId,
    .text "arn" arn,
    .time "creationDate" creationDate,
    .time "deletionDate" deletionDate,
    .text "description" description,
    .flag "enabled" enabled,
    .text "keyID" keyId,
    .text "keySpec" keySpec,
    .keyState "keyState" keyState,
    .text "keyUsage" keyUsage,
    .nested "multiRegionConfiguration" multiRegionConfiguration MultiRegion.record,
    .text "origin" origin,
    .integer "pendingDeletionWindowInDays" pendingDeletionWindowInDays]
  decode := decode
  toJson := toJson
  fresh := {}
  overlay := overlay

theorem record_lawful : record.Lawful where
  distinct := by decide
  toJson_eq _ := rfl
  decode_iff document value := by
    cases value
    simp [record, MultiRegion.record, decode, bind_eq_ok, Field.optional, Field.nested,
      Fields.optional, pure, Except.pure]
  get_fresh := by simp [record, Field.optional, Field.nested]
  get_overlay value old := by simp [record, overlay, MultiRegion.record, Field.optional, Field.nested]
  overlay_fresh value := by simp [record, overlay]
  ext {value other} same := by
    cases value
    cases other
    simpa [record, Field.optional, Field.nested, Field.always, Field.listed] using same
  fields := by
    simp only [record, List.forall_mem_cons]
    exact ⟨Field.text_lawful _ _, Field.text_lawful _ _, Field.time_lawful _ _, Field.time_lawful _ _,
      Field.text_lawful _ _, Field.flag_lawful _ _, Field.text_lawful _ _, Field.text_lawful _ _,
      Field.keyState_lawful _ _, Field.text_lawful _ _, Field.nested_lawful MultiRegion.record_lawful,
      Field.text_lawful _ _, Field.integer_lawful _ _, List.forall_mem_nil _⟩

end ReplicaKeyMetadata

namespace KeyStatus

def overlay (value old : KeyStatus) : KeyStatus where
  ownership := Option.merge Ownership.overlay value.ownership old.ownership
  conditions := value.conditions
  awsAccountId := value.awsAccountId.or old.awsAccountId
  cloudHsmClusterId := value.cloudHsmClusterId.or old.cloudHsmClusterId
  creationDate := value.creationDate.or old.creationDate
  deletionDate := value.deletionDate.or old.deletionDate
  enabled := value.enabled.or old.enabled
  encryptionAlgorithms := Field.unlessEmpty value.encryptionAlgorithms old.encryptionAlgorithms
  expirationModel := value.expirationModel.or old.expirationModel
  keyId := value.keyId.or old.keyId
  keyManager := value.keyManager.or old.keyManager
  keyState := value.keyState.or old.keyState
  macAlgorithms := Field.unlessEmpty value.macAlgorithms old.macAlgorithms
  multiRegionConfiguration :=
    Option.merge MultiRegion.overlay value.multiRegionConfiguration old.multiRegionConfiguration
  pendingDeletionWindowInDays := value.pendingDeletionWindowInDays.or old.pendingDeletionWindowInDays
  signingAlgorithms := Field.unlessEmpty value.signingAlgorithms old.signingAlgorithms
  validTo := value.validTo.or old.validTo

def record : Record KeyStatus where
  fields := [
    .nested "ackResourceMetadata" ownership Ownership.record,
    .conditions "conditions" conditions,
    .text "awsAccountID" awsAccountId,
    .text "cloudHsmClusterID" cloudHsmClusterId,
    .time "creationDate" creationDate,
    .time "deletionDate" deletionDate,
    .flag "enabled" enabled,
    .texts "encryptionAlgorithms" encryptionAlgorithms,
    .text "expirationModel" expirationModel,
    .text "keyID" keyId,
    .text "keyManager" keyManager,
    .keyState "keyState" keyState,
    .texts "macAlgorithms" macAlgorithms,
    .nested "multiRegionConfiguration" multiRegionConfiguration MultiRegion.record,
    .integer "pendingDeletionWindowInDays" pendingDeletionWindowInDays,
    .texts "signingAlgorithms" signingAlgorithms,
    .time "validTo" validTo]
  decode := decode
  toJson := toJson
  fresh := {}
  overlay := overlay

theorem record_lawful : record.Lawful where
  distinct := by decide
  toJson_eq _ := rfl
  decode_iff document value := by
    cases value
    simp [record, Ownership.record, MultiRegion.record, decode, Decode.texts, bind_eq_ok,
      Field.optional, Field.nested, Field.always, Field.listed, Fields.optional, pure, Except.pure]
  get_fresh := by simp [record, Field.optional, Field.nested, Field.always, Field.listed]
  get_overlay value old := by
    simp [record, overlay, Ownership.record, MultiRegion.record, Field.optional, Field.nested,
      Field.always, Field.listed]
  overlay_fresh value := by simp [record, overlay]
  ext {value other} same := by
    cases value
    cases other
    simpa [record, Field.optional, Field.nested, Field.always, Field.listed] using same
  fields := by
    simp only [record, List.forall_mem_cons]
    exact ⟨Field.nested_lawful Ownership.record_lawful, Field.conditions_lawful _ _,
      Field.text_lawful _ _, Field.text_lawful _ _, Field.time_lawful _ _, Field.time_lawful _ _,
      Field.flag_lawful _ _, Field.texts_lawful _ _, Field.text_lawful _ _, Field.text_lawful _ _,
      Field.text_lawful _ _, Field.keyState_lawful _ _, Field.texts_lawful _ _,
      Field.nested_lawful MultiRegion.record_lawful, Field.integer_lawful _ _, Field.texts_lawful _ _,
      Field.time_lawful _ _, List.forall_mem_nil _⟩

theorem isSound_iff {status : KeyStatus} : record.IsSound status ↔
    status.conditions.IsProper ∧ (∀ time ∈ status.creationDate, time.IsProper) ∧
      (∀ time ∈ status.deletionDate, time.IsProper) ∧
      (∀ days ∈ status.pendingDeletionWindowInDays, days ≤ Text.greatestInteger) ∧
      ∀ time ∈ status.validTo, time.IsProper := by
  simp [Record.IsSound, record, Ownership.record, MultiRegion.record, MultiRegion.referenceRecord,
    Field.optional, Field.nested, Field.always, Field.listed]

end KeyStatus

namespace ReplicaKeyStatus

def overlay (value old : ReplicaKeyStatus) : ReplicaKeyStatus where
  conditions := value.conditions
  replica := Option.merge ReplicaKeyMetadata.overlay value.replica old.replica
  policy := value.policy.or old.policy

def record : Record ReplicaKeyStatus where
  fields := [
    .conditions "conditions" conditions,
    .nested "replicaKeyMetadata" replica ReplicaKeyMetadata.record,
    .text "replicaPolicy" policy]
  decode := decode
  toJson := toJson
  fresh := {}
  overlay := overlay

theorem record_lawful : record.Lawful where
  distinct := by decide
  toJson_eq _ := rfl
  decode_iff document value := by
    cases value
    simp [record, ReplicaKeyMetadata.record, decode, bind_eq_ok, Field.optional, Field.nested,
      Field.always, Fields.optional, pure, Except.pure]
  get_fresh := by simp [record, Field.optional, Field.nested, Field.always]
  get_overlay value old := by
    simp [record, overlay, ReplicaKeyMetadata.record, Field.optional, Field.nested, Field.always]
  overlay_fresh value := by simp [record, overlay]
  ext {value other} same := by
    cases value
    cases other
    simpa [record, Field.optional, Field.nested, Field.always, Field.listed] using same
  fields := by
    simp only [record, List.forall_mem_cons]
    exact ⟨Field.conditions_lawful _ _, Field.nested_lawful ReplicaKeyMetadata.record_lawful,
      Field.text_lawful _ _, List.forall_mem_nil _⟩

end ReplicaKeyStatus

namespace AliasStatus

def overlay (value old : AliasStatus) : AliasStatus where
  ownership := Option.merge Ownership.overlay value.ownership old.ownership
  conditions := value.conditions
  creationDate := value.creationDate.or old.creationDate
  lastUpdatedDate := value.lastUpdatedDate.or old.lastUpdatedDate

def record : Record AliasStatus where
  fields := [
    .nested "ackResourceMetadata" ownership Ownership.record,
    .conditions "conditions" conditions,
    .time "creationDate" creationDate,
    .time "lastUpdatedDate" lastUpdatedDate]
  decode := decode
  toJson := toJson
  fresh := {}
  overlay := overlay

theorem record_lawful : record.Lawful where
  distinct := by decide
  toJson_eq _ := rfl
  decode_iff document value := by
    cases value
    simp [record, Ownership.record, decode, bind_eq_ok, Field.optional, Field.nested, Field.always,
      Fields.optional, pure, Except.pure]
  get_fresh := by simp [record, Field.optional, Field.nested, Field.always]
  get_overlay value old := by
    simp [record, overlay, Ownership.record, Field.optional, Field.nested, Field.always]
  overlay_fresh value := by simp [record, overlay]
  ext {value other} same := by
    cases value
    cases other
    simpa [record, Field.optional, Field.nested, Field.always, Field.listed] using same
  fields := by
    simp only [record, List.forall_mem_cons]
    exact ⟨Field.nested_lawful Ownership.record_lawful, Field.conditions_lawful _ _,
      Field.time_lawful _ _, Field.time_lawful _ _, List.forall_mem_nil _⟩

end AliasStatus

namespace GrantStatus

def overlay (value old : GrantStatus) : GrantStatus where
  ownership := Option.merge Ownership.overlay value.ownership old.ownership
  conditions := value.conditions
  grantId := value.grantId.or old.grantId
  grantToken := value.grantToken.or old.grantToken

def record : Record GrantStatus where
  fields := [
    .nested "ackResourceMetadata" ownership Ownership.record,
    .conditions "conditions" conditions,
    .text "grantID" grantId,
    .text "grantToken" grantToken]
  decode := decode
  toJson := toJson
  fresh := {}
  overlay := overlay

theorem record_lawful : record.Lawful where
  distinct := by decide
  toJson_eq _ := rfl
  decode_iff document value := by
    cases value
    simp [record, Ownership.record, decode, bind_eq_ok, Field.optional, Field.nested, Field.always,
      Fields.optional, pure, Except.pure]
  get_fresh := by simp [record, Field.optional, Field.nested, Field.always]
  get_overlay value old := by
    simp [record, overlay, Ownership.record, Field.optional, Field.nested, Field.always]
  overlay_fresh value := by simp [record, overlay]
  ext {value other} same := by
    cases value
    cases other
    simpa [record, Field.optional, Field.nested, Field.always, Field.listed] using same
  fields := by
    simp only [record, List.forall_mem_cons]
    exact ⟨Field.nested_lawful Ownership.record_lawful, Field.conditions_lawful _ _,
      Field.text_lawful _ _, Field.text_lawful _ _, List.forall_mem_nil _⟩

end GrantStatus

end KeySteward
