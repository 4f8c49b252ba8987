import KeySteward.MultiRegion
import KeySteward.Resource.Basic
import KeySteward.Resource.Ownership
import KeySteward.Tag

/-! The resource that stands for a key of the customer. -/

namespace KeySteward

structure KeySpec where
  bypassPolicyLockoutSafetyCheck : Option Bool := none
  customKeyStoreId : Option String := none
  description : Option String := none
  enableKeyRotation : Option Bool := none
  keySpec : Option String := none
  keyUsage : Option String := none
  multiRegion : Option Bool := none
  origin : Option String := none
  policy : Option String := none
  tags : TagMap := {}
  deriving DecidableEq

namespace KeySpec

def decode : Json.Decoder KeySpec := fun document => do
  let fields ← Json.Fields.read
    ["bypassPolicyLockoutSafetyCheck", "customKeyStoreID", "description", "enableKeyRotation",
      "keySpec", "keyUsage", "multiRegion", "origin", "policy", "tags"] document
  return {
    bypassPolicyLockoutSafetyCheck :=
      ← fields.optional "bypassPolicyLockoutSafetyCheck" Json.Decode.flag
    customKeyStoreId := ← fields.optional "customKeyStoreID" Json.Decode.text
    description := ← fields.optional "description" Json.Decode.text
    enableKeyRotation := ← fields.optional "enableKeyRotation" Json.Decode.flag
    keySpec := ← fields.optional "keySpec" Json.Decode.text
    keyUsage := ← fields.optional "keyUsage" Json.Decode.text
    multiRegion := ← fields.optional "multiRegion" Json.Decode.flag
    origin := ← fields.optional "origin" Json.Decode.text
    policy := ← fields.optional "policy" Json.Decode.text
    tags := ← fields.orElse "tags" {} TagMap.decode }

def toJson (spec : KeySpec) : Json :=
  .record [
    ("bypassPolicyLockoutSafetyCheck", spec.bypassPolicyLockoutSafetyCheck.map .bool),
    ("customKeyStoreID", spec.customKeyStoreId.map .string),
    ("description", spec.description.map .string),
    ("enableKeyRotation", spec.enableKeyRotation.map .bool),
    ("keySpec", spec.keySpec.map .string),
    ("keyUsage", spec.keyUsage.map .string),
    ("multiRegion", spec.multiRegion.map .bool),
    ("origin", spec.origin.map .string),
    ("policy", spec.policy.map .string),
    ("tags", if spec.tags.isEmpty then none else some spec.tags.toJson)]

end KeySpec

structure KeyStatus where
  ownership : Option Ownership := none
  conditions : Conditions := {}
  awsAccountId : Option String := none
  cloudHsmClusterId : Option String := none
  creationDate : Option Timestamp := none
  deletionDate : Option Timestamp := none
  enabled : Option Bool := none
  encryptionAlgorithms : List String := []
  expirationModel : Option String := none
  keyId : Option String := none
  keyManager : Option String := none
  keyState : Option KeyState := none
  macAlgorithms : List String := []
  multiRegionConfiguration : Option MultiRegion := none
  pendingDeletionWindowInDays : Option Int := none
  signingAlgorithms : List String := []
  validTo : Option Timestamp := none
  deriving DecidableEq

namespace KeyStatus

def decode : Json.Decoder KeyStatus := fun document => do
  let fields ← Json.Fields.read
    ["ackResourceMetadata", "conditions", "awsAccountID", "cloudHsmClusterID", "creationDate",
      "deletionDate", "enabled", "encryptionAlgorithms", "expirationModel", "keyID", "keyManager",
      "keyState", "macAlgorithms", "multiRegionConfiguration", "pendingDeletionWindowInDays",
      "signingAlgorithms", "validTo"] document
  return {
    ownership := ← fields.optional "ackResourceMetadata" Ownership.decode
    conditions := ← fields.orElse "conditions" {} Conditions.decode
    awsAccountId := ← fields.optional "awsAccountID" Json.Decode.text
    cloudHsmClusterId := ← fields.optional "cloudHsmClusterID" Json.Decode.text
    creationDate := ← fields.optional "creationDate" Json.Decode.timestamp
    deletionDate := ← fields.optional "deletionDate" Json.Decode.timestamp
    enabled := ← fields.optional "enabled" Json.Decode.flag
    encryptionAlgorithms := ← fields.orElse "encryptionAlgorithms" [] Json.Decode.texts
    expirationModel := ← fields.optional "expirationModel" Json.Decode.text
    keyId := ← fields.optional "keyID" Json.Decode.text
    keyManager := ← fields.optional "keyManager" Json.Decode.text
    keyState := ← fields.optional "keyState" KeyState.decode
    macAlgorithms := ← fields.orElse "macAlgorithms" [] Json.Decode.texts
    multiRegionConfiguration :=
      ← fields.optional "multiRegionConfiguration" (MultiRegion.decode .resource)
    pendingDeletionWindowInDays :=
      ← fields.optional "pendingDeletionWindowInDays" Json.Decode.integer
    signingAlgorithms := ← fields.orElse "signingAlgorithms" [] Json.Decode.texts
    validTo := ← fields.optional "validTo" Json.Decode.timestamp }

/-- A list that is left out when it is empty. -/
def listed (texts : List String) : Option Json :=
  if texts.isEmpty then none else some (.ofStrings texts)

def toJson (status : KeyStatus) : Json :=
  .record [
    ("ackResourceMetadata", status.ownership.map Ownership.toJson),
    ("conditions", some status.conditions.toJson),
    ("awsAccountID", status.awsAccountId.map .string),
    ("cloudHsmClusterID", status.cloudHsmClusterId.map .string),
    ("creationDate", status.creationDate.map fun time => .string time.render),
    ("deletionDate", status.deletionDate.map fun time => .string time.render),
    ("enabled", status.enabled.map .bool),
    ("encryptionAlgorithms", listed status.encryptionAlgorithms),
    ("expirationModel", status.expirationModel.map .string),
    ("keyID", status.keyId.map .string),
    ("keyManager", status.keyManager.map .string),
    ("keyState", status.keyState.map fun state => .string state.name),
    ("macAlgorithms", listed status.macAlgorithms),
    ("multiRegionConfiguration", status.multiRegionConfiguration.map MultiRegion.toJson),
    ("pendingDeletionWindowInDays", status.pendingDeletionWindowInDays.map .ofInt),
    ("signingAlgorithms", listed status.signingAlgorithms),
    ("validTo", status.validTo.map fun time => .string time.render)]

end KeyStatus

instance : CustomResource KeySpec KeyStatus where
  kind := .key
  specToJson := KeySpec.toJson
  decodeSpec := KeySpec.decode
  statusToJson := KeyStatus.toJson
  decodeStatus := KeyStatus.decode
  freshStatus := {}
  conditions := KeyStatus.conditions
  withConditions status conditions := { status with conditions }
  keyState? := KeyStatus.keyState

abbrev Key := Resource KeySpec KeyStatus

/-- The id of the remote key, once the status records one. -/
def Key.keyId? (key : Key) : Option String :=
  key.status.bind KeyStatus.keyId

end KeySteward
