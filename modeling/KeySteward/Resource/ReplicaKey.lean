import KeySteward.MultiRegion
import KeySteward.Resource.Basic
import KeySteward.Tag

/-! The resource that stands for a replica of a multi-region key in another region. -/

namespace KeySteward

/-- The key id names the primary key. -/
structure ReplicaKeySpec where
  keyId : Option String := none
  replicaRegion : String
  description : Option String := none
  policy : Option String := none
  bypassPolicyLockoutSafetyCheck : Option Bool := none
  tags : TagMap := {}
  deriving DecidableEq

namespace ReplicaKeySpec

def decode : Json.Decoder ReplicaKeySpec := fun document => do
  let fields ← Json.Fields.read
    ["keyID", "replicaRegion", "description", "policy", "bypassPolicyLockoutSafetyCheck", "tags"]
    document
  return {
    keyId := ← fields.optional "keyID" Json.Decode.text
    replicaRegion := ← fields.required "replicaRegion" Json.Decode.text
    description := ← fields.optional "description" Json.Decode.text
    policy := ← fields.optional "policy" Json.Decode.text
    bypassPolicyLockoutSafetyCheck :=
      ← fields.optional "bypassPolicyLockoutSafetyCheck" Json.Decode.flag
    tags := ← fields.orElse "tags" {} TagMap.decode }

def toJson (spec : ReplicaKeySpec) : Json :=
  .record [
    ("keyID", spec.keyId.map .string),
    ("replicaRegion", some (.string spec.replicaRegion)),
    ("description", spec.description.map .string),
    ("policy", spec.policy.map .string),
    ("bypassPolicyLockoutSafetyCheck", spec.bypassPolicyLockoutSafetyCheck.map .bool),
    ("tags", if spec.tags.isEmpty then none else some spec.tags.toJson)]

end ReplicaKeySpec

/-- What the service says about the replica. -/
structure ReplicaKeyMetadata where
  awsAccountId : Option String := none
  arn : Option String := none
  creationDate : Option Timestamp := none
  deletionDate : Option Timestamp := none
  description : Option String := none
  enabled : Option Bool := none
  keyId : Option String := none
  keySpec : Option String := none
  keyState : Option KeyState := none
  keyUsage : Option String := none
  multiRegionConfiguration : Option MultiRegion := none
  origin : Option String := none
  pendingDeletionWindowInDays : Option Int := none
  deriving DecidableEq

namespace ReplicaKeyMetadata

def decode : Json.Decoder ReplicaKeyMetadata := fun document => do
  let fields ← Json.Fields.read
    ["awsAccountID", "arn", "creationDate", "deletionDate", "description", "enabled", "keyID",
      "keySpec", "keyState", "keyUsage", "multiRegionConfiguration", "origin",
      "pendingDeletionWindowInDays"] document
  return {
    awsAccountId := ← fields.optional "awsAccountID" Json.Decode.text
    arn := ← fields.optional "arn" Json.Decode.text
    creationDate := ← fields.optional "creationDate" Json.Decode.timestamp
    deletionDate := ← fields.optional "deletionDate" Json.Decode.timestamp
    description := ← fields.optional "description" Json.Decode.text
    enabled := ← fields.optional "enabled" Json.Decode.flag
    keyId := ← fields.optional "keyID" Json.Decode.text
    keySpec := ← fields.optional "keySpec" Json.Decode.text
    keyState := ← fields.optional "keyState" KeyState.decode
    keyUsage := ← fields.optional "keyUsage" Json.Decode.text
    multiRegionConfiguration :=
      ← fields.optional "multiRegionConfiguration" (MultiRegion.decode .resource)
    origin := ← fields.optional "origin" Json.Decode.text
    pendingDeletionWindowInDays :=
      ← fields.optional "pendingDeletionWindowInDays" Json.Decode.integer }

def toJson (metadata : ReplicaKeyMetadata) : Json :=
  .record [
    ("awsAccountID", metadata.awsAccountId.map .string),
    ("arn", metadata.arn.map .string),
    ("creationDate", metadata.creationDate.map fun time => .string time.render),
    ("deletionDate", metadata.deletionDate.map fun time => .string time.render),
    ("description", metadata.description.map .string),
    ("enabled", metadata.enabled.map .bool),
    ("keyID", metadata.keyId.map .string),
    ("keySpec", metadata.keySpec.map .string),
    ("keyState", metadata.keyState.map fun state => .string state.name),
    ("keyUsage", metadata.keyUsage.map .string),
    ("multiRegionConfiguration", metadata.multiRegionConfiguration.map MultiRegion.toJson),
    ("origin", metadata.origin.map .string),
    ("pendingDeletionWindowInDays", metadata.pendingDeletionWindowInDays.map .ofInt)]

end ReplicaKeyMetadata

structure ReplicaKeyStatus where
  conditions : Conditions := {}
  replica : Option ReplicaKeyMetadata := none
  policy : Option String := none
  deriving DecidableEq

namespace ReplicaKeyStatus

def decode : Json.Decoder ReplicaKeyStatus := fun document => do
  let fields ← Json.Fields.read ["conditions", "replicaKeyMetadata", "replicaPolicy"] document
  return {
    conditions := ← fields.orElse "conditions" {} Conditions.decode
    replica := ← fields.optional "replicaKeyMetadata" ReplicaKeyMetadata.decode
    policy := ← fields.optional "replicaPolicy" Json.Decode.text }

def toJson (status : ReplicaKeyStatus) : Json :=
  .record [
    ("conditions", some status.conditions.toJson),
    ("replicaKeyMetadata", status.replica.map ReplicaKeyMetadata.toJson),
    ("replicaPolicy", status.policy.map .string)]

/-- The state of the replica that the status records. -/
def keyState? (status : ReplicaKeyStatus) : Option KeyState :=
  status.replica.bind ReplicaKeyMetadata.keyState

end ReplicaKeyStatus

instance : CustomResource ReplicaKeySpec ReplicaKeyStatus where
  kind := .replicaKey
  specToJson := ReplicaKeySpec.toJson
  decodeSpec := ReplicaKeySpec.decode
  statusToJson := ReplicaKeyStatus.toJson
  decodeStatus := ReplicaKeyStatus.decode
  freshStatus := {}
  conditions := ReplicaKeyStatus.conditions
  withConditions status conditions := { status with conditions }
  keyState? := ReplicaKeyStatus.keyState?

abbrev ReplicaKey := Resource ReplicaKeySpec ReplicaKeyStatus

/-- The id of the replica, once the status records one. -/
def ReplicaKey.replicaId? (replica : ReplicaKey) : Option String :=
  (replica.status.bind ReplicaKeyStatus.replica).bind ReplicaKeyMetadata.keyId

end KeySteward
