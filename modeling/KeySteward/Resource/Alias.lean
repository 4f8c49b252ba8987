import KeySteward.Resource.Basic
import KeySteward.Resource.Ownership

/-! The resource that stands for an alias: a name for a key. -/

namespace KeySteward

structure AliasSpec where
  name : String
  targetKeyId : Option String := none
  deriving DecidableEq

namespace AliasSpec

def decode : Json.Decoder AliasSpec := fun document => do
  let fields ← Json.Fields.read ["name", "targetKeyID"] document
  return {
    name := ← fields.required "name" Json.Decode.text
    targetKeyId := ← fields.optional "targetKeyID" Json.Decode.text }

def toJson (spec : AliasSpec) : Json :=
  .record [
    ("name", some (.string spec.name)),
    ("targetKeyID", spec.targetKeyId.map .string)]

/-- What every alias name starts with. -/
def nameStart : String := "alias/"

/-- The name as the service knows it: it starts with `alias/`, whether the given one does or not. -/
def canonicalName (name : String) : String :=
  if name.startsWith nameStart then name else nameStart ++ name

end AliasSpec

structure AliasStatus where
  ownership : Option Ownership := none
  conditions : Conditions := {}
  creationDate : Option Timestamp := none
  lastUpdatedDate : Option Timestamp := none
  deriving DecidableEq

namespace AliasStatus

def decode : Json.Decoder AliasStatus := fun document => do
  let fields ← Json.Fields.read
    ["ackResourceMetadata", "conditions", "creationDate", "lastUpdatedDate"] document
  return {
    ownership := ← fields.optional "ackResourceMetadata" Ownership.decode
    conditions := ← fields.orElse "conditions" {} Conditions.decode
    creationDate := ← fields.optional "creationDate" Json.Decode.timestamp
    lastUpdatedDate := ← fields.optional "lastUpdatedDate" Json.Decode.timestamp }

def toJson (status : AliasStatus) : Json :=
  .record [
    ("ackResourceMetadata", status.ownership.map Ownership.toJson),
    ("conditions", some status.conditions.toJson),
    ("creationDate", status.creationDate.map fun time => .string time.render),
    ("lastUpdatedDate", status.lastUpdatedDate.map fun time => .string time.render)]

end AliasStatus

instance : CustomResource AliasSpec AliasStatus where
  kind := .keyAlias
  specToJson := AliasSpec.toJson
  decodeSpec := AliasSpec.decode
  statusToJson := AliasStatus.toJson
  decodeStatus := AliasStatus.decode
  freshStatus := {}
  conditions := AliasStatus.conditions
  withConditions status conditions := { status with conditions }
  keyState? _ := none

abbrev Alias := Resource AliasSpec AliasStatus

end KeySteward
