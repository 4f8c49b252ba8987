import KeySteward.Json.Decode

/-! How a key is spread over regions: a primary key and its replicas. Resources and the service
spell the members differently, which is what a `Spelling` holds. -/

namespace KeySteward

structure KeyReference where
  arn : Option String := none
  region : Option String := none
  deriving DecidableEq

structure MultiRegion where
  keyType : Option String := none
  primaryKey : Option KeyReference := none
  replicaKeys : List KeyReference := []
  deriving DecidableEq

namespace MultiRegion

structure Spelling where
  arn : String
  region : String
  keyType : String
  primaryKey : String
  replicaKeys : String

/-- The names in a custom resource. -/
def Spelling.resource : Spelling :=
  ⟨"arn", "region", "multiRegionKeyType", "primaryKey", "replicaKeys"⟩

/-- The names in messages of the service. -/
def Spelling.wire : Spelling :=
  ⟨"Arn", "Region", "MultiRegionKeyType", "PrimaryKey", "ReplicaKeys"⟩

def decodeReference (spelling : Spelling) : Json.Decoder KeyReference := fun document => do
  let fields ← Json.Fields.read [spelling.arn, spelling.region] document
  return {
    arn := ← fields.optional spelling.arn Json.Decode.text
    region := ← fields.optional spelling.region Json.Decode.text }

def decode (spelling : Spelling) : Json.Decoder MultiRegion := fun document => do
  let fields ← Json.Fields.read
    [spelling.keyType, spelling.primaryKey, spelling.replicaKeys] document
  return {
    keyType := ← fields.optional spelling.keyType Json.Decode.text
    primaryKey := ← fields.optional spelling.primaryKey (decodeReference spelling)
    replicaKeys :=
      ← fields.orElse spelling.replicaKeys [] (Json.Decode.list (decodeReference spelling)) }

/-- A reference in the spelling of a resource, without what is unset. -/
def referenceToJson (reference : KeyReference) : Json :=
  .record [
    (Spelling.resource.arn, reference.arn.map .string),
    (Spelling.resource.region, reference.region.map .string)]

/-- The spelling of a resource, without what is unset or empty. -/
def toJson (regions : MultiRegion) : Json :=
  .record [
    (Spelling.resource.keyType, regions.keyType.map .string),
    (Spelling.resource.primaryKey, regions.primaryKey.map referenceToJson),
    (Spelling.resource.replicaKeys,
      if regions.replicaKeys.isEmpty then none
      else some (.array (regions.replicaKeys.map referenceToJson)))]

def textOrNull (text : Option String) : Json :=
  text.elim .null .string

/-- A reference in the spelling of the service, with null for what is unset. -/
def referenceToWire (reference : KeyReference) : Json :=
  .ofMembers [
    (Spelling.wire.arn, textOrNull reference.arn),
    (Spelling.wire.region, textOrNull reference.region)]

/-- The spelling of the service, with null for what is unset. -/
def toWire (regions : MultiRegion) : Json :=
  .ofMembers [
    (Spelling.wire.keyType, textOrNull regions.keyType),
    (Spelling.wire.primaryKey, regions.primaryKey.elim .null referenceToWire),
    (Spelling.wire.replicaKeys, .array (regions.replicaKeys.map referenceToWire))]

end MultiRegion

end KeySteward
