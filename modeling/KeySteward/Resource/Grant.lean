import KeySteward.Resource.Basic
import KeySteward.Resource.Ownership

/-! The resource that stands for a grant: a principal's permission to use a key. -/

namespace KeySteward

/-- The encryption contexts that a grant is limited to. -/
structure GrantConstraints where
  encryptionContextEquals : SortedMap String := {}
  encryptionContextSubset : SortedMap String := {}
  deriving DecidableEq

namespace GrantConstraints

def decode : Json.Decoder GrantConstraints := fun document => do
  let fields ← Json.Fields.read ["encryptionContextEquals", "encryptionContextSubset"] document
  return {
    encryptionContextEquals :=
      ← fields.orElse "encryptionContextEquals" {} (Json.Decode.mapping Json.Decode.text)
    encryptionContextSubset :=
      ← fields.orElse "encryptionContextSubset" {} (Json.Decode.mapping Json.Decode.text) }

def listed (context : SortedMap String) : Option Json :=
  if context.isEmpty then none else some (.ofTexts context)

def toJson (constraints : GrantConstraints) : Json :=
  .record [
    ("encryptionContextEquals", listed constraints.encryptionContextEquals),
    ("encryptionContextSubset", listed constraints.encryptionContextSubset)]

end GrantConstraints

structure GrantSpec where
  constraints : Option GrantConstraints := none
  grantTokens : List String := []
  granteePrincipal : String
  keyId : Option String := none
  name : Option String := none
  operations : List String
  retiringPrincipal : Option String := none
  deriving DecidableEq

namespace GrantSpec

def decode : Json.Decoder GrantSpec := fun document => do
  let fields ← Json.Fields.read
    ["constraints", "grantTokens", "granteePrincipal", "keyID", "name", "operations",
      "retiringPrincipal"] document
  return {
    constraints := ← fields.optional "constraints" GrantConstraints.decode
    grantTokens := ← fields.orElse "grantTokens" [] Json.Decode.texts
    granteePrincipal := ← fields.required "granteePrincipal" Json.Decode.text
    keyId := ← fields.optional "keyID" Json.Decode.text
    name := ← fields.optional "name" Json.Decode.text
    operations := ← fields.required "operations" Json.Decode.texts
    retiringPrincipal := ← fields.optional "retiringPrincipal" Json.Decode.text }

def toJson (spec : GrantSpec) : Json :=
  .record [
    ("constraints", spec.constraints.map GrantConstraints.toJson),
    ("grantTokens",
      if spec.grantTokens.isEmpty then none else some (.ofStrings spec.grantTokens)),
    ("granteePrincipal", some (.string spec.granteePrincipal)),
    ("keyID", spec.keyId.map .string),
    ("name", spec.name.map .string),
    ("operations", some (.ofStrings spec.operations)),
    ("retiringPrincipal", spec.retiringPrincipal.map .string)]

end GrantSpec

structure GrantStatus where
  ownership : Option Ownership := none
  conditions : Conditions := {}
  grantId : Option String := none
  grantToken : Option String := none
  deriving DecidableEq

namespace GrantStatus

def decode : Json.Decoder GrantStatus := fun document => do
  let fields ← Json.Fields.read
    ["ackResourceMetadata", "conditions", "grantID", "grantToken"] document
  return {
    ownership := ← fields.optional "ackResourceMetadata" Ownership.decode
    conditions := ← fields.orElse "conditions" {} Conditions.decode
    grantId := ← fields.optional "grantID" Json.Decode.text
    grantToken := ← fields.optional "grantToken" Json.Decode.text }

def toJson (status : GrantStatus) : Json :=
  .record [
    ("ackResourceMetadata", status.ownership.map Ownership.toJson),
    ("conditions", some status.conditions.toJson),
    ("grantID", status.grantId.map .string),
    ("grantToken", status.grantToken.map .string)]

end GrantStatus

instance : CustomResource GrantSpec GrantStatus where
  kind := .grant
  specToJson := GrantSpec.toJson
  decodeSpec := GrantSpec.decode
  statusToJson := GrantStatus.toJson
  decodeStatus := GrantStatus.decode
  freshStatus := {}
  conditions := GrantStatus.conditions
  withConditions status conditions := { status with conditions }
  keyState? _ := none

abbrev Grant := Resource GrantSpec GrantStatus

/-- The id of the remote grant, once the status records one. -/
def Grant.grantId? (grant : Grant) : Option String :=
  grant.status.bind GrantStatus.grantId

end KeySteward
