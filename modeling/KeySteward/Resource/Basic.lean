import KeySteward.Condition
import KeySteward.KeyState
import KeySteward.Resource.Kind
import KeySteward.Resource.Metadata

/-! Custom resources. A resource has metadata, a spec that says what is wanted and a status that
says what was found; `CustomResource` holds what the kinds of resource have in common. -/

namespace KeySteward

structure Resource (σ τ : Type) where
  metadata : Metadata
  spec : σ
  status : Option τ

/-- A kind of resource with spec `σ` and status `τ`. -/
class CustomResource (σ : Type) (τ : outParam Type) where
  kind : Kind
  specToJson : σ → Json
  decodeSpec : Json.Decoder σ
  statusToJson : τ → Json
  decodeStatus : Json.Decoder τ
  /-- The status of a resource before its first pass. -/
  freshStatus : τ
  conditions : τ → Conditions
  withConditions : τ → Conditions → τ
  /-- The state of the key that the status records, if it records one. -/
  keyState? : τ → Option KeyState

namespace Resource

variable {σ τ : Type} [CustomResource σ τ]

def kind (_ : Resource σ τ) : Kind :=
  CustomResource.kind σ

/-- The status, or the one before the first pass. -/
def statusOrFresh (resource : Resource σ τ) : τ :=
  resource.status.getD (CustomResource.freshStatus σ)

def conditions? (resource : Resource σ τ) : Option Conditions :=
  resource.status.map (CustomResource.conditions σ)

/-- The conditions; a resource without a status has none. -/
def conditions (resource : Resource σ τ) : Conditions :=
  CustomResource.conditions σ resource.statusOrFresh

/-- Replaces the conditions, which gives the resource a status. -/
def withConditions (resource : Resource σ τ) (conditions : Conditions) : Resource σ τ :=
  { resource with
    status := some (CustomResource.withConditions σ resource.statusOrFresh conditions) }

/-- The state of the key while the service is still changing it. -/
def unsettledState? (resource : Resource σ τ) : Option KeyState :=
  (resource.status.bind (CustomResource.keyState? σ)).filter KeyState.isTransitional

def isSettled (resource : Resource σ τ) : Bool :=
  resource.unsettledState?.isNone

def specToJson (resource : Resource σ τ) : Json :=
  CustomResource.specToJson resource.spec

def statusToJson? (resource : Resource σ τ) : Option Json :=
  resource.status.map (CustomResource.statusToJson σ)

def toJson (resource : Resource σ τ) : Json :=
  .record [
    ("metadata", some resource.metadata.toJson),
    ("spec", some resource.specToJson),
    ("status", resource.statusToJson?)]

/-- As an array a resource has all three parts, with null for a missing status. -/
def decode : Json.Decoder (Resource σ τ) := fun document => do
  let fields ← Json.Fields.readWhole ["metadata", "spec", "status"] document
  return {
    metadata := ← fields.required "metadata" Metadata.decode
    spec := ← fields.required "spec" CustomResource.decodeSpec
    status := ← fields.optional "status" (CustomResource.decodeStatus σ) }

end Resource

end KeySteward
