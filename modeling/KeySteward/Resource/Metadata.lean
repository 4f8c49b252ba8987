import KeySteward.Json.Decode

/-! The metadata that the Kubernetes API keeps with every object. -/

namespace KeySteward

structure OwnerReference where
  apiVersion : String
  blockOwnerDeletion : Option Bool
  controller : Option Bool
  kind : String
  name : String
  uid : String
  deriving DecidableEq

structure ManagedFields where
  apiVersion : Option String
  fieldsType : Option String
  fields : Option Json
  manager : Option String
  operation : Option String
  subresource : Option String
  time : Option Timestamp

structure Metadata where
  annotations : Option (SortedMap String) := none
  creationTimestamp : Option Timestamp := none
  deletionGracePeriodSeconds : Option Int := none
  deletionTimestamp : Option Timestamp := none
  finalizers : Option (List String) := none
  generateName : Option String := none
  generation : Option Int := none
  labels : Option (SortedMap String) := none
  managedFields : Option (List ManagedFields) := none
  name : Option String := none
  namespaceName : Option String := none
  ownerReferences : Option (List OwnerReference) := none
  resourceVersion : Option String := none
  selfLink : Option String := none
  uid : Option String := none

namespace OwnerReference

/-- A missing text is empty. -/
def decode : Json.Decoder OwnerReference := fun document => do
  let fields ← Json.Fields.readObject
    ["apiVersion", "blockOwnerDeletion", "controller", "kind", "name", "uid"] document
  return {
    apiVersion := (← fields.optional "apiVersion" Json.Decode.text).getD ""
    blockOwnerDeletion := ← fields.optional "blockOwnerDeletion" Json.Decode.flag
    controller := ← fields.optional "controller" Json.Decode.flag
    kind := (← fields.optional "kind" Json.Decode.text).getD ""
    name := (← fields.optional "name" Json.Decode.text).getD ""
    uid := (← fields.optional "uid" Json.Decode.text).getD "" }

def toJson (owner : OwnerReference) : Json :=
  .record [
    ("apiVersion", some (.string owner.apiVersion)),
    ("blockOwnerDeletion", owner.blockOwnerDeletion.map .bool),
    ("controller", owner.controller.map .bool),
    ("kind", some (.string owner.kind)),
    ("name", some (.string owner.name)),
    ("uid", some (.string owner.uid))]

end OwnerReference

namespace ManagedFields

private def anyValue : Json.Decoder Json := fun document =>
  match document.value? with
  | some value => .ok value
  | none => .error .unreadable

def decode : Json.Decoder ManagedFields := fun document => do
  let fields ← Json.Fields.readObject
    ["apiVersion", "fieldsType", "fieldsV1", "manager", "operation", "subresource", "time"] document
  return {
    apiVersion := ← fields.optional "apiVersion" Json.Decode.text
    fieldsType := ← fields.optional "fieldsType" Json.Decode.text
    fields := ← fields.optional "fieldsV1" anyValue
    manager := ← fields.optional "manager" Json.Decode.text
    operation := ← fields.optional "operation" Json.Decode.text
    subresource := ← fields.optional "subresource" Json.Decode.text
    time := ← fields.optional "time" Json.Decode.timestamp }

def toJson (entry : ManagedFields) : Json :=
  .record [
    ("apiVersion", entry.apiVersion.map .string),
    ("fieldsType", entry.fieldsType.map .string),
    ("fieldsV1", entry.fields),
    ("manager", entry.manager.map .string),
    ("operation", entry.operation.map .string),
    ("subresource", entry.subresource.map .string),
    ("time", entry.time.map fun time => .string time.render)]

end ManagedFields

namespace Metadata

instance : Inhabited Metadata := ⟨{}⟩

def decode : Json.Decoder Metadata := fun document => do
  let fields ← Json.Fields.readObject
    ["annotations", "creationTimestamp", "deletionGracePeriodSeconds", "deletionTimestamp",
      "finalizers", "generateName", "generation", "labels", "managedFields", "name", "namespace",
      "ownerReferences", "resourceVersion", "selfLink", "uid"] document
  return {
    annotations := ← fields.optional "annotations" (Json.Decode.mapping Json.Decode.text)
    creationTimestamp := ← fields.optional "creationTimestamp" Json.Decode.timestamp
    deletionGracePeriodSeconds :=
      ← fields.optional "deletionGracePeriodSeconds" Json.Decode.integer
    deletionTimestamp := ← fields.optional "deletionTimestamp" Json.Decode.timestamp
    finalizers := ← fields.optional "finalizers" Json.Decode.texts
    generateName := ← fields.optional "generateName" Json.Decode.text
    generation := ← fields.optional "generation" Json.Decode.integer
    labels := ← fields.optional "labels" (Json.Decode.mapping Json.Decode.text)
    managedFields := ← fields.optional "managedFields" (Json.Decode.list ManagedFields.decode)
    name := ← fields.optional "name" Json.Decode.text
    namespaceName := ← fields.optional "namespace" Json.Decode.text
    ownerReferences := ← fields.optional "ownerReferences" (Json.Decode.list OwnerReference.decode)
    resourceVersion := ← fields.optional "resourceVersion" Json.Decode.text
    selfLink := ← fields.optional "selfLink" Json.Decode.text
    uid := ← fields.optional "uid" Json.Decode.text }

def toJson (metadata : Metadata) : Json :=
  .record [
    ("annotations", metadata.annotations.map .ofTexts),
    ("creationTimestamp", metadata.creationTimestamp.map fun time => .string time.render),
    ("deletionGracePeriodSeconds", metadata.deletionGracePeriodSeconds.map .ofInt),
    ("deletionTimestamp", metadata.deletionTimestamp.map fun time => .string time.render),
    ("finalizers", metadata.finalizers.map .ofStrings),
    ("generateName", metadata.generateName.map .string),
    ("generation", metadata.generation.map .ofInt),
    ("labels", metadata.labels.map .ofTexts),
    ("managedFields",
      metadata.managedFields.map fun list => .array (list.map ManagedFields.toJson)),
    ("name", metadata.name.map .string),
    ("namespace", metadata.namespaceName.map .string),
    ("ownerReferences",
      metadata.ownerReferences.map fun list => .array (list.map OwnerReference.toJson)),
    ("resourceVersion", metadata.resourceVersion.map .string),
    ("selfLink", metadata.selfLink.map .string),
    ("uid", metadata.uid.map .string)]

/-- The annotation that sets how many days a key waits for its deletion. -/
def deletionWindowAnnotation : String :=
  "kms.keyops.dev/deletion-pending-window-in-days"

def defaultDeletionWindow : Int := 7

/-- Days that a key waits for its deletion: the annotation where it is an integer of 64 bits, apart
from blanks around it, and otherwise the default. -/
def deletionWindow (metadata : Metadata) : Int :=
  let text := metadata.annotations.bind fun annotations =>
    annotations.get? deletionWindowAnnotation
  let days := text.bind fun text =>
    Text.signed? Text.leastInteger Text.greatestInteger (Text.trim text)
  days.getD defaultDeletionWindow

end Metadata

end KeySteward
