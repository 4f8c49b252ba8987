import KeySteward.Controller.Finalizer
import KeySteward.Controller.Requeue
import KeySteward.Manager.Basic
import KeySteward.Manager.Outcome
import KeySteward.Resource.Definition

/-! One pass of the controller over an object: what it calls, what it writes to the Kubernetes API
at its end, and what follows when the write is accepted. -/

namespace KeySteward

/-- How a pass ends. -/
structure Verdict where
  write : Option ObjectWrite
  /-- What follows if nothing is to be written or the write is accepted. -/
  action : Action

namespace Controller

variable {σ τ : Type} [CustomResource σ τ]

/-- The place of an object in the API. -/
structure Place where
  namespaceName : String
  name : String

/-- A write to the object of a resource. -/
def write (resource : Resource σ τ) (place : Place) (part : ObjectPart) (patch : Patch) :
    ObjectWrite where
  collection := (Definition.ofKind resource.kind).collectionPath place.namespaceName
  name := place.name
  part
  patch

/-- Writes the whole status; a resource without one has it set to null. -/
def statusWrite (resource : Resource σ τ) (place : Place) : ObjectWrite :=
  write resource place .status (.merge (.ofMembers [("status", resource.statusToJson?.getD .null)]))

/-- The resource after a reconcile, with its outcome recorded. A failure that left nothing converged
is recorded on the resource as it was. -/
def recorded (now : Timestamp) (resource : Resource σ τ)
    (result : Except (FailedUpdate (Resource σ τ)) (Resource σ τ)) : Resource σ τ :=
  match result with
  | .ok converged => converged.recordOutcome now none
  | .error failed => (failed.converged.getD resource).recordOutcome now (some failed.failure)

def failure? {ρ α : Type} : Except (FailedUpdate ρ) α → Option Failure
  | .ok _ => none
  | .error failed => some failed.failure

/-- The end of a pass that reconciled the object. -/
def verdict (settings : Settings) (now : Timestamp) (resource : Resource σ τ) (place : Place)
    (result : Except (FailedUpdate (Resource σ τ)) (Resource σ τ)) : Verdict :=
  let observed := recorded now resource result
  { write := some (statusWrite observed place)
    action :=
      .afterPass settings resource.kind.terminalCodes observed.isSettled (failure? result) }

/-- Reconciles the object and records the outcome in its status. -/
def apply (settings : Settings) (now : Timestamp) (manager : Manager σ τ)
    (resource : Resource σ τ) (place : Place) : Program Verdict := do
  return verdict settings now resource place (← (manager.reconcile resource).run)

/-- Finalizes the object and takes the finalizer off once that is done. -/
def cleanup (settings : Settings) (manager : Manager σ τ) (resource : Resource σ τ)
    (place : Place) (index : Nat) : Program Verdict := do
  match ← (manager.finalize resource).run with
  | .error _ => return { write := none, action := .afterError settings }
  | .ok () =>
    let write := write resource place .whole (Finalizer.detach index)
    return { write := some write, action := .awaitChange }

/-- A pass over an object of the given name. An object without a namespace is in error. -/
def pass (settings : Settings) (now : Timestamp) (manager : Manager σ τ)
    (resource : Resource σ τ) (name : String) : Program Verdict :=
  match resource.metadata.namespaceName with
  | none => pure { write := none, action := .afterError settings }
  | some namespaceName =>
    let place : Place := { namespaceName, name }
    match Stage.ofMetadata resource.metadata with
    | .adopt =>
      let write := write resource place .whole (Finalizer.attach resource.metadata)
      pure { write := some write, action := .awaitChange }
    | .apply => apply settings now manager resource place
    | .cleanup index => cleanup settings manager resource place index
    | .leave => pure { write := none, action := .awaitChange }

end Controller

end KeySteward
