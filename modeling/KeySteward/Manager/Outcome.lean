import KeySteward.Pass.Failure
import KeySteward.Resource.Basic

/-! What a pass leaves in the conditions of its resource. A terminal failure sets the condition
`terminal` and leaves `recoverable` alone; every other outcome takes `terminal` back and makes
`recoverable` say whether the pass failed. `synced` holds after a success on a settled resource. No
condition is ever removed. -/

namespace KeySteward

namespace Conditions

/-- Records how an operation went; a failure with one of the given codes is terminal. -/
def record (conditions : Conditions) (now : Timestamp) (terminalCodes : List String)
    (failure : Option Failure) : Conditions :=
  match failure with
  | none => (conditions.clear now .terminal).clear now .recoverable
  | some failure =>
    if failure.isTerminal terminalCodes then
      conditions.set now .terminal true failure.message
    else (conditions.clear now .terminal).set now .recoverable true failure.message

end Conditions

namespace Resource

variable {σ τ : Type} [CustomResource σ τ]

/-- Records how an operation went. -/
def recordConditions (resource : Resource σ τ) (now : Timestamp) (failure : Option Failure) :
    Resource σ τ :=
  resource.withConditions (resource.conditions.record now resource.kind.terminalCodes failure)

/-- Records how an operation went, if that leaves any condition. -/
def recordConditions? (resource : Resource σ τ) (now : Timestamp) (failure : Option Failure) :
    Option (Resource σ τ) :=
  let recorded := resource.recordConditions now failure
  if recorded.conditions.isEmpty then none else some recorded

/-- Why a resource is not in step with its spec, if it is not. -/
def unsyncedReason? (resource : Resource σ τ) : Option Failure → Option String
  | some failure => some failure.message
  | none => resource.unsettledState?.map fun state => "resource is " ++ state.name

/-- Records how a pass went. -/
def recordOutcome (resource : Resource σ τ) (now : Timestamp) (failure : Option Failure) :
    Resource σ τ :=
  let recorded := resource.recordConditions now failure
  let reason? := recorded.unsyncedReason? failure
  recorded.withConditions (recorded.conditions.set now .synced reason?.isNone reason?)

end Resource

end KeySteward
