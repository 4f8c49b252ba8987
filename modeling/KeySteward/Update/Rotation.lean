import KeySteward.Pass.Program

/-! The yearly rotation of a key's material. What is wanted is on, off or unset; what is found may
be unknown, and then nothing is changed. -/

namespace KeySteward

inductive RotationState where
  | unknown
  | enabled
  | disabled
  deriving DecidableEq, Repr

namespace RotationState

def name : RotationState → String
  | unknown => "Unknown"
  | enabled => "Enabled"
  | disabled => "Disabled"

/-- The state that a status of the service tells. -/
def ofStatus : Option Bool → RotationState
  | none => unknown
  | some true => enabled
  | some false => disabled

/-- The state as a spec has it. A rotation that is off and unasked for is not reported. -/
def observed (state : RotationState) (desired : Option Bool) : Option Bool :=
  match state with
  | unknown => desired
  | enabled => some true
  | disabled => desired.map fun _ => false

end RotationState

inductive RotationChange where
  | enable
  | disable
  deriving DecidableEq, Repr

namespace RotationChange

def name : RotationChange → String
  | enable => "Enable"
  | disable => "Disable"

/-- The change that leads from the state that is found to the one that is wanted, if one is needed.
An unset wish turns a rotation off. -/
def plan? (desired : Option Bool) : RotationState → Option RotationChange
  | .unknown => none
  | .enabled => if desired = some true then none else some disable
  | .disabled => if desired = some true then some enable else none

/-- Makes a change on a key. -/
def apply (keyId : String) : RotationChange → Pass Unit
  | enable => .call (.enableKeyRotation keyId)
  | disable => .call (.disableKeyRotation keyId)

end RotationChange

namespace Rotation

def observe (keyId : String) : Pass RotationState := do
  return .ofStatus (← Pass.call (.getKeyRotationStatus keyId))

/-- Makes the change that the state asks for, and gives it back. -/
def reconcile (keyId : String) (desired : Option Bool) : Pass (Option RotationChange) := do
  let change? := RotationChange.plan? desired (← observe keyId)
  if let some change := change? then
    change.apply keyId
  return change?

end Rotation

end KeySteward
