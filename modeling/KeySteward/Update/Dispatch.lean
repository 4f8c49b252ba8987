import KeySteward.Delta.Mutability
import KeySteward.Update.Policy
import KeySteward.Update.Rotation
import KeySteward.Update.TagSet

/-! Changes of a key in place: its policy, then its tags, then its rotation. The first step that
fails is the last one that is tried. -/

namespace KeySteward

inductive UpdateStep where
  | policy
  | tags
  | rotation
  deriving DecidableEq, Repr

def UpdateStep.name : UpdateStep → String
  | policy => "Policy"
  | tags => "Tags"
  | rotation => "Rotation"

/-- What the changeable parts of a key are to be. -/
structure UpdateTarget where
  keyId : String
  policy : Option String := none
  bypassPolicyLockoutSafetyCheck : Option Bool := none
  tags : TagMap := {}
  enableKeyRotation : Option Bool := none
  deriving DecidableEq

/-- Whether tags that are not wanted come off, or wanted ones only go on. -/
inductive TagStrategy where
  | converge
  | additive
  deriving DecidableEq, Repr

/-- The steps that succeeded, and why the next one did not. -/
structure DispatchOutcome where
  applied : List UpdateStep := []
  failure : Option Failure := none
  deriving DecidableEq

namespace UpdateTarget

/-- The policy that is wanted; an empty text stands for none. -/
def policy? (target : UpdateTarget) : Option String :=
  target.policy.filter fun policy => !policy.isEmpty

def isRequired (target : UpdateTarget) (delta : Delta) : UpdateStep → Bool
  | .policy => delta.differsAt "Spec.Policy" && target.policy?.isSome
  | .tags => delta.differsAt "Spec.Tags"
  | .rotation => delta.differsAt "Spec.EnableKeyRotation"

/-- The steps that a delta asks for, in their order. -/
def requiredSteps (target : UpdateTarget) (delta : Delta) : List UpdateStep :=
  [UpdateStep.policy, .tags, .rotation].filter (target.isRequired delta)

def perform (target : UpdateTarget) (pages : Nat) (strategy : TagStrategy) :
    UpdateStep → Pass Unit
  | .policy =>
    match target.policy? with
    | some policy => Policy.put target.keyId policy target.bypassPolicyLockoutSafetyCheck
    | none => pure ()
  | .tags =>
    match strategy with
    | .converge => TagSet.reconcile pages target.keyId target.tags
    | .additive => TagSet.apply target.keyId target.tags
  | .rotation => do
    let _ ← Rotation.reconcile target.keyId target.enableKeyRotation

def performAll (target : UpdateTarget) (pages : Nat) (strategy : TagStrategy) :
    List UpdateStep → Program DispatchOutcome
  | [] => pure {}
  | step :: rest => do
    match ← (target.perform pages strategy step).run with
    | .error failure => return { failure := some failure }
    | .ok () =>
      let outcome ← target.performAll pages strategy rest
      return { outcome with applied := step :: outcome.applied }

/-- Takes the steps that a delta asks for, unless the kind of resource refuses it. -/
def dispatch (target : UpdateTarget) (kind : Kind) (delta : Delta) (pages : Nat)
    (strategy : TagStrategy) : Program DispatchOutcome :=
  match delta.failure? kind with
  | some failure => pure { failure := some failure }
  | none => target.performAll pages strategy (target.requiredSteps delta)

end UpdateTarget

end KeySteward
