import KeySteward.Delta
import KeySteward.Pass.Failure
import KeySteward.Resource.Kind

/-! Which differences a kind of resource takes on after its creation. One that it does not take on
is a terminal failure of the whole change. -/

namespace KeySteward.Delta

/-- The paths that may not change for a kind. -/
def unsupported (delta : Delta) (kind : Kind) : List String :=
  delta.paths.filter fun path => !kind.isMutable path

/-- Why a kind refuses a change, if it does. -/
def refusal? (delta : Delta) (kind : Kind) : Option String :=
  let paths := delta.unsupported kind
  if paths.isEmpty then none
  else match kind.profile.updates with
    | .unsupported message => some message
    | .allowed _ =>
      some ("Immutable Spec fields have been modified: " ++ ",".intercalate paths)

/-- The failure of a change that a kind refuses. -/
def failure? (delta : Delta) (kind : Kind) : Option Failure :=
  (delta.refusal? kind).map .terminal

end KeySteward.Delta
