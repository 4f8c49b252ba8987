import KeySteward.Json.Basic

/-! What differs between two specs. They are compared member by member in their JSON form, where a
missing member counts as null; a difference names the member by its path. -/

namespace KeySteward

structure Difference where
  path : String
  desired : Json
  latest : Json

/-- The differences in the order of the members' names. -/
abbrev Delta := List Difference

namespace Difference

/-- The path of a spec as a whole. -/
def root : String := "Spec"

/-- The path of a member: the name with its first letter in upper case. -/
def pathOf (name : String) : String :=
  match name.toList with
  | [] => root
  | first :: rest => root ++ "." ++ .ofList (first.toUpper :: rest)

def toJson (difference : Difference) : Json :=
  .ofMembers [
    ("path", .string difference.path),
    ("desired", difference.desired),
    ("latest", difference.latest)]

end Difference

namespace Delta

/-- The names of the members of either object, in order. -/
def names (desired latest : List (String × Json)) : List String :=
  (Entries.ofList (desired ++ latest)).map Prod.fst

/-- The difference under one name, if there is one. -/
def differenceAt (desired latest : List (String × Json)) (name : String) : Option Difference :=
  let wanted := (Entries.get? name desired).getD .null
  let found := (Entries.get? name latest).getD .null
  if wanted == found then none else some ⟨Difference.pathOf name, wanted, found⟩

def ofMembers (desired latest : List (String × Json)) : Delta :=
  (names desired latest).filterMap (differenceAt desired latest)

/-- Null counts as an object without members. Values that are no objects differ as a whole. -/
def between : Json → Json → Delta
  | .object desired, .object latest => ofMembers desired latest
  | .object desired, .null => ofMembers desired []
  | .null, .object latest => ofMembers [] latest
  | desired, latest => if desired == latest then [] else [⟨Difference.root, desired, latest⟩]

def paths (delta : Delta) : List String :=
  delta.map Difference.path

def differsAt (delta : Delta) (path : String) : Bool :=
  delta.any fun difference => difference.path == path

def toJson (delta : Delta) : Json :=
  .array (delta.map Difference.toJson)

end Delta

end KeySteward
