import KeySteward.Json.Basic
import KeySteward.Text.Target

/-! Writes to the Kubernetes API. Each is a patch of an object or of its status: a value to be
merged, or a list of operations of which none is carried out unless all are. -/

namespace KeySteward

inductive PatchOperation where
  | test (path : String) (value : Json)
  | add (path : String) (value : Json)
  | remove (path : String)

def PatchOperation.toJson : PatchOperation → Json
  | test path value =>
    .ofMembers [("op", .string "test"), ("path", .string path), ("value", value)]
  | add path value =>
    .ofMembers [("op", .string "add"), ("path", .string path), ("value", value)]
  | remove path => .ofMembers [("op", .string "remove"), ("path", .string path)]

inductive Patch where
  | merge (value : Json)
  | operations (list : List PatchOperation)

namespace Patch

def contentType : Patch → String
  | merge _ => "application/merge-patch+json"
  | operations _ => "application/json-patch+json"

def toJson : Patch → Json
  | merge value => value
  | operations list => .array (list.map PatchOperation.toJson)

end Patch

/-- The part of an object that a write is for. -/
inductive ObjectPart where
  | whole
  | status
  deriving DecidableEq, Repr

/-- A patch of an object, or of its status, among the objects at a path. -/
structure ObjectWrite where
  collection : String
  name : String
  part : ObjectPart
  patch : Patch

namespace ObjectWrite

def method : String := "PATCH"

/-- The target of the request. Its query is empty. -/
def target (write : ObjectWrite) : String :=
  let part := match write.part with
    | .whole => ""
    | .status => "/status"
  write.collection ++ "/" ++ write.name ++ part ++ "?"

/-- The path that the request names. There is none for a name or a namespace that would need an
escape. A question mark or a number sign in either ends the path. -/
def path? (write : ObjectWrite) : Option String :=
  Text.Target.path? write.target

end ObjectWrite

end KeySteward
