import KeySteward.Json.Basic

/-! Merge patches. A patch that is an object changes the members of its target one by one, where
null takes a member away; any other patch replaces its target. A target that is no object counts as
one without members. -/

namespace KeySteward.Json

mutual
/-- The target after the patch. -/
def merge (patch target : Json) : Json :=
  match patch with
  | object changes => object (mergeMembers changes (target.members?.getD []))
  | value => value
def mergeMembers (changes members : List (String × Json)) : List (String × Json) :=
  match changes with
  | [] => members
  | (name, change) :: rest =>
    mergeMembers rest <|
      if change.isNull then Entries.erase name members
      else Entries.insert name (merge change ((Entries.get? name members).getD null)) members
end

end KeySteward.Json
