import KeySteward.Json.Basic

/-! JSON as it is written. A document keeps every member of an object, also those whose name comes
twice, and marks what is grammatical but has no value as unreadable: such a part does no harm where
nobody reads it. `Document.value?` reads a whole document as a value. -/

namespace KeySteward.Json

/-- A name that is `none` has no text. -/
inductive Document where
  | null
  | bool (value : Bool)
  | number (value : Number)
  | string (value : String)
  | array (items : List Document)
  | object (members : List (Option String × Document))
  | unreadable

namespace Document

instance : Inhabited Document := ⟨null⟩

mutual
/-- The value that a document writes, if all of it is readable. Of several members under one name
the last stays. -/
def value? : Document → Option Json
  | null => some .null
  | bool value => some (.bool value)
  | number value => some (.number value)
  | string value => some (.string value)
  | array items => (itemValues? items).map .array
  | object members => (memberValues? members).map .ofMembers
  | unreadable => none
def itemValues? : List Document → Option (List Json)
  | [] => some []
  | item :: rest => do
    let value ← value? item
    return value :: (← itemValues? rest)
def memberValues? : List (Option String × Document) → Option (List (String × Json))
  | [] => some []
  | (name, member) :: rest => do
    let name ← name
    let value ← value? member
    return (name, value) :: (← memberValues? rest)
end

end Document

mutual
/-- The document that writes a value. -/
def document : Json → Document
  | null => .null
  | bool value => .bool value
  | number value => .number value
  | string value => .string value
  | array items => .array (itemDocuments items)
  | object members => .object (memberDocuments members)
def itemDocuments : List Json → List Document
  | [] => []
  | item :: rest => document item :: itemDocuments rest
def memberDocuments : List (String × Json) → List (Option String × Document)
  | [] => []
  | (name, value) :: rest => (some name, document value) :: memberDocuments rest
end

end KeySteward.Json
