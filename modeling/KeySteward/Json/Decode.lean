import KeySteward.Json.Document
import KeySteward.Timestamp.Rfc3339

/-! Reading typed data from documents. Nothing is converted: a text is no number and a fraction no
whole number. A record is an object, whose unknown members are passed over, or the array of its
fields in their order; `Fields` holds the fields that are there, and a field is then demanded, left
out or given a default. -/

namespace KeySteward.Json

/-- Why a document is not the data that was asked for. -/
inductive DecodeError where
  | expected (what : String)
  | unknownVariant (name : String)
  | missingField (name : String)
  | duplicateField (name : String)
  | surplusItem
  | unreadable
  deriving DecidableEq, Repr

def DecodeError.message : DecodeError → String
  | expected what => "expected " ++ what
  | unknownVariant name => "unknown variant " ++ name
  | missingField name => "missing field " ++ name
  | duplicateField name => "duplicate field " ++ name
  | surplusItem => "more items than fields"
  | unreadable => "no readable value"

abbrev Decoder (α : Type) := Document → Except DecodeError α

namespace Decode

variable {α : Type}

def text : Decoder String
  | .string value => .ok value
  | .unreadable => .error .unreadable
  | _ => .error (.expected "a string")

def flag : Decoder Bool
  | .bool value => .ok value
  | .unreadable => .error .unreadable
  | _ => .error (.expected "a boolean")

/-- A whole number of a signed word of 64 bits. -/
def integer : Decoder Int
  | .number (.whole value) =>
    if value ≤ Text.greatestInteger then .ok value else .error (.expected "an integer")
  | .unreadable => .error .unreadable
  | _ => .error (.expected "an integer")

/-- Any number, rounded to the binary format. -/
def double : Decoder Double
  | .number (.double value) => .ok value
  | .number (.whole value) =>
    match Double.ofInt? value with
    | some value => .ok value
    | none => .error (.expected "a number")
  | .unreadable => .error .unreadable
  | _ => .error (.expected "a number")

/-- A value that may be null. -/
def nullable (decode : Decoder α) : Decoder (Option α)
  | .null => .ok none
  | document => (decode document).map some

def list (decode : Decoder α) : Decoder (List α)
  | .array items => items.mapM decode
  | .unreadable => .error .unreadable
  | _ => .error (.expected "an array")

def texts : Decoder (List String) :=
  list text

/-- An object of values of one kind; of several members under one name the last stays. -/
def mapping (decode : Decoder α) : Decoder (SortedMap α)
  | .object members => do
    let entries ← members.mapM fun (name, member) => do
      let some name := name | throw .unreadable
      return (name, ← decode member)
    return .ofList entries
  | .unreadable => .error .unreadable
  | _ => .error (.expected "an object")

/-- One of a few named values: the name, or an object with the name as its only member and null as
its value. -/
def variant (read : String → Option α) (document : Document) : Except DecodeError α := do
  let name ← match document with
    | .string name => pure name
    | .object [(some name, .null)] => pure name
    | _ => throw (.expected "a variant")
  match read name with
  | some value => return value
  | none => throw (.unknownVariant name)

/-- A text that names a point in time. -/
def timestamp (document : Document) : Except DecodeError Timestamp := do
  match Timestamp.parse? (← text document) with
  | some time => return time
  | none => throw (.expected "a point in time")

end Decode

/-- The fields of a record that a document holds. -/
abbrev Fields := List (String × Document)

namespace Fields

variable {α : Type}

def ofMembers (names : List String) :
    List (Option String × Document) → Except DecodeError Fields
  | [] => .ok []
  | (none, _) :: _ => .error .unreadable
  | (some name, member) :: rest => do
    let fields ← ofMembers names rest
    if name ∈ names then
      if (Entries.get? name fields).isSome then throw (.duplicateField name)
      return (name, member) :: fields
    else return fields

/-- The fields with the given names, in the order in which an array lists them. -/
def read (names : List String) : Document → Except DecodeError Fields
  | .object members => ofMembers names members
  | .array items =>
    if names.length < items.length then .error .surplusItem else .ok (names.zip items)
  | .unreadable => .error .unreadable
  | _ => .error (.expected "a record")

/-- The fields of a record that an array lists without leaving any out. -/
def readWhole (names : List String) : Document → Except DecodeError Fields
  | .array items =>
    match names.drop items.length with
    | name :: _ => .error (.missingField name)
    | [] => read names (.array items)
  | document => read names document

/-- The fields of a record that is never written as an array. -/
def readObject (names : List String) : Document → Except DecodeError Fields
  | .array _ => .error (.expected "an object")
  | document => read names document

/-- A field that has to be there. -/
def required (fields : Fields) (name : String) (decode : Decoder α) : Except DecodeError α :=
  match Entries.get? name fields with
  | some document => decode document
  | none => .error (.missingField name)

/-- A field that has a value of its own where it is missing. -/
def orElse (fields : Fields) (name : String) (absent : α) (decode : Decoder α) :
    Except DecodeError α :=
  match Entries.get? name fields with
  | some document => decode document
  | none => .ok absent

/-- A field that may be missing or null. -/
def optional (fields : Fields) (name : String) (decode : Decoder α) :
    Except DecodeError (Option α) :=
  fields.orElse name none (Decode.nullable decode)

end Fields

end KeySteward.Json
