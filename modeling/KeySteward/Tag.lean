import KeySteward.Json.Decode
import KeySteward.SortedMap

/-! Tags of a key. A `TagMap` has one value for each tag key; its list form is sorted by key, so
equal maps have equal lists, and reading a list keeps the last value of a repeated key. -/

namespace KeySteward

structure Tag where
  key : String
  value : String := ""
  deriving DecidableEq

namespace Tag

def toJson (tag : Tag) : Json :=
  .object [("tagKey", .string tag.key), ("tagValue", .string tag.value)]

def decode : Json.Decoder Tag := fun document => do
  let fields ← Json.Fields.read ["tagKey", "tagValue"] document
  return {
    key := ← fields.required "tagKey" Json.Decode.text
    value := ← fields.orElse "tagValue" "" Json.Decode.text }

end Tag

abbrev TagMap := SortedMap String

namespace TagMap

def ofTags (tags : List Tag) : TagMap :=
  .ofList (tags.map fun tag => (tag.key, tag.value))

def toTags (tags : TagMap) : List Tag :=
  tags.entries.map fun entry => ⟨entry.1, entry.2⟩

/-- Puts every tag of a list on, in its order. -/
def insertAll (tags : TagMap) (added : List Tag) : TagMap :=
  added.foldl (fun tags tag => tags.insert tag.key tag.value) tags

/-- Takes every listed key off. -/
def eraseAll (tags : TagMap) (keys : List String) : TagMap :=
  keys.foldl SortedMap.erase tags

/-- The keys of a map that the desired map does not have, in order. -/
def removedKeys (latest desired : TagMap) : List String :=
  latest.keys.filter fun key => !desired.contains key

def toJson (tags : TagMap) : Json :=
  .array (tags.toTags.map Tag.toJson)

/-- A list of tags; null is the empty list. -/
def decode : Json.Decoder TagMap := fun document => do
  let tags ← Json.Decode.nullable (Json.Decode.list Tag.decode) document
  return ofTags (tags.getD [])

end TagMap

end KeySteward
