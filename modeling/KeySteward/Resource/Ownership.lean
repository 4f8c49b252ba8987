import KeySteward.Json.Decode

/-! Where a remote resource lives: its ARN, its region and the account that owns it. -/

namespace KeySteward

structure Ownership where
  arn : Option String := none
  ownerAccountId : Option String := none
  region : Option String := none
  deriving DecidableEq

namespace Ownership

def decode : Json.Decoder Ownership := fun document => do
  let fields ← Json.Fields.read ["arn", "ownerAccountID", "region"] document
  return {
    arn := ← fields.optional "arn" Json.Decode.text
    ownerAccountId := ← fields.optional "ownerAccountID" Json.Decode.text
    region := ← fields.optional "region" Json.Decode.text }

def toJson (ownership : Ownership) : Json :=
  .record [
    ("arn", ownership.arn.map .string),
    ("ownerAccountID", ownership.ownerAccountId.map .string),
    ("region", ownership.region.map .string)]

end Ownership

/-- The region and the account that a manager works in. -/
structure AccountScope where
  region : String
  accountId : String
  deriving DecidableEq

/-- The ownership of a resource; an unnamed owner is the account of the scope. -/
def AccountScope.ownership (scope : AccountScope) (arn owner : Option String) : Ownership :=
  { arn, ownerAccountId := some (owner.getD scope.accountId), region := some scope.region }

end KeySteward
