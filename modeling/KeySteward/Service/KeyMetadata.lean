import KeySteward.KeyState
import KeySteward.MultiRegion

/-! What the service says about a key. On the wire a point in time is a number of seconds since the
start of 1970, read to the nearest millisecond; one that the calendar does not reach is no point in
time. -/

namespace KeySteward

structure KeyMetadata where
  awsAccountId : Option String := none
  arn : Option String := none
  cloudHsmClusterId : Option String := none
  creationDate : Option Timestamp := none
  customKeyStoreId : Option String := none
  deletionDate : Option Timestamp := none
  description : Option String := none
  enabled : Option Bool := none
  encryptionAlgorithms : List String := []
  expirationModel : Option String := none
  keyId : String
  keyManager : Option String := none
  keySpec : Option String := none
  keyState : Option KeyState := none
  keyUsage : Option String := none
  macAlgorithms : List String := []
  multiRegion : Option Bool := none
  multiRegionConfiguration : Option MultiRegion := none
  origin : Option String := none
  pendingDeletionWindowInDays : Option Int := none
  signingAlgorithms : List String := []
  validTo : Option Timestamp := none
  deriving DecidableEq

/-- The point a number of seconds after the start of 1970: the seconds are multiplied by a thousand,
rounded to the binary format, and then to the nearest millisecond. -/
def Timestamp.ofSeconds? (seconds : Double) : Option Timestamp := do
  let thousand ← Magnitude.ofNat? 1000
  let millis ← seconds.magnitude.mul? thousand
  ofMillis? (Double.round ⟨seconds.negative, millis⟩)

namespace KeyMetadata

/-- Seconds since the start of 1970; also a number that names no point in time may stand there. -/
def decodeDate (fields : Json.Fields) (name : String) :
    Except Json.DecodeError (Option Timestamp) := do
  return (← fields.optional name Json.Decode.double).bind Timestamp.ofSeconds?

def decode : Json.Decoder KeyMetadata := fun document => do
  let fields ← Json.Fields.read
    ["AWSAccountId", "Arn", "CloudHsmClusterId", "CreationDate", "CustomKeyStoreId", "DeletionDate",
      "Description", "Enabled", "EncryptionAlgorithms", "ExpirationModel", "KeyId", "KeyManager",
      "KeySpec", "KeyState", "KeyUsage", "MacAlgorithms", "MultiRegion", "MultiRegionConfiguration",
      "Origin", "PendingDeletionWindowInDays", "SigningAlgorithms", "ValidTo"] document
  return {
    awsAccountId := ← fields.optional "AWSAccountId" Json.Decode.text
    arn := ← fields.optional "Arn" Json.Decode.text
    cloudHsmClusterId := ← fields.optional "CloudHsmClusterId" Json.Decode.text
    creationDate := ← decodeDate fields "CreationDate"
    customKeyStoreId := ← fields.optional "CustomKeyStoreId" Json.Decode.text
    deletionDate := ← decodeDate fields "DeletionDate"
    description := ← fields.optional "Description" Json.Decode.text
    enabled := ← fields.optional "Enabled" Json.Decode.flag
    encryptionAlgorithms := ← fields.orElse "EncryptionAlgorithms" [] Json.Decode.texts
    expirationModel := ← fields.optional "ExpirationModel" Json.Decode.text
    keyId := ← fields.required "KeyId" Json.Decode.text
    keyManager := ← fields.optional "KeyManager" Json.Decode.text
    keySpec := ← fields.optional "KeySpec" Json.Decode.text
    keyState := ← fields.optional "KeyState" KeyState.decode
    keyUsage := ← fields.optional "KeyUsage" Json.Decode.text
    macAlgorithms := ← fields.orElse "MacAlgorithms" [] Json.Decode.texts
    multiRegion := ← fields.optional "MultiRegion" Json.Decode.flag
    multiRegionConfiguration :=
      ← fields.optional "MultiRegionConfiguration" (MultiRegion.decode .wire)
    origin := ← fields.optional "Origin" Json.Decode.text
    pendingDeletionWindowInDays :=
      ← fields.optional "PendingDeletionWindowInDays" Json.Decode.integer
    signingAlgorithms := ← fields.orElse "SigningAlgorithms" [] Json.Decode.texts
    validTo := ← decodeDate fields "ValidTo" }

/-- Every field, with null for what is unset and the dates as `date` writes them. -/
def toJson (date : Timestamp → Json) (metadata : KeyMetadata) : Json :=
  let textOrNull (text : Option String) : Json := text.elim .null .string
  let flagOrNull (flag : Option Bool) : Json := flag.elim .null .bool
  let dateOrNull (time : Option Timestamp) : Json := time.elim .null date
  .ofMembers [
    ("AWSAccountId", textOrNull metadata.awsAccountId),
    ("Arn", textOrNull metadata.arn),
    ("CloudHsmClusterId", textOrNull metadata.cloudHsmClusterId),
    ("CreationDate", dateOrNull metadata.creationDate),
    ("CustomKeyStoreId", textOrNull metadata.customKeyStoreId),
    ("DeletionDate", dateOrNull metadata.deletionDate),
    ("Description", textOrNull metadata.description),
    ("Enabled", flagOrNull metadata.enabled),
    ("EncryptionAlgorithms", .ofStrings metadata.encryptionAlgorithms),
    ("ExpirationModel", textOrNull metadata.expirationModel),
    ("KeyId", .string metadata.keyId),
    ("KeyManager", textOrNull metadata.keyManager),
    ("KeySpec", textOrNull metadata.keySpec),
    ("KeyState", metadata.keyState.elim .null fun state => .string state.name),
    ("KeyUsage", textOrNull metadata.keyUsage),
    ("MacAlgorithms", .ofStrings metadata.macAlgorithms),
    ("MultiRegion", flagOrNull metadata.multiRegion),
    ("MultiRegionConfiguration", metadata.multiRegionConfiguration.elim .null MultiRegion.toWire),
    ("Origin", textOrNull metadata.origin),
    ("PendingDeletionWindowInDays", metadata.pendingDeletionWindowInDays.elim .null .ofInt),
    ("SigningAlgorithms", .ofStrings metadata.signingAlgorithms),
    ("ValidTo", dateOrNull metadata.validTo)]

/-- The key waits for its deletion. -/
def isPendingDeletion (metadata : KeyMetadata) : Bool :=
  metadata.keyState.any KeyState.isPendingDeletion

end KeyMetadata

end KeySteward
