import KeySteward.Json.Parser
import KeySteward.Json.Printer
import KeySteward.Service.Request

/-! The key service over HTTP. A call is a `POST` whose header names the operation and whose body is
a JSON object of its inputs, without those that are unset. An answer with a status of success holds
what the operation answers with; any other holds an error. -/

namespace KeySteward.Wire

structure HttpRequest where
  operation : String
  body : Json

structure HttpResponse where
  status : Nat
  body : List UInt8
  deriving DecidableEq

/-- The value of the header that names the operation. -/
def HttpRequest.target (request : HttpRequest) : String :=
  "TrentService." ++ request.operation

def contentType : String := "application/x-amz-json-1.1"

/-- The address of the service, without slashes at its end. -/
def endpoint (url : String) : String :=
  .ofList (url.toList.reverse.dropWhile (· == '/')).reverse

/-! ### Requests -/

def tagToJson (tag : Tag) : Json :=
  .ofMembers [("TagKey", .string tag.key), ("TagValue", .string tag.value)]

def tagsToJson (tags : List Tag) : Json :=
  .array (tags.map tagToJson)

/-- A list that is left out when it is empty. -/
def unlessEmpty {α : Type} (items : List α) (toJson : List α → Json) : Option Json :=
  if items.isEmpty then none else some (toJson items)

def contextToJson? (context : SortedMap String) : Option Json :=
  if context.isEmpty then none else some (.ofTexts context)

/-- The constraints of a grant, left out when there are none. -/
def constraintsToJson? (grant : NewGrant) : Option Json :=
  if grant.encryptionContextEquals.isEmpty && grant.encryptionContextSubset.isEmpty then none
  else some <| .record [
    ("EncryptionContextEquals", contextToJson? grant.encryptionContextEquals),
    ("EncryptionContextSubset", contextToJson? grant.encryptionContextSubset)]

/-- The inputs of a call. -/
def body : Request → Json
  | .describeKey keyId | .getKeyRotationStatus keyId | .enableKeyRotation keyId
  | .disableKeyRotation keyId => .record [("KeyId", some (.string keyId))]
  | .createKey key => .record [
      ("BypassPolicyLockoutSafetyCheck", key.bypassPolicyLockoutSafetyCheck.map .bool),
      ("CustomKeyStoreId", key.customKeyStoreId.map .string),
      ("Description", key.description.map .string),
      ("KeySpec", key.keySpec.map .string),
      ("KeyUsage", key.keyUsage.map .string),
      ("MultiRegion", key.multiRegion.map .bool),
      ("Origin", key.origin.map .string),
      ("Policy", key.policy.map .string),
      ("Tags", unlessEmpty key.tags tagsToJson)]
  | .replicateKey replica => .record [
      ("KeyId", some (.string replica.keyId)),
      ("ReplicaRegion", some (.string replica.replicaRegion)),
      ("Description", replica.description.map .string),
      ("Policy", replica.policy.map .string),
      ("BypassPolicyLockoutSafetyCheck", replica.bypassPolicyLockoutSafetyCheck.map .bool),
      ("Tags", unlessEmpty replica.tags tagsToJson)]
  | .scheduleKeyDeletion keyId days => .record [
      ("KeyId", some (.string keyId)),
      ("PendingWindowInDays", some (.ofInt days))]
  | .getKeyPolicy keyId policyName => .record [
      ("KeyId", some (.string keyId)),
      ("PolicyName", some (.string policyName))]
  | .putKeyPolicy change => .record [
      ("KeyId", some (.string change.keyId)),
      ("PolicyName", some (.string change.policyName)),
      ("Policy", some (.string change.policy)),
      ("BypassPolicyLockoutSafetyCheck", some (.bool change.bypassPolicyLockoutSafetyCheck))]
  | .listResourceTags keyId marker | .listGrants keyId marker => .record [
      ("KeyId", some (.string keyId)),
      ("Marker", marker.map .string)]
  | .tagResource keyId tags => .record [
      ("KeyId", some (.string keyId)),
      ("Tags", some (tagsToJson tags))]
  | .untagResource keyId tagKeys => .record [
      ("KeyId", some (.string keyId)),
      ("TagKeys", some (.ofStrings tagKeys))]
  | .createAlias aliasName targetKeyId | .updateAlias aliasName targetKeyId => .record [
      ("AliasName", some (.string aliasName)),
      ("TargetKeyId", some (.string targetKeyId))]
  | .deleteAlias aliasName => .record [("AliasName", some (.string aliasName))]
  | .listAliases marker => .record [("Marker", marker.map .string)]
  | .createGrant grant => .record [
      ("KeyId", some (.string grant.keyId)),
      ("GranteePrincipal", some (.string grant.granteePrincipal)),
      ("Operations", some (.ofStrings grant.operations)),
      ("RetiringPrincipal", grant.retiringPrincipal.map .string),
      ("Name", grant.name.map .string),
      ("GrantTokens", unlessEmpty grant.grantTokens .ofStrings),
      ("Constraints", constraintsToJson? grant)]
  | .retireGrant keyId grantId => .record [
      ("KeyId", some (.string keyId)),
      ("GrantId", some (.string grantId))]

def httpRequest (request : Request) : HttpRequest :=
  ⟨request.operation, body request⟩

/-! ### Errors -/

/-- What an error says about itself. -/
structure ErrorBody where
  type : Option String := none
  message : Option String := none

/-- The message may also be spelled with a capital letter, but not given twice. -/
def decodeErrorBody : Json.Decoder ErrorBody := fun document => do
  let document := match document with
    | .object members => .object <| members.map fun (name, member) =>
        (if name == some "Message" then some "message" else name, member)
    | other => other
  let fields ← Json.Fields.read ["__type", "message"] document
  return {
    type := ← fields.optional "__type" Json.Decode.text
    message := ← fields.optional "message" Json.Decode.text }

/-- The part of an error type behind its last number sign. -/
def errorCode (type : String) : String :=
  .ofList (type.toList.reverse.takeWhile (· != '#')).reverse

/-- The error in a response that is no success. A body that says nothing about the error is the
message itself, and the status stands for the code. -/
def responseError (response : HttpResponse) : ServiceError :=
  let document := Json.Document.ofBytes? response.body
  let said := (document.bind fun document => (decodeErrorBody document).toOption).getD {}
  let code := (said.type.map errorCode).getD ("Http" ++ toString response.status)
  .api code (said.message.getD (Text.Utf8.lossy response.body))

/-! ### Answers -/

def decodeTag : Json.Decoder Tag := fun document => do
  let fields ← Json.Fields.read ["TagKey", "TagValue"] document
  return {
    key := ← fields.required "TagKey" Json.Decode.text
    value := ← fields.orElse "TagValue" "" Json.Decode.text }

def decodeAlias : Json.Decoder AliasEntry := fun document => do
  let fields ← Json.Fields.read
    ["AliasName", "AliasArn", "TargetKeyId", "CreationDate", "LastUpdatedDate"] document
  return {
    aliasName := ← fields.required "AliasName" Json.Decode.text
    aliasArn := ← fields.optional "AliasArn" Json.Decode.text
    targetKeyId := ← fields.optional "TargetKeyId" Json.Decode.text
    creationDate := ← KeyMetadata.decodeDate fields "CreationDate"
    lastUpdatedDate := ← KeyMetadata.decodeDate fields "LastUpdatedDate" }

def decodeGrant : Json.Decoder GrantEntry := fun document => do
  let fields ← Json.Fields.read
    ["GrantId", "KeyId", "Name", "GranteePrincipal", "RetiringPrincipal", "Operations",
      "CreationDate"] document
  return {
    grantId := ← fields.required "GrantId" Json.Decode.text
    keyId := ← fields.required "KeyId" Json.Decode.text
    name := ← fields.optional "Name" Json.Decode.text
    granteePrincipal := ← fields.optional "GranteePrincipal" Json.Decode.text
    retiringPrincipal := ← fields.optional "RetiringPrincipal" Json.Decode.text
    operations := ← fields.orElse "Operations" [] Json.Decode.texts
    creationDate := ← KeyMetadata.decodeDate fields "CreationDate" }

def decodePage {α : Type} (name : String) (decode : Json.Decoder α) : Json.Decoder (Page α) :=
  fun document => do
    let fields ← Json.Fields.read [name, "NextMarker", "Truncated"] document
    return {
      items := ← fields.orElse name [] (Json.Decode.list decode)
      nextMarker := ← fields.optional "NextMarker" Json.Decode.text
      truncated := (← fields.optional "Truncated" Json.Decode.flag).getD false }

/-- A key's metadata as the only member of an object. -/
def decodeMetadata (name : String) : Json.Decoder KeyMetadata := fun document => do
  let fields ← Json.Fields.read [name] document
  fields.required name KeyMetadata.decode

def decodeDeletion : Json.Decoder ScheduledDeletion := fun document => do
  let fields ← Json.Fields.read
    ["KeyId", "KeyState", "DeletionDate", "PendingWindowInDays"] document
  return {
    keyId := ← fields.required "KeyId" Json.Decode.text
    keyState := ← fields.optional "KeyState" KeyState.decode
    deletionDate := ← KeyMetadata.decodeDate fields "DeletionDate"
    pendingWindowInDays := ← fields.optional "PendingWindowInDays" Json.Decode.integer }

/-- A rotation status; null stands for none. -/
def decodeRotation : Json.Decoder (Option Bool)
  | .null => .ok none
  | document => do
    let fields ← Json.Fields.read ["KeyRotationEnabled"] document
    fields.optional "KeyRotationEnabled" Json.Decode.flag

def decodePolicy : Json.Decoder (Option String) := fun document => do
  let fields ← Json.Fields.read ["Policy"] document
  fields.optional "Policy" Json.Decode.text

def decodeCreatedGrant : Json.Decoder CreatedGrant := fun document => do
  let fields ← Json.Fields.read ["GrantId", "GrantToken"] document
  return {
    grantId := ← fields.required "GrantId" Json.Decode.text
    grantToken := ← fields.optional "GrantToken" Json.Decode.text }

/-- The answer in the value of a response. An operation that only does something passes over the
value. -/
def decodeAnswer : (request : Request) → Json.Decoder request.Answer
  | .describeKey _ | .createKey _ => decodeMetadata "KeyMetadata"
  | .replicateKey _ => decodeMetadata "ReplicaKeyMetadata"
  | .scheduleKeyDeletion _ _ => decodeDeletion
  | .getKeyRotationStatus _ => decodeRotation
  | .getKeyPolicy _ _ => decodePolicy
  | .listResourceTags _ _ => decodePage "Tags" decodeTag
  | .listAliases _ => decodePage "Aliases" decodeAlias
  | .createGrant _ => decodeCreatedGrant
  | .listGrants _ _ => decodePage "Grants" decodeGrant
  | .enableKeyRotation _ | .disableKeyRotation _ | .putKeyPolicy _ | .tagResource _ _
  | .untagResource _ _ | .createAlias _ _ | .updateAlias _ _ | .deleteAlias _
  | .retireGrant _ _ => fun _ => .ok ()

/-- The value of a body; an empty one is null. -/
def bodyValue? (bytes : List UInt8) : Option Json :=
  if bytes.isEmpty then some .null else Json.ofBytes? bytes

def isSuccess (status : Nat) : Bool :=
  200 ≤ status && status ≤ 299

/-- What a response answers to a call. -/
def answer (request : Request) (response : HttpResponse) : Except ServiceError request.Answer :=
  if isSuccess response.status then
    match bodyValue? response.body with
    | none => .error (.malformed "the body is no JSON value")
    | some value =>
      match decodeAnswer request value.document with
      | .ok answer => .ok answer
      | .error error => .error (.malformed error.message)
  else .error (responseError response)

/-! ### Service -/

/-- A way to carry a request to the service and its response back, if one comes. -/
structure Link (σ : Type) where
  exchange : HttpRequest → σ → Option HttpResponse × σ

def Link.service {σ : Type} (link : Link σ) : Service σ where
  handle request state :=
    match link.exchange (httpRequest request) state with
    | (some response, after) => ((answer request response).mapError .refused, after)
    | (none, after) => (.error (.refused (.transport "no response")), after)

/-- A link to an address at which nothing listens. -/
def Link.unreachable {σ : Type} : Link σ where
  exchange _ state := (none, state)

/-- Responses to come, a missing one being a connection that closes without a response, and the
requests that came so far. -/
structure Script where
  responses : List (Option HttpResponse)
  requests : List HttpRequest := []

/-- The response of a script that has come to its end. -/
def Script.exhausted : HttpResponse where
  status := 599
  body := Text.Utf8.encode
    "\x7b\"__type\":\"OutOfReplies\",\"message\":\"no reply left\"\x7d"

/-- A link to a server that gives each request the next response of a script. -/
def Link.scripted : Link Script where
  exchange request script :=
    let requests := script.requests ++ [request]
    match script.responses with
    | [] => (some Script.exhausted, { script with requests })
    | response :: responses => (response, { responses, requests })

end KeySteward.Wire
