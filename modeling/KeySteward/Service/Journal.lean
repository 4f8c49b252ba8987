import KeySteward.Service.Request

/-! Calls and their answers as JSON, in the form in which a journal shows them. A call is shown with
the inputs that say what it is about. -/

namespace KeySteward

namespace Request

/-- The inputs of a call that a journal shows. -/
def shownInputs : Request → List (String × Json)
  | describeKey keyId | getKeyRotationStatus keyId | enableKeyRotation keyId
  | disableKeyRotation keyId | getKeyPolicy keyId _ => [("key_id", .string keyId)]
  | createKey key => [("tags", .array (key.tags.map Tag.toJson))]
  | replicateKey replica =>
    [("key_id", .string replica.keyId), ("replica_region", .string replica.replicaRegion)]
  | scheduleKeyDeletion keyId days =>
    [("key_id", .string keyId), ("pending_window_in_days", .ofInt days)]
  | putKeyPolicy change => [
      ("key_id", .string change.keyId),
      ("policy_name", .string change.policyName),
      ("policy", .string change.policy),
      ("bypass", .bool change.bypassPolicyLockoutSafetyCheck)]
  | listResourceTags keyId marker | listGrants keyId marker =>
    [("key_id", .string keyId), ("marker", .ofOption marker .string)]
  | tagResource keyId tags =>
    [("key_id", .string keyId), ("tags", .array (tags.map Tag.toJson))]
  | untagResource keyId tagKeys =>
    [("key_id", .string keyId), ("tag_keys", .ofStrings tagKeys)]
  | createAlias aliasName target | updateAlias aliasName target =>
    [("alias_name", .string aliasName), ("target_key_id", .string target)]
  | deleteAlias aliasName => [("alias_name", .string aliasName)]
  | listAliases marker => [("marker", .ofOption marker .string)]
  | createGrant grant => [
      ("key_id", .string grant.keyId),
      ("grantee_principal", .string grant.granteePrincipal),
      ("operations", .ofStrings grant.operations)]
  | retireGrant keyId grantId =>
    [("key_id", .string keyId), ("grant_id", .string grantId)]

/-- The entry of a call in a journal. -/
def toJson (request : Request) : Json :=
  .ofMembers (("call", .string request.operation) :: request.shownInputs)

end Request

def dateToJson (date : Option Timestamp) : Json :=
  .ofOption date fun date => .string date.render

def Page.toJson {α : Type} (name : String) (item : α → Json) (page : Page α) : Json :=
  .ofMembers [
    (name, .array (page.items.map item)),
    ("next_marker", .ofOption page.nextMarker .string),
    ("truncated", .bool page.truncated)]

def AliasEntry.toJson (entry : AliasEntry) : Json :=
  .ofMembers [
    ("alias_name", .string entry.aliasName),
    ("alias_arn", .ofOption entry.aliasArn .string),
    ("target_key_id", .ofOption entry.targetKeyId .string),
    ("creation_date", dateToJson entry.creationDate),
    ("last_updated_date", dateToJson entry.lastUpdatedDate)]

def GrantEntry.toJson (entry : GrantEntry) : Json :=
  .ofMembers [
    ("grant_id", .string entry.grantId),
    ("key_id", .string entry.keyId),
    ("name", .ofOption entry.name .string),
    ("grantee_principal", .ofOption entry.granteePrincipal .string),
    ("retiring_principal", .ofOption entry.retiringPrincipal .string),
    ("operations", .ofStrings entry.operations),
    ("creation_date", dateToJson entry.creationDate)]

def ScheduledDeletion.toJson (deletion : ScheduledDeletion) : Json :=
  .ofMembers [
    ("key_id", .string deletion.keyId),
    ("key_state", .ofOption deletion.keyState fun state => .string state.name),
    ("deletion_date", dateToJson deletion.deletionDate),
    ("pending_window_in_days", .ofOption deletion.pendingWindowInDays .ofInt)]

def CreatedGrant.toJson (created : CreatedGrant) : Json :=
  .ofMembers [
    ("grant_id", .string created.grantId),
    ("grant_token", .ofOption created.grantToken .string)]

/-- The answer to a call, with the dates of a key's metadata as `date` writes them. An operation
that only does something answers with null. -/
def Request.answerToJson (date : Timestamp → Json) :
    (request : Request) → request.Answer → Json
  | .describeKey _, metadata | .createKey _, metadata | .replicateKey _, metadata =>
    metadata.toJson date
  | .scheduleKeyDeletion _ _, deletion => deletion.toJson
  | .getKeyRotationStatus _, status => .ofOption status .bool
  | .getKeyPolicy _ _, policy => .ofOption policy .string
  | .listResourceTags _ _, page => page.toJson "tags" Tag.toJson
  | .listAliases _, page => page.toJson "aliases" AliasEntry.toJson
  | .listGrants _ _, page => page.toJson "grants" GrantEntry.toJson
  | .createGrant _, created => created.toJson
  | .enableKeyRotation _, _ | .disableKeyRotation _, _ | .putKeyPolicy _, _ | .tagResource _ _, _
  | .untagResource _ _, _ | .createAlias _ _, _ | .updateAlias _ _, _ | .deleteAlias _, _
  | .retireGrant _ _, _ => .null

end KeySteward
