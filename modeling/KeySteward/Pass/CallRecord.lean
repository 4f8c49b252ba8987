import KeySteward.Pass.Failure
import KeySteward.Service.Request

/-! Records of the calls that a pass makes: the sort of operation, its name, and how the call went.
-/

namespace KeySteward

inductive Verb where
  | readOne
  | readMany
  | create
  | update
  | delete
  deriving DecidableEq, Repr

def Verb.name : Verb → String
  | readOne => "READ_ONE"
  | readMany => "READ_MANY"
  | create => "CREATE"
  | update => "UPDATE"
  | delete => "DELETE"

/-- The sort of operation that a request asks for. -/
def Request.verb : Request → Verb
  | describeKey _ | getKeyRotationStatus _ | getKeyPolicy _ _ => .readOne
  | listResourceTags _ _ | listAliases _ | listGrants _ _ => .readMany
  | createKey _ | replicateKey _ | createAlias _ _ | createGrant _ => .create
  | scheduleKeyDeletion _ _ | deleteAlias _ | retireGrant _ _ => .delete
  | enableKeyRotation _ | disableKeyRotation _ | putKeyPolicy _ | tagResource _ _
  | untagResource _ _ | updateAlias _ _ => .update

inductive CallOutcome where
  | ok
  | notFound
  | cancelled
  | error
  deriving DecidableEq, Repr

namespace CallOutcome

def name : CallOutcome → String
  | ok => "ok"
  | notFound => "not_found"
  | cancelled => "cancelled"
  | error => "error"

/-- A call past its deadline counts as cancelled. -/
def ofFailure (failure : Failure) : CallOutcome :=
  if failure.isNotFound then notFound
  else match failure with
    | .cancelled | .deadlineExceeded => cancelled
    | _ => error

def ofResult {α : Type} : Except Failure α → CallOutcome
  | .ok _ => ok
  | .error failure => ofFailure failure

end CallOutcome

structure CallRecord where
  verb : Verb
  operation : String
  outcome : CallOutcome
  deriving DecidableEq

namespace CallRecord

/-- The record of a call and its result. -/
def ofCall {α : Type} (request : Request) (result : Except Failure α) : CallRecord :=
  ⟨request.verb, request.operation, .ofResult result⟩

def render (record : CallRecord) : String :=
  record.verb.name ++ " " ++ record.operation ++ " " ++ record.outcome.name

end CallRecord

end KeySteward
