import KeySteward.Json.Decode

/-! Conditions of a resource: what its last passes came to. There is at most one condition of each
type, which `Conditions` makes sure of by having one place for each; the list form names them in the
order of the type `ConditionType`. -/

namespace KeySteward

inductive ConditionType where
  | terminal
  | recoverable
  | synced
  deriving DecidableEq, Repr

namespace ConditionType

def all : List ConditionType := [terminal, recoverable, synced]

def name : ConditionType → String
  | terminal => "Terminal"
  | recoverable => "Recoverable"
  | synced => "Synced"

def ofName? (name : String) : Option ConditionType :=
  all.find? fun type => type.name == name

def decode : Json.Decoder ConditionType := Json.Decode.variant ofName?

end ConditionType

inductive ConditionStatus where
  | true
  | false
  | unknown
  deriving DecidableEq, Repr

namespace ConditionStatus

def all : List ConditionStatus := [.true, .false, .unknown]

def name : ConditionStatus → String
  | .true => "True"
  | .false => "False"
  | .unknown => "Unknown"

def ofName? (name : String) : Option ConditionStatus :=
  all.find? fun status => status.name == name

def ofBool (value : Bool) : ConditionStatus :=
  if value then .true else .false

def decode : Json.Decoder ConditionStatus := Json.Decode.variant ofName?

end ConditionStatus

/-- A condition apart from its type. -/
structure ConditionState where
  status : ConditionStatus := .unknown
  lastTransitionTime : Option Timestamp := none
  reason : Option String := none
  message : Option String := none
  deriving DecidableEq

/-- Records a status and its message. The transition time moves only when the status changes. -/
def ConditionState.set (state : ConditionState) (now : Timestamp) (status : Bool)
    (message : Option String) : ConditionState :=
  if state.status = .ofBool status then { state with message }
  else { state with status := .ofBool status, lastTransitionTime := some now, message }

structure Condition where
  type : ConditionType
  state : ConditionState
  deriving DecidableEq

namespace Condition

def isTrue (condition : Condition) : Bool :=
  condition.state.status == .true

def toJson (condition : Condition) : Json :=
  .record [
    ("type", some (.string condition.type.name)),
    ("status", some (.string condition.state.status.name)),
    ("lastTransitionTime", condition.state.lastTransitionTime.map fun time => .string time.render),
    ("reason", condition.state.reason.map .string),
    ("message", condition.state.message.map .string)]

def decode : Json.Decoder Condition := fun document => do
  let fields ← Json.Fields.read
    ["type", "status", "lastTransitionTime", "reason", "message"] document
  return {
    type := ← fields.required "type" ConditionType.decode
    state := {
      status := ← fields.required "status" ConditionStatus.decode
      lastTransitionTime := ← fields.optional "lastTransitionTime" Json.Decode.timestamp
      reason := ← fields.optional "reason" Json.Decode.text
      message := ← fields.optional "message" Json.Decode.text } }

end Condition

/-- The conditions of a resource, one place for each type. -/
structure Conditions where
  terminal : Option ConditionState := none
  recoverable : Option ConditionState := none
  synced : Option ConditionState := none
  deriving DecidableEq

namespace Conditions

instance : Inhabited Conditions := ⟨{}⟩

def get? (conditions : Conditions) : ConditionType → Option ConditionState
  | .terminal => conditions.terminal
  | .recoverable => conditions.recoverable
  | .synced => conditions.synced

def put (conditions : Conditions) (type : ConditionType) (state : ConditionState) : Conditions :=
  match type with
  | .terminal => { conditions with terminal := some state }
  | .recoverable => { conditions with recoverable := some state }
  | .synced => { conditions with synced := some state }

/-- Adds a condition of unknown status where there is none of the type. -/
def ensure (conditions : Conditions) (type : ConditionType) : Conditions :=
  conditions.put type ((conditions.get? type).getD {})

/-- Records a status for a type, adding the condition first if there is none. -/
def set (conditions : Conditions) (now : Timestamp) (type : ConditionType) (status : Bool)
    (message : Option String) : Conditions :=
  conditions.put type (((conditions.get? type).getD {}).set now status message)

/-- Records that a condition no longer holds, if there is one. -/
def clear (conditions : Conditions) (now : Timestamp) (type : ConditionType) : Conditions :=
  match conditions.get? type with
  | some state => conditions.put type (state.set now false none)
  | none => conditions

def toList (conditions : Conditions) : List Condition :=
  ConditionType.all.filterMap fun type => (conditions.get? type).map fun state => ⟨type, state⟩

/-- Of several conditions of one type the last stays. -/
def ofList (list : List Condition) : Conditions :=
  list.foldl (fun conditions condition => conditions.put condition.type condition.state) {}

def isEmpty (conditions : Conditions) : Bool :=
  conditions.toList.isEmpty

def size (conditions : Conditions) : Nat :=
  conditions.toList.length

def isTrue (conditions : Conditions) (type : ConditionType) : Bool :=
  (conditions.get? type).any fun state => state.status == .true

def toJson (conditions : Conditions) : Json :=
  .array (conditions.toList.map Condition.toJson)

/-- An entry of a list of conditions. One that is no condition, such as one of another type, is
passed over. -/
def entry? (document : Json.Document) : Except Json.DecodeError (Option Condition) :=
  if document.value?.isNone then .error .unreadable
  else .ok (Condition.decode document).toOption

/-- A list of conditions; null is the empty list. -/
def decode : Json.Decoder Conditions := fun document => do
  let entries ← Json.Decode.nullable (Json.Decode.list entry?) document
  return ofList ((entries.getD []).filterMap id)

@[simp] theorem get?_put (conditions : Conditions) (type other : ConditionType)
    (state : ConditionState) :
    (conditions.put type state).get? other =
      if type = other then some state else conditions.get? other := by
  cases type <;> cases other <;> simp [put, get?]

end Conditions

end KeySteward
