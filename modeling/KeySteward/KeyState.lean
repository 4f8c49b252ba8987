import KeySteward.Json.Decode

/-! The states in the life of a key. -/

namespace KeySteward

inductive KeyState where
  | creating
  | enabled
  | disabled
  | pendingDeletion
  | pendingImport
  | pendingReplicaDeletion
  | unavailable
  | updating
  deriving DecidableEq, Repr

namespace KeyState

def all : List KeyState :=
  [creating, enabled, disabled, pendingDeletion, pendingImport, pendingReplicaDeletion,
    unavailable, updating]

def name : KeyState → String
  | creating => "Creating"
  | enabled => "Enabled"
  | disabled => "Disabled"
  | pendingDeletion => "PendingDeletion"
  | pendingImport => "PendingImport"
  | pendingReplicaDeletion => "PendingReplicaDeletion"
  | unavailable => "Unavailable"
  | updating => "Updating"

def ofName? (name : String) : Option KeyState :=
  all.find? fun state => state.name == name

/-- The service leaves the state on its own. -/
def isTransitional : KeyState → Bool
  | creating | updating => true
  | _ => false

def isPendingDeletion : KeyState → Bool
  | pendingDeletion | pendingReplicaDeletion => true
  | _ => false

def decode : Json.Decoder KeyState := Json.Decode.variant ofName?

end KeyState

end KeySteward
