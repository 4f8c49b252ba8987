import KeySteward.Json.Parser
import KeySteward.Pass.Program

/-! The policy of a key, a JSON text. Two texts are the same policy when both are JSON and have the
same value, however they are written; a text that is no JSON is only the same as itself. -/

namespace KeySteward.Policy

/-- The only policy that a key has. -/
def name : String := "default"

def equivalent (a b : String) : Bool :=
  match Json.ofText? a, Json.ofText? b with
  | some a, some b => a == b
  | _, _ => a == b

/-- The policy that is found, in the words of the one that is wanted where they are equivalent. A
policy that nobody asks for is not reported. -/
def observed : (desired found : Option String) → Option String
  | none, _ => none
  | some _, none => none
  | some desired, some found => some (if equivalent desired found then desired else found)

/-- Puts a policy in place; the check against locking oneself out is left on unless asked for. -/
def put (keyId policy : String) (bypass : Option Bool) : Pass Unit :=
  .call (.putKeyPolicy {
    keyId
    policyName := name
    policy
    bypassPolicyLockoutSafetyCheck := bypass.getD false })

def get (keyId : String) : Pass (Option String) :=
  .call (.getKeyPolicy keyId name)

end KeySteward.Policy
