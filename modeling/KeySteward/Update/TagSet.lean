import KeySteward.Pass.Listing
import KeySteward.Tag

/-! The tags of a key. Tags that are not wanted come off first, and then all that are wanted go on,
also those that are on already. -/

namespace KeySteward.TagSet

/-- All tags of a key. -/
def list (pages : Nat) (keyId : String) : Pass TagMap := do
  let tags ← Pass.all (fun marker => .call (.listResourceTags keyId marker)) pages
  return .ofTags tags

/-- Puts tags on a key; without tags there is nothing to do. -/
def apply (keyId : String) (desired : TagMap) : Pass Unit := do
  if !desired.isEmpty then
    .call (.tagResource keyId desired.toTags)

/-- Makes the tags of a key the desired ones. -/
def reconcile (pages : Nat) (keyId : String) (desired : TagMap) : Pass Unit := do
  let stale := TagMap.removedKeys (← list pages keyId) desired
  if !stale.isEmpty then
    Pass.call (.untagResource keyId stale)
  apply keyId desired

end KeySteward.TagSet
