import KeySteward.Proofs.MemoryChanges

/-! Calls about one key. Such a call has an answer that depends on the key and on nothing else that can
change, and it changes nothing but the key and the journal. So what the service holds after some of
them is what it held before with another key under the same id. -/

namespace KeySteward

variable {memory other : Memory} {name keyId : String} {stored key : StoredKey} {request : Request}

namespace Request

/-- The request reads the named key or changes it in place. -/
def IsAbout (name : String) : Request → Prop
  | describeKey other | listResourceTags other _ | getKeyRotationStatus other | getKeyPolicy other _
  | tagResource other _ | untagResource other _ | enableKeyRotation other
  | disableKeyRotation other => other = name
  | putKeyPolicy change => change.keyId = name
  | _ => False

theorem ReadsKey.isAbout (reads : request.ReadsKey name) : request.IsAbout name := by
  cases request <;> first | exact reads | cases reads

theorem AdjustsKey.isAbout (adjusts : request.AdjustsKey name) : request.IsAbout name := by
  cases request <;> first | exact adjusts | cases adjusts

end Request

namespace Memory

def withKey (memory : Memory) (keyId : String) (key : StoredKey) : Memory :=
  memory.withStore { memory.store with keys := memory.store.keys.insert keyId key }

section WithKey

theorem withKey_withKey (memory : Memory) (keyId : String) (first second : StoredKey) :
    (memory.withKey keyId first).withKey keyId second = memory.withKey keyId second := by
  have keys : (memory.store.keys.insert keyId first).insert keyId second =
      memory.store.keys.insert keyId second := by
    refine SortedMap.ext_get? fun name => ?_
    simp only [SortedMap.get?_insert]
    split <;> rfl
  simp only [withKey, withStore, keys]

theorem withKey_comm (memory : Memory) {first second : String} (apart : first ≠ second)
    (key other : StoredKey) :
    (memory.withKey first key).withKey second other =
      (memory.withKey second other).withKey first key := by
  have keys : (memory.store.keys.insert first key).insert second other =
      (memory.store.keys.insert second other).insert first key := by
    refine SortedMap.ext_get? fun name => ?_
    simp only [SortedMap.get?_insert]
    by_cases same : first = name
    · simp [← same, apart.symm]
    · simp [same]
  simp only [withKey, withStore, keys]

theorem withKey_self (held : memory.key? keyId = some key) : memory.withKey keyId key = memory := by
  have keys : memory.store.keys.insert keyId key = memory.store.keys := by
    refine SortedMap.ext_get? fun name => ?_
    rw [SortedMap.get?_insert]
    split
    next same => rw [← same, ← held, key?]
    next => rfl
  simp only [withKey, withStore, keys]

@[simp] theorem key?_withKey (memory : Memory) (keyId : String) (key : StoredKey) :
    (memory.withKey keyId key).key? keyId = some key := by
  simp [withKey, withStore, key?]

private theorem key?_withKey_other (memory : Memory) {name : String} (apart : keyId ≠ name)
    (key : StoredKey) : (memory.withKey keyId key).key? name = memory.key? name := by
  simp [withKey, withStore, key?, apart]

private theorem resolve?_withKey (held : memory.key? keyId = some stored)
    (kept : key.metadata = stored.metadata) (name : String) :
    (memory.withKey keyId key).store.resolve? name = memory.store.resolve? name :=
  KeyStore.resolve?_insert held kept name

theorem lookup_withKey (found : memory.lookup name = .ok (keyId, stored))
    (kept : key.metadata = stored.metadata) :
    (memory.withKey keyId key).lookup name = .ok (keyId, key) := by
  obtain ⟨resolved, held⟩ := lookup_eq_ok.mp found
  exact lookup_eq_ok.mpr ⟨(resolve?_withKey held kept name).trans resolved, key?_withKey _ _ _⟩

theorem lookup_withKey_other {changed : String} {old new : StoredKey} (apart : changed ≠ keyId)
    (held : memory.key? changed = some old) (kept : new.metadata = old.metadata)
    (found : memory.lookup name = .ok (keyId, stored)) :
    (memory.withKey changed new).lookup name = .ok (keyId, stored) := by
  obtain ⟨resolved, there⟩ := lookup_eq_ok.mp found
  refine lookup_eq_ok.mpr ⟨(resolve?_withKey held kept name).trans resolved, ?_⟩
  rw [key?_withKey_other memory apart, there]

end WithKey

/-- All but the journal is the same. -/
def Matches (memory other : Memory) : Prop :=
  memory.clearJournal = other.clearJournal

namespace Matches

theorem refl (memory : Memory) : memory.Matches memory := rfl

theorem symm (same : memory.Matches other) : other.Matches memory := Eq.symm same

theorem trans {third : Memory} (first : memory.Matches other) (second : other.Matches third) :
    memory.Matches third := Eq.trans first second

private theorem noted (memory : Memory) (request : Request) :
    (memory.noted request).Matches memory := rfl

theorem withKey (same : memory.Matches other) (keyId : String) (key : StoredKey) :
    (memory.withKey keyId key).Matches (other.withKey keyId key) :=
  congrArg (fun memory : Memory => memory.withKey keyId key) same

theorem store (same : memory.Matches other) : memory.store = other.store := by
  have stores := congrArg Memory.store same
  exact stores

theorem config (same : memory.Matches other) : memory.config = other.config := by
  have configs := congrArg Memory.config same
  exact configs

theorem refusals (same : memory.Matches other) : memory.refusals = other.refusals := by
  have both := congrArg Memory.refusals same
  exact both

theorem rotationStatusUnavailable (same : memory.Matches other) :
    memory.rotationStatusUnavailable = other.rotationStatusUnavailable := by
  have both := congrArg Memory.rotationStatusUnavailable same
  exact both

theorem lookup (same : memory.Matches other) (name : String) :
    memory.lookup name = other.lookup name := by
  simp only [Memory.lookup, same.store]

end Matches

section Performed

variable (about : request.IsAbout name) (found : memory.lookup name = .ok (keyId, stored))

include about found

theorem perform_about (mutates : request.isMutating = true) :
    ∃ answer, perform request memory =
      .ok (answer, memory.withKey keyId (stored.after request)) := by
  have changes : memory.changeKey name (fun key => key.after request) =
      .ok ((), memory.withKey keyId (stored.after request)) :=
    changeKey_eq_ok.mpr ⟨keyId, stored, found, rfl⟩
  cases request <;> try cases mutates
  case putKeyPolicy | tagResource | untagResource | enableKeyRotation | disableKeyRotation =>
    cases about
    exact ⟨(), changes⟩
  all_goals cases about

private theorem perform_about_congr (found' : other.lookup name = .ok (keyId, stored))
    (config : other.config = memory.config)
    (available : other.rotationStatusUnavailable = memory.rotationStatusUnavailable) :
    (perform request other).map Prod.fst = (perform request memory).map Prod.fst := by
  cases request
  case describeKey | getKeyPolicy | getKeyRotationStatus =>
    cases about
    simp only [perform, found, found', available]
    rfl
  case listResourceTags marker =>
    have pages (tags : List Tag) (start : Nat) : other.page tags start = memory.page tags start := by
      simp only [page, config]
    cases about
    simp only [perform, found, found', pages]
    cases startOf marker <;> rfl
  case enableKeyRotation | disableKeyRotation | putKeyPolicy | tagResource | untagResource =>
    cases about
    simp only [perform, changeKey, found, found']
    rfl
  all_goals cases about

end Performed

section About

variable (about : request.IsAbout name) (unrefused : memory.refusals = [])
  (found : memory.lookup name = .ok (keyId, stored))

include about unrefused found

/-- A call about a key leaves the key as the call says, and all else but the journal as it was. -/
theorem handle_about :
    (service.handle request memory).2.Matches (memory.withKey keyId (stored.after request)) := by
  have noted : (memory.noted request).lookup name = .ok (keyId, stored) := found
  have untaken : takeRefusal? request.operation memory.refusals = none := by rw [unrefused]; rfl
  cases mutates : request.isMutating with
  | false =>
    have kept : stored.after request = stored := by cases request <;> first | rfl | cases mutates
    have same : (service.handle request memory).2 = memory.noted request := by
      rw [handle_of_unrefused untaken]
      cases performed : perform request (memory.noted request) with
      | error fault => rfl
      | ok done => exact perform_asks mutates performed
    rw [kept, withKey_self (key?_of_lookup found), same]
    exact .noted memory request
  | true =>
    obtain ⟨answer, performed⟩ := perform_about about noted mutates
    rw [handle_eq_ok.mpr ⟨untaken, performed⟩]
    exact (Matches.noted memory request).withKey _ _

theorem handle_about_congr (unrefused' : other.refusals = [])
    (found' : other.lookup name = .ok (keyId, stored)) (config : other.config = memory.config)
    (available : other.rotationStatusUnavailable = memory.rotationStatusUnavailable) :
    (service.handle request other).1 = (service.handle request memory).1 := by
  have here : (memory.noted request).lookup name = .ok (keyId, stored) := found
  have there : (other.noted request).lookup name = .ok (keyId, stored) := found'
  have untaken : takeRefusal? request.operation memory.refusals = none := by rw [unrefused]; rfl
  have untaken' : takeRefusal? request.operation other.refusals = none := by rw [unrefused']; rfl
  have answers := perform_about_congr about here there config available
  rw [handle_of_unrefused untaken, handle_of_unrefused untaken']
  revert answers
  generalize perform request (other.noted request) = second
  generalize perform request (memory.noted request) = first
  intro answers
  rcases first with _ | ⟨_, _⟩ <;> rcases second with _ | ⟨_, _⟩ <;> cases answers <;> rfl

end About

end Memory

end KeySteward
