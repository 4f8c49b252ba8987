import KeySteward.Proofs.KeyRequests
import KeySteward.Proofs.Listings
import KeySteward.Proofs.MemoryHistory
import KeySteward.Proofs.TagMaps

/-! What a pass reads from the service in memory. A reading can succeed with one value only, the one
that is stored, and it does succeed when nothing is refused and a listing has room; so the resource
that a manager finds is its resource with the stored key in it. -/

namespace KeySteward

variable {α β : Type} {able : Prop} {memory after : Memory} {name keyId : String} {key : StoredKey}

namespace Memory

/-- Undisturbed, the pass changes nothing and can only succeed with the value. Where it is able to, it
does. -/
structure Reads (able : Prop) (pass : Pass α) (value : α) (memory : Memory) : Prop where
  only : ∀ {reached result after}, memory.ReadOnly reached →
    Pass.Yields service pass reached result after → result = value ∧ memory.ReadOnly after
  does : able → ∀ {reached}, memory.ReadOnly reached →
    ∃ after, memory.ReadOnly after ∧ Pass.Yields service pass reached value after

namespace Reads

theorem pure (value : α) : Reads able (pure value) value memory where
  only read yields := by
    obtain ⟨rfl, rfl⟩ := Pass.yields_pure.mp yields
    exact ⟨rfl, read⟩
  does _ _ read := ⟨_, read, Pass.yields_pure.mpr ⟨rfl, rfl⟩⟩

theorem bind {pass : Pass α} {next : α → Pass β} {middle : α} {value : β}
    (first : Reads able pass middle memory) (rest : Reads able (next middle) value memory) :
    Reads able (pass >>= next) value memory where
  only read yields := by
    obtain ⟨result, reached, begun, ended⟩ := Pass.yields_bind.mp yields
    obtain ⟨rfl, onward⟩ := first.only read begun
    exact rest.only onward ended
  does can _ read := by
    obtain ⟨reached, onward, begun⟩ := first.does can read
    obtain ⟨after, last, ended⟩ := rest.does can onward
    exact ⟨after, last, Pass.yields_bind.mpr ⟨middle, reached, begun, ended⟩⟩

theorem lookup {pass : Pass α} {value : α} (reads : Reads able pass value memory) :
    Reads able pass.lookup value memory where
  only read yields := reads.only read (Pass.yields_lookup.mp yields)
  does can _ read := by
    obtain ⟨after, last, yields⟩ := reads.does can read
    exact ⟨after, last, Pass.yields_lookup.mpr yields⟩

/-- A call that asks for something and can have no other answer. Where the pass is able to, it has
that one. -/
theorem ask {request : Request} {answer : request.Answer} (asks : request.isMutating = false)
    (unrefused : able → memory.refusals = [])
    (sole : ∀ {reached other after}, memory.ReadOnly reached →
      perform request (reached.noted request) = .ok (other, after) → other = answer)
    (performed : able → ∀ {reached}, memory.ReadOnly reached →
      perform request (reached.noted request) = .ok (answer, reached.noted request)) :
    Reads able (Pass.call request) answer memory where
  only read yields := by
    obtain ⟨-, same⟩ := handle_eq_ok.mp (Pass.yields_call.mp yields)
    exact ⟨sole read same, read.trans (yields_readOnly (Pass.uses_call asks) yields)⟩
  does can reached read := by
    have yields := Pass.yields_call.mpr
      (handle_eq_ok.mpr ⟨by rw [read.unrefused (unrefused can)]; rfl, performed can read⟩)
    exact ⟨_, read.trans (yields_readOnly (Pass.uses_call asks) yields), yields⟩

theorem call {request : Request} {answer : request.Answer} (unrefused : able → memory.refusals = [])
    (performed : ∀ {reached}, memory.ReadOnly reached →
      perform request (reached.noted request) = .ok (answer, reached.noted request))
    (asks : request.isMutating = false) : Reads able (Pass.call request) answer memory :=
  .ask asks unrefused (fun read same => by rw [performed read] at same; cases same; rfl)
    fun _ _ read => performed read

section Listing

variable {fetch : Option String → Pass (Page α)} {listed : List α}
variable (fetches : ∀ {marker start}, Marks marker start → start ≤ listed.length →
  Reads able (fetch marker) (memory.page listed start) memory)

include fetches

/-- What is fetched from a marker on goes through the rest of the listing, page by page. Room for as
many pages as there are items left is enough. -/
theorem items (enough : List α → Bool) (pages : Nat) :
    ∀ {marker start}, Marks marker start → start ≤ listed.length →
      (able → listed.length - start < pages) →
      ∃ shown, Pass.Through enough (listed.drop start) shown ∧
        Reads able (Pass.items fetch enough pages marker) shown memory := by
  induction pages with
  | zero =>
    intro marker start _ _ room
    exact ⟨_, .whole _, ⟨nofun, fun can => absurd (room can) (Nat.not_lt_zero _)⟩⟩
  | succ pages ih =>
    intro marker start marks inside room
    have fetched := fetches marks inside
    have parts : (memory.page listed start).items ++ _ = _ := page_items_append inside
    unfold Pass.items
    by_cases full : enough (memory.page listed start).items = true
    · rw [← parts]
      refine ⟨_, .stopped full _, fetched.bind ?_⟩
      simp only [full, if_true]
      exact .pure _
    · by_cases more : memory.pageEnd listed start < listed.length
      · have further : start < memory.pageEnd listed start := by
          simp only [pageEnd] at more ⊢
          omega
        obtain ⟨others, through, later⟩ := ih (.behind _) (Nat.le_of_lt more) fun can => by
          have left := room can
          omega
        rw [← parts]
        refine ⟨_, .onward _ through, fetched.bind ?_⟩
        simp only [full, Bool.false_eq_true, if_false, page_next?, if_pos more]
        exact later.bind (.pure _)
      · rw [← page_items_last more]
        refine ⟨_, .whole _, fetched.bind ?_⟩
        simp only [full, Bool.false_eq_true, if_false, page_next?, if_neg more]
        exact .pure _

private theorem all {pages : Nat} (room : able → listed.length < pages) :
    Reads able (Pass.all fetch pages) listed memory := by
  obtain ⟨shown, through, reads⟩ := items fetches (fun _ => false) pages .first (Nat.zero_le _) room
  obtain rfl := through.eq_of_never
  exact reads

theorem find (condition : α → Bool) {pages : Nat} (room : able → listed.length < pages) :
    Reads able (Pass.find fetch condition pages) (listed.find? condition) memory := by
  obtain ⟨shown, through, reads⟩ :=
    items fetches (fun items => items.any condition) pages .first (Nat.zero_le _) room
  rw [← List.drop_zero (l := listed), ← through.find?_eq]
  exact reads.bind (.pure _)

end Listing

theorem run {pass : Pass α} {value : α} {run : Run Memory} (reads : Reads able pass value run.state)
    (can : able) (free : run.IsFree) :
    ∃ last, pass.run.run service .calm run = (.finished (.ok value), last) ∧
      run.state.ReadOnly last.state := by
  obtain ⟨after, onward, yields⟩ := reads.does can (.refl _)
  obtain ⟨last, ends, rfl⟩ := yields.run_calm free
  exact ⟨last, ends, onward⟩

end Reads

end Memory

def Memory.rotationStatus (memory : Memory) (key : StoredKey) : Option Bool :=
  if memory.rotationStatusUnavailable then none else some key.rotationEnabled

section

variable (unrefused : able → memory.refusals = [])
variable (found : memory.lookup name = .ok (keyId, key))

include unrefused found

theorem Memory.describeKey_reads :
    Memory.Reads able (Pass.call (.describeKey name)) key.metadata memory :=
  .call unrefused (fun {reached} read => by
    have known : (reached.noted (.describeKey name)).lookup name = _ := (read.lookup name).trans found
    simp only [Memory.perform, known]
    rfl) rfl

theorem Memory.listResourceTags_reads {marker : Option String} {start : Nat}
    (marks : Memory.Marks marker start) (counted : able → start ≤ Text.greatestWord) :
    Memory.Reads able (Pass.call (.listResourceTags name marker))
      (memory.page key.tags.toTags start) memory := by
  have known {reached : Memory} (read : memory.ReadOnly reached) :
      (reached.noted (.listResourceTags name marker)).lookup name = .ok (keyId, key) :=
    (read.lookup name).trans found
  have performs (reached : Memory) : Memory.perform (.listResourceTags name marker) reached =
      reached.listing name marker fun key => key.tags.toTags := rfl
  refine .ask rfl unrefused (fun read performed => ?_) fun can reached read => ?_
  · rw [performs] at performed
    exact (Memory.listing_sole (known read) marks performed).trans (read.page _ _)
  · rw [performs, Memory.listing_ok (known read) marks (counted can), ← read.page]
    rfl

theorem TagSet.list_reads {pages : Nat}
    (room : able → key.tags.size ≤ Text.greatestWord ∧ key.tags.size < pages) :
    Memory.Reads able (TagSet.list pages name) key.tags memory := by
  have pages {marker : Option String} {start : Nat} (marks : Memory.Marks marker start)
      (inside : start ≤ key.tags.toTags.length) :=
    Memory.listResourceTags_reads unrefused found marks fun can =>
      Nat.le_trans inside (by simpa using (room can).1)
  have tags : Memory.Reads able (TagSet.list _ name) (TagMap.ofTags key.tags.toTags) memory :=
    (Memory.Reads.all pages fun can => by simpa using (room can).2).bind (.pure _)
  rwa [TagMap.ofTags_toTags] at tags

theorem Memory.getKeyRotationStatus_reads :
    Memory.Reads able (Pass.call (.getKeyRotationStatus name)) (memory.rotationStatus key)
      memory := by
  refine .call unrefused (fun {reached} read => ?_) rfl
  have known : (reached.noted (.getKeyRotationStatus name)).lookup name = _ :=
    (read.lookup name).trans found
  simp only [Memory.perform, known, Memory.rotationStatus, ← read.continues.rotationStatusUnavailable]
  rfl

theorem Rotation.observe_reads :
    Memory.Reads able (Rotation.observe name) (.ofStatus (memory.rotationStatus key)) memory :=
  .bind (Memory.getKeyRotationStatus_reads unrefused found) (.pure _)

theorem Policy.get_reads : Memory.Reads able (Policy.get name) key.policy memory :=
  .call unrefused (fun {reached} read => by
    have known : (reached.noted (.getKeyPolicy name Policy.name)).lookup name = _ :=
      (read.lookup name).trans found
    simp only [Memory.perform, known]
    rfl) rfl

end

/-- A reading that begins with a description has found the key that is described. -/
theorem Memory.lookup_of_described {next : KeyMetadata → Pass α} {value : α}
    (yields : Pass.Yields service ((Pass.call (.describeKey name)).lookup >>= next) memory value after) :
    ∃ keyId key, memory.lookup name = .ok (keyId, key) := by
  obtain ⟨metadata, reached, described, -⟩ := Pass.yields_bind.mp yields
  obtain ⟨-, performed⟩ := handle_eq_ok.mp (Pass.yields_call.mp (Pass.yields_lookup.mp described))
  simp only [perform, bind_eq_ok, Prod.exists] at performed
  obtain ⟨keyId, key, found, -⟩ := performed
  exact ⟨keyId, key, found⟩

namespace Key

def asFound (key : Key) (scope : AccountScope) (rotationStatus : Option Bool) (stored : StoredKey) :
    Key :=
  let found : Key :=
    { key.observe scope stored.metadata with spec := key.spec.observed stored.metadata }
  if stored.metadata.isPendingDeletion then found
  else {
    found with
      spec := {
        found.spec with
          tags := stored.tags
          enableKeyRotation :=
            (RotationState.ofStatus rotationStatus).observed key.spec.enableKeyRotation
          policy := Policy.observed key.spec.policy stored.policy } }

@[simp] theorem asFound_status (key : Key) (scope : AccountScope) (rotationStatus : Option Bool)
    (stored : StoredKey) :
    (key.asFound scope rotationStatus stored).status =
      some (key.statusOrFresh.observe scope stored.metadata) := by
  unfold asFound
  dsimp only
  split <;> rfl

variable {resource : Key} {stored : StoredKey}

theorem readOne_reads (scope : AccountScope) {pages : Nat} (known : resource.keyId? = some name)
    (found : memory.lookup name = .ok (keyId, stored)) (unrefused : able → memory.refusals = [])
    (room : able → stored.metadata.isPendingDeletion = false →
      stored.tags.size ≤ Text.greatestWord ∧ stored.tags.size < pages) :
    Memory.Reads able (readOne scope pages resource)
      (resource.asFound scope (memory.rotationStatus stored) stored) memory := by
  simp only [readOne, known]
  refine .bind (Memory.describeKey_reads unrefused found).lookup ?_
  unfold asFound
  dsimp only
  split
  next => exact .pure _
  next living =>
    have room : able → stored.tags.size ≤ Text.greatestWord ∧ stored.tags.size < pages :=
      fun can => room can (Bool.eq_false_iff.mpr living)
    refine .bind (TagSet.list_reads unrefused found room) ?_
    refine .bind (Rotation.observe_reads unrefused found) ?_
    exact .bind (Policy.get_reads unrefused found) (.pure _)

theorem readOne_found {scope : AccountScope} {pages : Nat} {latest : Key}
    (yields : Pass.Yields Memory.service (readOne scope pages resource) memory latest after) :
    ∃ name keyId stored, resource.keyId? = some name ∧ memory.lookup name = .ok (keyId, stored) ∧
      latest = resource.asFound scope (memory.rotationStatus stored) stored ∧
      memory.ReadOnly after := by
  cases known : resource.keyId? with
  | none =>
    simp only [readOne, known] at yields
    exact absurd yields Pass.yields_throw
  | some name =>
    have begun := yields
    simp only [readOne, known] at begun
    obtain ⟨keyId, stored, found⟩ := Memory.lookup_of_described begun
    have reads : Memory.Reads False (readOne scope pages resource) _ memory :=
      readOne_reads scope known found False.elim False.elim
    exact ⟨name, keyId, stored, rfl, found, reads.only (.refl memory) yields⟩

end Key

namespace ReplicaKey

def asFound (replica : ReplicaKey) (stored : StoredKey) : ReplicaKey :=
  let description := observed replica.spec.description stored.metadata.description
  let found : ReplicaKey :=
    { replica.observe stored.metadata with spec := { replica.spec with description } }
  if stored.metadata.isPendingDeletion then found
  else {
    found.withPolicy stored.policy with
      spec := {
        found.spec with
          tags := stored.tags
          policy := Policy.observed replica.spec.policy stored.policy } }

theorem asFound_status (replica : ReplicaKey) (stored : StoredKey) :
    ∃ status, (replica.asFound stored).status = some status ∧
      status.replica = some (.ofKey stored.metadata) := by
  unfold asFound
  dsimp only
  split
  · exact ⟨_, rfl, rfl⟩
  · exact ⟨_, rfl, rfl⟩

theorem name_of_known {replica : ReplicaKey} (known : replica.replicaId? = some keyId) :
    (replica.replicaId? <|> replica.spec.keyId) = some keyId := by
  rw [known]
  rfl

theorem isReplica_of_known {replica : ReplicaKey} (known : replica.replicaId? = some keyId)
    (metadata : KeyMetadata) : replica.isReplica metadata = true := by
  simp [isReplica, known]

variable {resource : ReplicaKey} {stored : StoredKey}

theorem readOne_reads {pages : Nat} (known : (resource.replicaId? <|> resource.spec.keyId) = some name)
    (found : memory.lookup name = .ok (keyId, stored))
    (accepted : resource.isReplica stored.metadata = true) (keyed : memory.store.IsKeyed)
    (unrefused : able → memory.refusals = [])
    (room : able → stored.metadata.isPendingDeletion = false →
      stored.tags.size ≤ Text.greatestWord ∧ stored.tags.size < pages) :
    Memory.Reads able (readOne pages resource) (resource.asFound stored) memory := by
  have held := Memory.key?_of_lookup found
  obtain rfl : stored.metadata.keyId = keyId := keyed _ _ held
  have itself := Memory.lookup_of_key? held
  simp only [readOne, known]
  refine .bind (Memory.describeKey_reads unrefused found).lookup ?_
  simp only [accepted, Bool.not_true, Bool.false_eq_true, if_false]
  unfold asFound
  dsimp only
  split
  next => exact .pure _
  next living =>
    have room : able → stored.tags.size ≤ Text.greatestWord ∧ stored.tags.size < pages :=
      fun can => room can (Bool.eq_false_iff.mpr living)
    refine .bind (TagSet.list_reads unrefused itself room) ?_
    exact .bind (Policy.get_reads unrefused itself) (.pure _)

theorem readOne_found {pages : Nat} {latest : ReplicaKey} (keyed : memory.store.IsKeyed)
    (yields : Pass.Yields Memory.service (readOne pages resource) memory latest after) :
    ∃ name keyId stored, (resource.replicaId? <|> resource.spec.keyId) = some name ∧
      memory.lookup name = .ok (keyId, stored) ∧ resource.isReplica stored.metadata = true ∧
      latest = resource.asFound stored ∧ memory.ReadOnly after := by
  cases known : (resource.replicaId? <|> resource.spec.keyId) with
  | none =>
    simp only [readOne, known] at yields
    exact absurd yields Pass.yields_throw
  | some name =>
    have begun := yields
    simp only [readOne, known] at begun
    obtain ⟨keyId, stored, found⟩ := Memory.lookup_of_described begun
    have described : Memory.Reads False _ stored.metadata memory :=
      Memory.describeKey_reads False.elim found
    obtain ⟨metadata, reached, first, rest⟩ := Pass.yields_bind.mp begun
    obtain ⟨rfl, -⟩ := described.lookup.only (.refl memory) first
    have accepted : resource.isReplica stored.metadata = true := by
      cases accepted : resource.isReplica stored.metadata with
      | true => rfl
      | false =>
        simp only [accepted, Bool.not_false, if_true] at rest
        obtain ⟨_, _, thrown, -⟩ := Pass.yields_bind.mp rest
        exact absurd thrown Pass.yields_throw
    have reads : Memory.Reads False (readOne pages resource) _ memory :=
      readOne_reads known found accepted keyed False.elim False.elim
    exact ⟨name, keyId, stored, rfl, found, accepted, reads.only (.refl memory) yields⟩

end ReplicaKey

end KeySteward
