import KeySteward.Proofs.PassFrames
import KeySteward.Proofs.ReplicaPlacement

/-! How keys come by their replicas. A replication asks whether its key is kept in several regions, and
not what is stored under the name of the replica already: that is replaced, and the key gets one more
reference. So the references of a key are the history of its replications, and two keys have one name
where a key has been replicated into the region of the service itself. -/

namespace KeySteward

variable {memory after : Memory} {keyId : String}

def MultiRegion.adding (regions : MultiRegion) (references : List KeyReference) : MultiRegion :=
  { regions with replicaKeys := regions.replicaKeys ++ references }

/-- Where a key belongs: its name, and how it is spread over regions. -/
structure Placement where
  arn : Option String
  regions : Option MultiRegion
  deriving DecidableEq

namespace Placement

variable {placement : Placement} {first second : List KeyReference}

def adding (placement : Placement) (references : List KeyReference) : Placement :=
  { placement with regions := placement.regions.map (·.adding references) }

def IsReplica (placement : Placement) : Prop :=
  placement.regions.bind MultiRegion.keyType = some "REPLICA"

instance (placement : Placement) : Decidable placement.IsReplica :=
  inferInstanceAs (Decidable (_ = _))

/-- A key has its own name, or it is a replica and goes by its id. -/
def Fits (placement : Placement) (own keyId : String) : Prop :=
  placement.arn = some own ∧ ¬ placement.IsReplica ∨
    placement.arn = some keyId ∧ placement.IsReplica

@[simp] theorem adding_nil : placement.adding [] = placement := by
  obtain ⟨arn, _ | regions⟩ := placement <;> simp [adding, MultiRegion.adding]

@[simp] theorem adding_adding :
    (placement.adding first).adding second = placement.adding (first ++ second) := by
  obtain ⟨arn, _ | regions⟩ := placement <;> simp [adding, MultiRegion.adding]

@[simp] theorem adding_arn : (placement.adding first).arn = placement.arn := rfl

@[simp] theorem isReplica_adding : (placement.adding first).IsReplica ↔ placement.IsReplica := by
  obtain ⟨arn, _ | regions⟩ := placement <;> rfl

private theorem Fits.adding {own keyId : String} (fits : placement.Fits own keyId)
    (references : List KeyReference) : (placement.adding references).Fits own keyId := by
  simpa only [Fits, adding_arn, isReplica_adding] using fits

/-- Two keys of one name, where no two own names are the same: the one is a replica of which the other's
own name is the id. -/
theorem Fits.arn_eq_iff {other : Placement} {own : String → String} (distinct : own.Injective)
    {keyId otherId : String} (apart : keyId ≠ otherId) (fits : placement.Fits (own keyId) keyId)
    (otherFits : other.Fits (own otherId) otherId) :
    placement.arn = other.arn ↔
      otherId = own keyId ∧ other.IsReplica ∧ ¬ placement.IsReplica ∨
        keyId = own otherId ∧ placement.IsReplica ∧ ¬ other.IsReplica := by
  rcases fits with ⟨arn, made⟩ | ⟨arn, replica⟩ <;>
    rcases otherFits with ⟨otherArn, otherMade⟩ | ⟨otherArn, otherReplica⟩
  · have differs : own keyId ≠ own otherId := fun same => apart (distinct same)
    simp [arn, otherArn, made, otherMade, differs]
  · simp [arn, otherArn, made, otherReplica, eq_comm]
  · simp [arn, otherArn, replica, otherMade]
  · simp [arn, otherArn, replica, otherReplica, apart]

end Placement

def KeyMetadata.placement (metadata : KeyMetadata) : Placement :=
  ⟨metadata.arn, metadata.multiRegionConfiguration⟩

def StoredKey.adding (key : StoredKey) (references : List KeyReference) : StoredKey :=
  { key with metadata := { key.metadata with
      multiRegionConfiguration := key.metadata.multiRegionConfiguration.map (·.adding references) } }

/-- Where the key with this id belongs. -/
def SortedMap.placement? (keys : SortedMap StoredKey) (keyId : String) : Option Placement :=
  (keys.get? keyId).map fun key => key.metadata.placement

section Keys

variable {keys : SortedMap StoredKey} {other : String}

private theorem placement?_insert (keys : SortedMap StoredKey) (other : String) (key : StoredKey)
    (keyId : String) :
    (keys.insert other key).placement? keyId =
      if other = keyId then some key.metadata.placement else keys.placement? keyId := by
  simp only [SortedMap.placement?, SortedMap.get?_insert]
  split <;> rfl

private theorem placement?_change {key changed : StoredKey} (held : keys.get? other = some key)
    (kept : changed.metadata.placement = key.metadata.placement) (keyId : String) :
    (keys.insert other changed).placement? keyId = keys.placement? keyId := by
  rw [placement?_insert]
  split
  next same =>
    subst same
    rw [SortedMap.placement?, held, kept]
    rfl
  next => rfl

private theorem placement?_modify {change : StoredKey → StoredKey}
    (kept : ∀ key, (change key).metadata = key.metadata) (keyId : String) :
    (keys.modify other change).placement? keyId = keys.placement? keyId := by
  simp only [SortedMap.placement?, SortedMap.get?_modify]
  split
  · simp [Function.comp_def, kept]
  · rfl

end Keys

namespace Memory

/-! ### What one call does -/

section Calls

variable {request : Request} {answer : request.Answer}

/-- What a replication leaves: the key with one more reference, and the replica in the place of what was
stored under its name. -/
theorem replicateKey_leaves {input : NewReplica} {answer : KeyMetadata}
    (performed : memory.replicateKey input = .ok (answer, after)) :
    ∃ primaryId primary, memory.lookup input.keyId = .ok (primaryId, primary) ∧
      answer.keyId = memory.keyArn input.replicaRegion primary.metadata.keyId ∧
      answer.arn = some answer.keyId ∧ answer.placement.IsReplica ∧
      after.store.keys =
        (memory.store.keys.insert primaryId
          (primary.adding [⟨answer.arn, some input.replicaRegion⟩])).insert answer.keyId
            { metadata := answer, policy := input.policy, tags := .ofTags input.tags } := by
  obtain ⟨primaryId, primary, found, -, rfl, rfl⟩ := replicateKey_inv performed
  exact ⟨primaryId, primary, found, rfl, rfl, rfl, rfl⟩

private theorem replicateKey_placement? {input : NewReplica} {answer : KeyMetadata}
    (performed : memory.replicateKey input = .ok (answer, after)) (keyId : String) :
    after.store.keys.placement? keyId =
      if answer.keyId = keyId then some answer.placement
      else (memory.store.keys.placement? keyId).map (·.adding
        (if memory.store.resolve? input.keyId = some keyId then
          [⟨answer.arn, some input.replicaRegion⟩] else [])) := by
  obtain ⟨primaryId, primary, found, -, -, -, stored⟩ := replicateKey_leaves performed
  obtain ⟨resolved, held⟩ := lookup_eq_ok.mp found
  have known : memory.store.keys.placement? primaryId = some primary.metadata.placement :=
    congrArg (Option.map _) held
  rw [stored, placement?_insert, placement?_insert]
  refine if_congr Iff.rfl rfl ?_
  split
  next same =>
    subst same
    rw [if_pos resolved, known]
    rfl
  next other => simp [resolved, other]

private theorem perform_placement? (creates : ∀ input, request ≠ .createKey input)
    (replicates : ∀ input, request ≠ .replicateKey input)
    (performed : perform request memory = .ok (answer, after)) (keyId : String) :
    after.store.keys.placement? keyId = memory.store.keys.placement? keyId := by
  cases request
  case createKey input => exact absurd rfl (creates input)
  case replicateKey input => exact absurd rfl (replicates input)
  case enableKeyRotation | disableKeyRotation | putKeyPolicy | tagResource | untagResource =>
    simp only [perform, changeKey_eq_ok] at performed
    obtain ⟨_, _, found, rfl⟩ := performed
    refine placement?_change (key?_of_lookup found) ?_ keyId
    rfl
  case scheduleKeyDeletion =>
    obtain ⟨_, _, changed, found, rfl, -, arn, regions, -⟩ := scheduleKeyDeletion_ok performed
    refine placement?_change (key?_of_lookup found) ?_ keyId
    rw [KeyMetadata.placement, arn, regions]
    rfl
  case createAlias | updateAlias | deleteAlias | createGrant | retireGrant =>
    obtain ⟨_, _, _, rfl⟩ := perform_aside rfl performed
    rfl
  all_goals
    rw [perform_asks rfl performed]

end Calls

/-! ### What one action does -/

/-- The key that an action puts in, in the place of any that was stored under its id. -/
def entered? (memory : Memory) : Action → Option KeyMetadata
  | .insertKey metadata => some metadata
  | .seedKey keyId tags => ((memory.seedKey keyId tags).key? keyId).map StoredKey.metadata
  | .call (.createKey input) => (service.handle (.createKey input) memory).1.toOption
  | .call (.replicateKey input) => (service.handle (.replicateKey input) memory).1.toOption
  | _ => none

/-- The references that a key gets by an action: one by a replication of the key that is answered. -/
def added (memory : Memory) (keyId : String) : Action → List KeyReference
  | .call (.replicateKey input) =>
    if memory.store.resolve? input.keyId = some keyId then
      (service.handle (.replicateKey input) memory).1.toOption.toList.map fun answer =>
        ⟨answer.arn, some input.replicaRegion⟩
    else []
  | _ => []

/-- Where a key belongs after an action: where it is put in, or where it belonged before, but for the
references that it gets. -/
def placed? (memory : Memory) (keyId : String) (action : Action) : Option Placement :=
  let kept := (memory.store.keys.placement? keyId).map (·.adding (memory.added keyId action))
  match memory.entered? action with
  | some metadata => if metadata.keyId = keyId then some metadata.placement else kept
  | none => kept

private theorem handle_placement? (request : Request) :
    (service.handle request memory).2.store.keys.placement? keyId =
      memory.placed? keyId (.call request) := by
  rcases handled : service.handle request memory with ⟨fault | answer, after⟩
  · have kept : after.store = memory.store := handle_error_store handled
    have idle : memory.placed? keyId (.call request) = memory.store.keys.placement? keyId := by
      cases request <;> simp [placed?, entered?, added, handled, Except.toOption]
    rw [idle, ← kept]
  · obtain ⟨-, performed⟩ := handle_eq_ok.mp handled
    cases request
    case createKey input =>
      cases performed
      simp only [placed?, entered?, added, handled, Except.toOption, Placement.adding_nil,
        Option.map_id']
      exact placement?_insert _ _ _ keyId
    case replicateKey input =>
      simp only [placed?, entered?, added, handled, Except.toOption]
      exact replicateKey_placement? performed keyId
    all_goals
      have same : after.store.keys.placement? keyId = memory.store.keys.placement? keyId :=
        perform_placement? (by simp) (by simp) performed keyId
      simpa [placed?, entered?, added] using same

/-- An action leaves every key where it belongs that it does not put in, but for the reference to a
replica. -/
theorem act_placement? (action : Action) :
    (memory.act action).store.keys.placement? keyId = memory.placed? keyId action := by
  cases action with
  | call request => exact handle_placement? request
  | insertKey metadata =>
    simp only [placed?, entered?, added, Placement.adding_nil, Option.map_id']
    exact placement?_insert _ _ _ keyId
  | seedKey other tags =>
    simp only [placed?, entered?, added, key?, seedKey, SortedMap.get?_insert, Placement.adding_nil,
      Option.map_id', if_true, Option.map_some]
    exact placement?_insert _ _ _ keyId
  | setRotation other enabled =>
    simp only [placed?, entered?, added, Placement.adding_nil, Option.map_id']
    refine placement?_modify (fun _ => ?_) keyId
    rfl
  | setPolicy other policy =>
    simp only [placed?, entered?, added, Placement.adding_nil, Option.map_id']
    refine placement?_modify (fun _ => ?_) keyId
    rfl
  | setRotationStatusUnavailable | failNext | clearJournal | setClock =>
    simp only [placed?, entered?, added, Placement.adding_nil, Option.map_id']
    rfl

/-! ### What a history does -/

/-- No action of the history puts in a key under this id. -/
def NeverEntered (keyId : String) : Memory → List Action → Prop
  | _, [] => True
  | memory, action :: rest =>
    (∀ metadata ∈ memory.entered? action, metadata.keyId ≠ keyId) ∧
      NeverEntered keyId (memory.act action) rest

instance NeverEntered.decidable (keyId : String) :
    ∀ (memory : Memory) (history : List Action), Decidable (memory.NeverEntered keyId history)
  | _, [] => isTrue trivial
  | memory, action :: rest =>
    have := NeverEntered.decidable keyId (memory.act action) rest
    inferInstanceAs (Decidable (_ ∧ _))

/-- The references that a key gets in a history, one for each replication that is answered. -/
def references (keyId : String) : Memory → List Action → List KeyReference
  | _, [] => []
  | memory, action :: rest =>
    memory.added keyId action ++ references keyId (memory.act action) rest

private theorem play_placement? {history : List Action} (spared : memory.NeverEntered keyId history) :
    (memory.play history).store.keys.placement? keyId =
      (memory.store.keys.placement? keyId).map (·.adding (memory.references keyId history)) := by
  induction history generalizing memory with
  | nil => simp [play, references]
  | cons action rest ih =>
    obtain ⟨apart, onward⟩ := spared
    change ((memory.act action).play rest).store.keys.placement? keyId = _
    have placed : memory.placed? keyId action =
        (memory.store.keys.placement? keyId).map (·.adding (memory.added keyId action)) := by
      unfold placed?
      split
      next metadata entered => exact if_neg (apart metadata entered)
      next => rfl
    rw [ih onward, act_placement?, placed]
    simp [references, Function.comp_def]

/-! ### Names -/

def ownArn (memory : Memory) (keyId : String) : String :=
  memory.keyArn memory.config.region keyId

private theorem ownArn_inj {other : String} :
    memory.ownArn keyId = memory.ownArn other ↔ keyId = other :=
  String.append_right_inj _

private theorem Continues.ownArn (continues : memory.Continues after) :
    after.ownArn = memory.ownArn := by
  funext keyId
  simp only [Memory.ownArn, keyArn_eq, continues.config]

@[simp] theorem act_ownArn (action : Action) : (memory.act action).ownArn = memory.ownArn := by
  cases action with
  | call request => exact (handle_continues request memory).ownArn
  | insertKey | seedKey | setRotation | setPolicy | setRotationStatusUnavailable | failNext |
      clearJournal | setClock => rfl

@[simp] theorem play_ownArn (history : List Action) :
    (memory.play history).ownArn = memory.ownArn := by
  induction history generalizing memory with
  | nil => rfl
  | cons action rest ih => exact ih.trans (act_ownArn action)

private theorem entered?_fits {action : Action} {metadata : KeyMetadata}
    (entered : memory.entered? action = some metadata) (made : action ≠ .insertKey metadata) :
    metadata.placement.Fits (memory.ownArn metadata.keyId) metadata.keyId := by
  have handled {request : Request} {answer : request.Answer}
      (given : (service.handle request memory).1.toOption = some answer) :
      ∃ after, perform request (memory.noted request) = .ok (answer, after) := by
    rcases handled : service.handle request memory with ⟨fault | answered, after⟩
    · rw [handled] at given
      cases given
    · rw [handled] at given
      cases given
      exact ⟨after, (handle_eq_ok.mp handled).2⟩
  cases action with
  | insertKey inserted => cases entered; exact absurd rfl made
  | seedKey keyId tags =>
    simp only [entered?, key?, seedKey, SortedMap.get?_insert, if_true, Option.map_some,
      Option.some.injEq] at entered
    subst entered
    left
    exact ⟨rfl, fun replica => by cases replica⟩
  | call request =>
    cases request
    case createKey input =>
      obtain ⟨after, performed⟩ := handled entered
      cases performed
      left
      refine ⟨rfl, ?_⟩
      simp only [Placement.IsReplica, KeyMetadata.placement]
      split <;> simp
    case replicateKey input =>
      obtain ⟨after, performed⟩ := handled entered
      obtain ⟨_, _, -, -, named, replica, -⟩ := replicateKey_leaves performed
      exact .inr ⟨named, replica⟩
    all_goals cases entered
  | setRotation | setPolicy | setRotationStatusUnavailable | failNext | clearJournal | setClock =>
    cases entered

private theorem play_fits {history : List Action}
    (made : ∀ metadata, .insertKey metadata ∈ history → metadata.keyId ≠ keyId)
    (fits : ∀ placement ∈ memory.store.keys.placement? keyId,
      placement.Fits (memory.ownArn keyId) keyId) :
    ∀ placement ∈ (memory.play history).store.keys.placement? keyId,
      placement.Fits (memory.ownArn keyId) keyId := by
  induction history generalizing memory with
  | nil => exact fits
  | cons action rest ih =>
    rw [← act_ownArn action]
    refine ih (fun metadata later => made metadata (List.mem_cons_of_mem _ later)) ?_
    rw [act_ownArn]
    intro placement placed
    rw [act_placement?, placed?] at placed
    have kept {references : List KeyReference} (held : placement ∈
        (memory.store.keys.placement? keyId).map (·.adding references)) :
        placement.Fits (memory.ownArn keyId) keyId := by
      obtain ⟨before, stood, rfl⟩ := Option.map_eq_some_iff.mp held
      exact (fits before stood).adding references
    split at placed
    next metadata entered =>
      split at placed
      next same =>
        cases placed
        subst same
        exact entered?_fits entered fun inserted =>
          made metadata (by simp [inserted]) rfl
      next => exact kept placed
    next => exact kept placed

/-! ### Replications -/

/-- A replication leaves the replica under its name, whatever was stored there, one more reference at its
key, and every other key as it was. -/
structure Replicates (input : NewReplica) (primaryId : String) (primary : StoredKey)
    (answer : KeyMetadata) (before after : Memory) : Prop where
  apart : before.keyArn input.replicaRegion primaryId ≠ primaryId
  named : answer.arn = some (before.keyArn input.replicaRegion primaryId)
  living : answer.isPendingDeletion = false
  replica : after.key? (before.keyArn input.replicaRegion primaryId) =
    some { metadata := answer, policy := input.policy, tags := .ofTags input.tags }
  primary : after.key? primaryId = some (primary.adding [⟨answer.arn, some input.replicaRegion⟩])
  others : ∀ other, other ≠ before.keyArn input.replicaRegion primaryId → other ≠ primaryId →
    after.key? other = before.key? other

private theorem handle_replicates (keyed : memory.store.IsKeyed) {input : NewReplica}
    {primaryId : String}
    {primary : StoredKey} {answer : KeyMetadata}
    (found : memory.lookup input.keyId = .ok (primaryId, primary))
    (handled : service.handle (.replicateKey input) memory = (.ok answer, after)) :
    Replicates input primaryId primary answer memory after := by
  obtain ⟨-, performed⟩ := handle_eq_ok.mp handled
  obtain ⟨-, -, living⟩ := replicateKey_stores performed
  obtain ⟨_, _, itself, placed, titled, -, stored⟩ := replicateKey_leaves performed
  have again : memory.lookup input.keyId = _ := itself
  cases found.symm.trans again
  obtain rfl : primary.metadata.keyId = primaryId := keyed _ _ (key?_of_lookup found)
  have apart := memory.keyArn_ne input.replicaRegion primary.metadata.keyId
  have named : answer.keyId = memory.keyArn input.replicaRegion primary.metadata.keyId := placed
  rw [named] at titled stored
  refine ⟨apart, titled, living, ?_, ?_, fun other beside otherwise => ?_⟩
  · simp [key?, stored]
  · simp [key?, stored, apart]
  · simp only [key?, stored, SortedMap.get?_insert, if_neg beside.symm, if_neg otherwise.symm]
    rfl

/-- A replication of a key that is kept in several regions is refused where a refusal is to come, and then
leaves what is stored; else it is answered. -/
theorem handle_replicateKey (keyed : memory.store.IsKeyed) {input : NewReplica} {primaryId : String}
    {primary : StoredKey} (found : memory.lookup input.keyId = .ok (primaryId, primary))
    (multi : primary.metadata.multiRegion = some true) :
    let result := (service.handle (.replicateKey input) memory).1
    let after := (service.handle (.replicateKey input) memory).2
    match memory.queued "ReplicateKey" with
    | error :: _ => result = .error (.refused error) ∧ after.store = memory.store
    | [] => ∃ answer, result = .ok answer ∧
      Replicates input primaryId primary answer memory after := by
  have effects := (memory.handle_effects (.replicateKey input)).2.2
  change match memory.queued "ReplicateKey" with | error :: _ => _ | [] => _ at effects
  intro result after
  split at effects
  next error rest queue =>
    exact ⟨effects.1, handle_store (.inl ⟨_, effects.1⟩)⟩
  next free =>
    have known : (memory.noted (.replicateKey input)).store.find? input.keyId = some primary :=
      find?_of_lookup found
    obtain ⟨answer, reached, performed⟩ := replicateKey_performs known multi
    have handled : service.handle (.replicateKey input) memory = (.ok answer, reached) :=
      handle_eq_ok.mpr ⟨takeRefusal?_eq_none_iff.mpr free, performed⟩
    have reaches : service.handle (.replicateKey input) memory = (.ok answer, after) := by
      rw [handled, show after = reached from congrArg Prod.snd handled]
    exact ⟨answer, congrArg Prod.fst handled, handle_replicates keyed found reaches⟩

/-- A replication does not ask what is stored under the name of the replica: where it is not refused it is
answered, replaces what was stored there and adds a reference to its key. So the references of a key are
those of the replications that were answered, one each, and two keys that were not put in from outside
have one name exactly if the one is a replica of which the other's own name is the id. -/
theorem replications_exact (config : Config) (past : List Action) :
    let memory := Memory.play { config } past
    (∀ input primaryId primary, memory.lookup input.keyId = .ok (primaryId, primary) →
      primary.metadata.multiRegion = some true →
      let result := (service.handle (.replicateKey input) memory).1
      let after := (service.handle (.replicateKey input) memory).2
      match memory.queued "ReplicateKey" with
      | error :: _ => result = .error (.refused error) ∧ after.store = memory.store
      | [] => ∃ answer, result = .ok answer ∧
        Replicates input primaryId primary answer memory after) ∧
    (∀ keyId key history, memory.key? keyId = some key → memory.NeverEntered keyId history →
      ∃ later, (memory.play history).key? keyId = some later ∧
        later.metadata.placement =
          key.metadata.placement.adding (memory.references keyId history)) ∧
    ∀ first second key other, first ≠ second →
      memory.key? first = some key → memory.key? second = some other →
      (∀ metadata, .insertKey metadata ∈ past → metadata.keyId ≠ first ∧ metadata.keyId ≠ second) →
      (key.metadata.arn = other.metadata.arn ↔
        second = memory.ownArn first ∧ other.metadata.placement.IsReplica ∧
            ¬ key.metadata.placement.IsReplica ∨
          first = memory.ownArn second ∧ key.metadata.placement.IsReplica ∧
            ¬ other.metadata.placement.IsReplica) := by
  intro memory
  have reachable : memory.Reachable := (Reachable.start config).play past
  have standing {keyId : String} {key : StoredKey} (held : memory.key? keyId = some key) :
      memory.store.keys.placement? keyId = some key.metadata.placement :=
    congrArg (Option.map _) held
  refine ⟨fun input primaryId primary found multi => ?_, fun keyId key history held spared => ?_, ?_⟩
  · exact handle_replicateKey reachable.isKeyed found multi
  · have placed := play_placement? spared
    rw [standing held] at placed
    obtain ⟨later, stored, same⟩ := Option.map_eq_some_iff.mp placed
    exact ⟨later, stored, same⟩
  · intro first second key other apart held stored made
    have fits {keyId : String} {key : StoredKey} (held : memory.key? keyId = some key)
        (made : ∀ metadata, .insertKey metadata ∈ past → metadata.keyId ≠ keyId) :
        key.metadata.placement.Fits (memory.ownArn keyId) keyId := by
      rw [play_ownArn]
      exact play_fits made (fun _ absent => by cases absent) _ (standing held)
    exact (fits held fun metadata put => (made metadata put).1).arn_eq_iff
      (fun _ _ => ownArn_inj.mp) apart (fits stored fun metadata put => (made metadata put).2)

/-- A key that is replicated twice into one region and once into its own. -/
theorem replications_exact_repeated :
    let replicate (replicaRegion : String) : NewReplica := { keyId := "key-0", replicaRegion }
    let past : List Action := [.call (.createKey { multiRegion := some true }),
      .call (.replicateKey (replicate "us-west-2"))]
    let memory := Memory.play { config := .numbered } past
    let history := List.replicate 2 (Action.call (.replicateKey (replicate "eu-west-1")))
    let arn := "arn:aws:kms:us-west-2:000000000000:key/key-0"
    let abroad := "arn:aws:kms:eu-west-1:000000000000:key/key-0"
    ∃ key own later answer, memory.key? "key-0" = some key ∧ memory.key? arn = some own ∧
      memory.queued "ReplicateKey" = [] ∧
      Replicates (replicate "eu-west-1") "key-0" key answer memory
        (service.handle (.replicateKey (replicate "eu-west-1")) memory).2 ∧
      memory.NeverEntered "key-0" history ∧ (memory.play history).key? "key-0" = some later ∧
      later.metadata.placement = key.metadata.placement.adding
        (List.replicate 2 ⟨some abroad, some "eu-west-1"⟩) ∧
      "key-0" ≠ arn ∧ (∀ metadata, .insertKey metadata ∈ past →
        metadata.keyId ≠ "key-0" ∧ metadata.keyId ≠ arn) ∧
      key.metadata.arn = own.metadata.arn := by
  intro replicate past memory history arn abroad
  obtain ⟨answered, listed, named⟩ := replications_exact .numbered past
  obtain ⟨key, held⟩ : ∃ key, memory.key? "key-0" = some key :=
    Option.isSome_iff_exists.mp (by decide +kernel)
  obtain ⟨own, stored⟩ : ∃ own, memory.key? arn = some own :=
    Option.isSome_iff_exists.mp (by decide +kernel)
  have multi : ∀ key ∈ memory.key? "key-0", key.metadata.multiRegion = some true := by
    decide +kernel
  have free : memory.queued "ReplicateKey" = [] := by decide +kernel
  have spared : memory.NeverEntered "key-0" history := by decide +kernel
  have replica : ∀ key ∈ memory.key? arn, key.metadata.placement.IsReplica := by decide +kernel
  have primary : ∀ key ∈ memory.key? "key-0", ¬ key.metadata.placement.IsReplica := by
    decide +kernel
  have added : memory.references "key-0" history =
      List.replicate 2 ⟨some abroad, some "eu-west-1"⟩ := by
    decide +kernel
  have made : ∀ metadata, .insertKey metadata ∈ past →
      metadata.keyId ≠ "key-0" ∧ metadata.keyId ≠ arn := by
    simp [past]
  obtain ⟨later, reached, placement⟩ := listed "key-0" key history held spared
  have replicates :=
    answered (replicate "eu-west-1") "key-0" key (lookup_of_key? held) (multi key held)
  simp only [show (Memory.play _ past).queued "ReplicateKey" = [] from free] at replicates
  obtain ⟨answer, -, replicates⟩ := replicates
  have named := named "key-0" arn key own (by decide) held stored made
  exact ⟨key, own, later, answer, held, stored, free, replicates, spared, reached,
    placement.trans (congrArg key.metadata.placement.adding added), by decide, made,
    named.mpr (.inl ⟨by decide, replica own stored, primary key held⟩)⟩

/-- A second replication into a region takes the tags and the policy of the replica away, and the region
is listed twice; one into the key's own region gives a second key its name. -/
theorem replicateKey_overwrites :
    let replicate (replicaRegion : String) : NewReplica := { keyId := "key-0", replicaRegion }
    let first : NewReplica :=
      { replicate "eu-west-1" with policy := some "guarded", tags := [⟨"team", "payments"⟩] }
    let memory := Memory.play { config := .numbered } [.call (.createKey { multiRegion := some true }),
      .call (.replicateKey first)]
    let arn := memory.keyArn "eu-west-1" "key-0"
    let again : Request := .replicateKey (replicate "eu-west-1")
    let after := memory.play [.call again, .call (.replicateKey (replicate "us-west-2"))]
    let regions (memory : Memory) := (memory.key? "key-0").map fun key =>
      key.metadata.multiRegionConfiguration.map fun regions =>
        regions.replicaKeys.map KeyReference.region
    memory.Reachable ∧
      ((memory.key? "key-0").bind fun key => key.metadata.multiRegion) = some true ∧
      (memory.key? arn).map (fun key => (key.policy, key.tags)) =
        some (some "guarded", .ofTags [⟨"team", "payments"⟩]) ∧
      (service.handle again memory).1.toOption.isSome ∧
      (after.key? arn).map (fun key => (key.policy, key.tags)) = some (none, {}) ∧
      regions after = some (some [some "eu-west-1", some "eu-west-1", some "us-west-2"]) ∧
      (after.key? "key-0").map (fun key => key.metadata.arn) =
        (after.key? (memory.keyArn "us-west-2" "key-0")).map fun key => key.metadata.arn := by
  intro replicate first memory arn again after regions
  exact ⟨(Reachable.start _).play _, by decide +kernel, by decide +kernel, by decide +kernel,
    by decide +kernel, by decide +kernel, by decide +kernel⟩

end Memory

end KeySteward
