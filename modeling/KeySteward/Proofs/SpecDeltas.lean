import KeySteward.Manager.Managed
import KeySteward.Proofs.ImmutableChanges
import KeySteward.Proofs.SpecLayouts

/-! What a delta says of two specs of one kind. Every slot of their layout in which they have
different values gives one difference, and nothing else does, because what is written of a value tells
it apart from every other value of its slot. So a delta is empty between equal specs only, and what
depends on a path depends on the field that stands there. -/

namespace KeySteward

open Json

namespace Json

variable {α ρ : Type}

namespace Slot

def path (slot : Slot ρ) : String :=
  Difference.pathOf slot.name

/-- What a difference shows of a record: null where the slot is left out. -/
def shown (slot : Slot ρ) (value : ρ) : Json :=
  (slot.write (slot.get value)).getD .null

def difference (desired latest : ρ) (slot : Slot ρ) : Difference :=
  ⟨slot.path, slot.shown desired, slot.shown latest⟩

def member (desired latest : ρ) (slot : Slot ρ) : Delta.Member :=
  ⟨slot.name, slot.write (slot.get desired), slot.write (slot.get latest)⟩

/-- Only equal values are shown alike. -/
def Faithful (slot : Slot ρ) : Prop :=
  ∀ a b : slot.Value, ((slot.write a).getD .null == (slot.write b).getD .null) = true ↔ a = b

/-- An empty list in the slot is read as what is read where the slot is missing. -/
def ReadsEmptyAsMissing (slot : Slot ρ) : Prop :=
  ∀ found other : Fields, Entries.get? slot.name found = some (.array []) →
    Entries.get? slot.name other = none → slot.read found = slot.read other

section Faithful

variable (name : String)

private theorem text_faithful (get : ρ → Option String) : (Slot.field (.text name get)).Faithful := by
  change ∀ a b : Option String, ((a.map string).getD null == (b.map string).getD null) = true ↔ a = b
  simp [optional_text_beq]

private theorem flag_faithful (get : ρ → Option Bool) : (Slot.field (.flag name get)).Faithful := by
  change ∀ a b : Option Bool, ((a.map bool).getD null == (b.map bool).getD null) = true ↔ a = b
  simp [optional_flag_beq]

private theorem texts_faithful (get : ρ → List String) : (Slot.field (.texts name get)).Faithful := by
  change ∀ a b : List String, ((if a.isEmpty then none else some (ofStrings a)).getD null ==
    (if b.isEmpty then none else some (ofStrings b)).getD null) = true ↔ a = b
  simp only [optional_strings_beq, decide_eq_true_eq, implies_true]

private theorem tags_faithful (get : ρ → TagMap) :
    (Slot.map name get TagMap.decode TagMap.toJson).Faithful := by
  change ∀ a b : TagMap, ((if a.isEmpty then none else some a.toJson).getD null ==
    (if b.isEmpty then none else some b.toJson).getD null) = true ↔ a = b
  simp only [optional_tags_beq, decide_eq_true_eq, implies_true]

private theorem required_faithful [DecidableEq α] {get : ρ → α} {decode : Decoder α} {write : α → Json}
    (faithful : ∀ a b, (write a == write b) = decide (a = b)) :
    (Slot.required name get decode write).Faithful := by
  change ∀ a b : α, (write a == write b) = true ↔ a = b
  simp only [faithful, decide_eq_true_eq, implies_true]

private theorem nested_faithful [DecidableEq α] {get : ρ → Option α} {layout : Layout α}
    (lawful : layout.Lawful)
    (faithful : ∀ a b, (layout.toJson a == layout.toJson b) = decide (a = b)) :
    (Slot.nested name get layout).Faithful := by
  change ∀ a b : Option α, ((a.map layout.toJson).getD null == (b.map layout.toJson).getD null) = true ↔
    a = b
  have present (value : α) : (layout.toJson value).isNull = false := by
    rw [lawful.toJson_eq]
    rfl
  simp only [optional_beq faithful present, decide_eq_true_eq, implies_true]

end Faithful

private theorem tags_readsEmptyAsMissing (name : String) (get : ρ → TagMap) :
    (Slot.map name get TagMap.decode TagMap.toJson).ReadsEmptyAsMissing := by
  change ∀ found other : Fields, Entries.get? name found = some (.array []) →
    Entries.get? name other = none → found.orElse name {} TagMap.decode = other.orElse name {} TagMap.decode
  intro found other empty missing
  rw [Fields.orElse, Fields.orElse, empty, missing]
  rfl

private theorem texts_readsEmptyAsMissing (name : String) (get : ρ → List String) :
    (Slot.field (.texts name get)).ReadsEmptyAsMissing := by
  change ∀ found other : Fields, Entries.get? name found = some (.array []) →
    Entries.get? name other = none →
    found.orElse name [] (Decode.list Decode.text) = other.orElse name [] (Decode.list Decode.text)
  intro found other empty missing
  rw [Fields.orElse, Fields.orElse, empty, missing]
  rfl

private theorem Faithful.differs_member {slot : Slot ρ} (faithful : slot.Faithful) (desired latest : ρ) :
    (slot.member desired latest).differs = true ↔ slot.get desired ≠ slot.get latest := by
  rw [Ne, ← faithful, Delta.Member.differs, Bool.not_eq_true', Bool.not_eq_true]
  rfl

end Slot

private theorem record_eq_of_perm {first second : List (String × Option Json)}
    (distinct : (first.map Prod.fst).Nodup) (same : first.Perm second) :
    record first = record second := by
  refine congrArg object (Entries.eq_of_get? (Entries.ascending_ofList _) (Entries.ascending_ofList _)
    fun name => ?_)
  have others : (second.map Prod.fst).Nodup := (same.map Prod.fst).nodup_iff.mp distinct
  rw [get?_record distinct, get?_record others]
  refine congrArg Option.join (Option.ext fun value => ?_)
  rw [Entries.get?_eq_some_iff distinct, Entries.get?_eq_some_iff others, same.mem_iff]

namespace Layout

/-- The slots in the order of their names. -/
def ordered (layout : Layout ρ) : List (Slot ρ) :=
  layout.slots.mergeSort fun first second => decide (first.name ≤ second.name)

variable {layout : Layout ρ}

private theorem ordered_perm (layout : Layout ρ) : layout.ordered.Perm layout.slots :=
  List.mergeSort_perm _ _

private theorem Lawful.ordered_ascending (lawful : layout.Lawful) :
    (layout.ordered.map Slot.name).Pairwise (· < ·) := by
  have sorted : layout.ordered.Pairwise fun first second => first.name ≤ second.name := by
    refine (List.pairwise_mergeSort (fun a b c first second => ?_) (fun a b => ?_) _).imp
      fun below => of_decide_eq_true below
    · exact decide_eq_true (String.le_trans (of_decide_eq_true first) (of_decide_eq_true second))
    · simpa using String.le_total a.name b.name
  have distinct : (layout.ordered.map Slot.name).Nodup :=
    (layout.ordered_perm.map Slot.name).nodup_iff.mpr lawful.distinct
  refine List.pairwise_map.mpr (sorted.and (List.pairwise_map.mp distinct) |>.imp ?_)
  exact fun ⟨below, apart⟩ => String.not_le.mp fun above => apart (String.le_antisymm below above)

private theorem Lawful.toJson_ordered (lawful : layout.Lawful) (value : ρ) :
    layout.toJson value =
      .record (layout.ordered.map fun slot => (slot.name, slot.write (slot.get value))) := by
  have distinct : ((layout.slots.map fun slot => (slot.name, slot.write (slot.get value))).map
      Prod.fst).Nodup := by
    simpa [Function.comp_def] using lawful.distinct
  rw [lawful.toJson_eq]
  exact record_eq_of_perm distinct (layout.ordered_perm.symm.map _)

section Between

variable (lawful : layout.Lawful) (faithful : ∀ slot ∈ layout.slots, slot.Faithful)
  (desired latest : ρ)

include lawful faithful

/-- A delta lists the slots whose values differ, in the order of their names. -/
theorem Lawful.between :
    ∃ differing : List (Slot ρ),
      Delta.between (layout.toJson desired) (layout.toJson latest) =
        differing.map (Slot.difference desired latest) ∧
      (differing.map Slot.name).Pairwise (· < ·) ∧
      ∀ slot, slot ∈ differing ↔ slot ∈ layout.slots ∧ slot.get desired ≠ slot.get latest := by
  let members := layout.ordered.map (Slot.member desired latest)
  have ascending : (members.map Delta.Member.name).Pairwise (· < ·) := by
    simpa [members, Function.comp_def, Slot.member] using lawful.ordered_ascending
  refine ⟨layout.ordered.filter fun slot => (slot.member desired latest).differs, ?_, ?_, fun slot => ?_⟩
  · have listed := Delta.between_record ascending
    simp only [members, List.map_map] at listed
    rw [lawful.toJson_ordered, lawful.toJson_ordered]
    refine listed.trans ?_
    rw [List.filter_map, List.map_map]
    rfl
  · exact (lawful.ordered_ascending).sublist (List.filter_sublist.map _)
  · rw [List.mem_filter, layout.ordered_perm.mem_iff]
    exact and_congr_right fun listed => (faithful slot listed).differs_member desired latest

private theorem Lawful.mem_paths_between {path : String} :
    path ∈ (Delta.between (layout.toJson desired) (layout.toJson latest)).paths ↔
      ∃ slot ∈ layout.slots, slot.path = path ∧ slot.get desired ≠ slot.get latest := by
  obtain ⟨differing, listed, -, differs⟩ := lawful.between faithful desired latest
  rw [listed, Delta.paths, List.map_map, List.mem_map]
  constructor
  · rintro ⟨slot, inside, rfl⟩
    obtain ⟨known, apart⟩ := (differs slot).mp inside
    exact ⟨slot, known, rfl, apart⟩
  · rintro ⟨slot, known, rfl, apart⟩
    exact ⟨slot, (differs slot).mpr ⟨known, apart⟩, rfl⟩

theorem Lawful.differsAt_between (paths : (layout.slots.map Slot.path).Nodup) {slot : Slot ρ}
    (known : slot ∈ layout.slots) :
    (Delta.between (layout.toJson desired) (layout.toJson latest)).differsAt slot.path = true ↔
      slot.get desired ≠ slot.get latest := by
  rw [Delta.differsAt_iff, lawful.mem_paths_between faithful]
  constructor
  · rintro ⟨other, listed, same, apart⟩
    obtain rfl := List.inj_on_of_nodup_map paths listed known same
    exact apart
  · exact fun apart => ⟨slot, known, rfl, apart⟩

end Between

end Layout

end Json

/-! ### The specs of the four kinds -/

theorem KeySpec.layout_faithful : ∀ slot ∈ layout.slots, slot.Faithful := by
  simp only [layout, List.forall_mem_cons]
  exact ⟨Slot.flag_faithful _ _, Slot.text_faithful _ _, Slot.text_faithful _ _,
    Slot.flag_faithful _ _, Slot.text_faithful _ _, Slot.text_faithful _ _, Slot.flag_faithful _ _,
    Slot.text_faithful _ _, Slot.text_faithful _ _, Slot.tags_faithful _ _, List.forall_mem_nil _⟩

theorem ReplicaKeySpec.layout_faithful : ∀ slot ∈ layout.slots, slot.Faithful := by
  simp only [layout, List.forall_mem_cons]
  exact ⟨Slot.text_faithful _ _, Slot.required_faithful _ string_beq, Slot.text_faithful _ _,
    Slot.text_faithful _ _, Slot.flag_faithful _ _, Slot.tags_faithful _ _, List.forall_mem_nil _⟩

private theorem AliasSpec.layout_faithful : ∀ slot ∈ layout.slots, slot.Faithful := by
  simp only [layout, List.forall_mem_cons]
  exact ⟨Slot.required_faithful _ string_beq, Slot.text_faithful _ _, List.forall_mem_nil _⟩

private theorem GrantSpec.layout_faithful : ∀ slot ∈ layout.slots, slot.Faithful := by
  simp only [layout, List.forall_mem_cons]
  exact ⟨Slot.nested_faithful _ GrantConstraints.layout_lawful GrantConstraints.toJson_beq,
    Slot.texts_faithful _ _, Slot.required_faithful _ string_beq, Slot.text_faithful _ _,
    Slot.text_faithful _ _, Slot.required_faithful _ strings_beq, Slot.text_faithful _ _,
    List.forall_mem_nil _⟩

namespace Kind

/-- How the specs of a kind are laid out. -/
def layout : (kind : Kind) → Layout kind.managed.Spec
  | .key => KeySpec.layout
  | .replicaKey => ReplicaKeySpec.layout
  | .keyAlias => AliasSpec.layout
  | .grant => GrantSpec.layout

private theorem layout_lawful : (kind : Kind) → kind.layout.Lawful
  | .key => KeySpec.layout_lawful
  | .replicaKey => ReplicaKeySpec.layout_lawful
  | .keyAlias => AliasSpec.layout_lawful
  | .grant => GrantSpec.layout_lawful

private theorem layout_faithful : (kind : Kind) → ∀ slot ∈ kind.layout.slots, slot.Faithful
  | .key => KeySpec.layout_faithful
  | .replicaKey => ReplicaKeySpec.layout_faithful
  | .keyAlias => AliasSpec.layout_faithful
  | .grant => GrantSpec.layout_faithful

private theorem specToJson_eq (kind : Kind) (spec : kind.managed.Spec) :
    kind.managed.resource.specToJson spec = kind.layout.toJson spec := by
  cases kind <;> rfl

private theorem delta_isEmpty_iff : (kind : Kind) → (desired latest : kind.managed.Spec) →
    ((Delta.between (kind.layout.toJson desired) (kind.layout.toJson latest)).isEmpty = true ↔
      desired = latest)
  | .key => KeySpec.delta_isEmpty_iff
  | .replicaKey => ReplicaKeySpec.delta_isEmpty_iff
  | .keyAlias => AliasSpec.delta_isEmpty_iff
  | .grant => GrantSpec.delta_isEmpty_iff

/-- The fields of a spec by their names, with the paths at which they differ. -/
def fieldPaths : Kind → List (String × String)
  | .key => [
      ("bypassPolicyLockoutSafetyCheck", "Spec.BypassPolicyLockoutSafetyCheck"),
      ("customKeyStoreID", "Spec.CustomKeyStoreID"), ("description", "Spec.Description"),
      ("enableKeyRotation", "Spec.EnableKeyRotation"), ("keySpec", "Spec.KeySpec"),
      ("keyUsage", "Spec.KeyUsage"), ("multiRegion", "Spec.MultiRegion"), ("origin", "Spec.Origin"),
      ("policy", "Spec.Policy"), ("tags", "Spec.Tags")]
  | .replicaKey => [
      ("keyID", "Spec.KeyID"), ("replicaRegion", "Spec.ReplicaRegion"),
      ("description", "Spec.Description"), ("policy", "Spec.Policy"),
      ("bypassPolicyLockoutSafetyCheck", "Spec.BypassPolicyLockoutSafetyCheck"),
      ("tags", "Spec.Tags")]
  | .keyAlias => [("name", "Spec.Name"), ("targetKeyID", "Spec.TargetKeyID")]
  | .grant => [
      ("constraints", "Spec.Constraints"), ("grantTokens", "Spec.GrantTokens"),
      ("granteePrincipal", "Spec.GranteePrincipal"), ("keyID", "Spec.KeyID"), ("name", "Spec.Name"),
      ("operations", "Spec.Operations"), ("retiringPrincipal", "Spec.RetiringPrincipal")]

/-- The fields of a spec that may change. -/
def mutableFields : Kind → List String
  | .key => ["bypassPolicyLockoutSafetyCheck", "enableKeyRotation", "policy", "tags"]
  | .keyAlias => ["targetKeyID"]
  | .replicaKey | .grant => []

private theorem layout_fieldPaths (kind : Kind) :
    kind.layout.slots.map (fun slot => (slot.name, slot.path)) = kind.fieldPaths := by
  cases kind <;> rfl

private theorem layout_mutableFields (kind : Kind) :
    (kind.layout.slots.filter fun slot => kind.isMutable slot.path).map Slot.name =
      kind.mutableFields := by
  cases kind <;> decide

theorem layout_paths_distinct (kind : Kind) : (kind.layout.slots.map Slot.path).Nodup := by
  cases kind <;> decide

private theorem layout_readsEmptyAsMissing :
    ∀ place ∈ [(key, "tags"), (replicaKey, "tags"), (grant, "grantTokens")],
      ∃ slot ∈ place.1.layout.slots, slot.name = place.2 ∧ slot.ReadsEmptyAsMissing := by
  simp only [List.forall_mem_cons]
  refine ⟨⟨_, ?_, rfl, Slot.tags_readsEmptyAsMissing "tags" KeySpec.tags⟩,
    ⟨_, ?_, rfl, Slot.tags_readsEmptyAsMissing "tags" ReplicaKeySpec.tags⟩,
    ⟨_, ?_, rfl, Slot.texts_readsEmptyAsMissing "grantTokens" GrantSpec.grantTokens⟩,
    List.forall_mem_nil _⟩
  · change _ ∈ KeySpec.layout.slots
    simp [KeySpec.layout]
  · change _ ∈ ReplicaKeySpec.layout.slots
    simp [ReplicaKeySpec.layout]
  · change _ ∈ GrantSpec.layout.slots
    simp [GrantSpec.layout]

private theorem isMutable_path_iff (kind : Kind) {slot : Slot kind.managed.Spec}
    (known : slot ∈ kind.layout.slots) :
    kind.isMutable slot.path = true ↔ slot.name ∈ kind.mutableFields := by
  rw [← layout_mutableFields, List.mem_map]
  constructor
  · exact fun accepted => ⟨slot, List.mem_filter.mpr ⟨known, accepted⟩, rfl⟩
  · rintro ⟨other, kept, same⟩
    obtain ⟨listed, accepted⟩ := List.mem_filter.mp kept
    obtain rfl := List.inj_on_of_nodup_map kind.layout_lawful.distinct listed known same
    exact accepted

private theorem failure?_between_iff (kind : Kind) (desired latest : kind.managed.Spec) :
    (Delta.between (kind.layout.toJson desired) (kind.layout.toJson latest)).failure? kind = none ↔
      ∀ slot ∈ kind.layout.slots, slot.get desired ≠ slot.get latest →
        slot.name ∈ kind.mutableFields := by
  rw [Delta.failure?_eq_none_iff]
  simp only [kind.layout_lawful.mem_paths_between kind.layout_faithful]
  constructor
  · intro accepted slot known apart
    exact (kind.isMutable_path_iff known).mp (accepted slot.path ⟨slot, known, rfl, apart⟩)
  · rintro accepted path ⟨slot, known, rfl, apart⟩
    exact (kind.isMutable_path_iff known).mpr (accepted slot known apart)

end Kind

private theorem SortedMap.ne_iff_get? {α : Type} {first second : SortedMap α} :
    first ≠ second ↔ ∃ key, first.get? key ≠ second.get? key := by
  rw [← not_forall]
  exact not_congr ⟨fun same key => same ▸ rfl, SortedMap.ext_get?⟩

/-- The delta of two specs has exactly one difference for each field in which they differ, at the path
of the field and in the order of the names. It is empty between equal specs only, a change is refused
when a field differs that may not change, and a path that is asked for asks for its field. -/
theorem spec_deltas_exact :
    (∀ (kind : Kind) (desired latest : kind.managed.Spec),
      let delta := Delta.between (kind.managed.resource.specToJson desired)
        (kind.managed.resource.specToJson latest)
      (∃ differing : List (Slot kind.managed.Spec),
        delta = differing.map (Slot.difference desired latest) ∧
        (differing.map Slot.name).Pairwise (· < ·) ∧
        ∀ slot, slot ∈ differing ↔ slot ∈ kind.layout.slots ∧ slot.get desired ≠ slot.get latest) ∧
      (delta.isEmpty = true ↔ desired = latest) ∧
      (∀ slot ∈ kind.layout.slots,
        delta.differsAt slot.path = true ↔ slot.get desired ≠ slot.get latest) ∧
      (delta.failure? kind = none ↔ ∀ slot ∈ kind.layout.slots,
        slot.get desired ≠ slot.get latest → slot.name ∈ kind.mutableFields)) ∧
    (∀ kind : Kind, kind.layout.slots.map (fun slot => (slot.name, slot.path)) = kind.fieldPaths) ∧
    (∀ place ∈ [(Kind.key, "tags"), (Kind.replicaKey, "tags"), (Kind.grant, "grantTokens")],
      ∃ slot ∈ place.1.layout.slots, slot.name = place.2 ∧ slot.ReadsEmptyAsMissing) ∧
    (∀ desired latest : KeySpec,
      let delta := Delta.between desired.toJson latest.toJson
      (delta.differsAt "Spec.Policy" = true ↔ desired.policy ≠ latest.policy) ∧
      (delta.differsAt "Spec.Tags" = true ↔ ∃ key, desired.tags.get? key ≠ latest.tags.get? key) ∧
      (delta.differsAt "Spec.EnableKeyRotation" = true ↔
        desired.enableKeyRotation ≠ latest.enableKeyRotation) ∧
      (delta.differsAt "Spec.BypassPolicyLockoutSafetyCheck" = true ↔
        desired.bypassPolicyLockoutSafetyCheck ≠ latest.bypassPolicyLockoutSafetyCheck) ∧
      ∀ (target : UpdateTarget) (step : UpdateStep), target.isRequired delta step = match step with
        | .policy => decide (desired.policy ≠ latest.policy) && target.policy?.isSome
        | .tags => decide (desired.tags ≠ latest.tags)
        | .rotation => decide (desired.enableKeyRotation ≠ latest.enableKeyRotation)) ∧
    ∀ desired latest : AliasSpec,
      (Delta.between desired.toJson latest.toJson).differsAt "Spec.TargetKeyID" = true ↔
        desired.targetKeyId ≠ latest.targetKeyId := by
  refine ⟨fun kind desired latest => ?_, Kind.layout_fieldPaths, Kind.layout_readsEmptyAsMissing,
    fun desired latest => ?_, fun desired latest => ?_⟩
  · simp only [kind.specToJson_eq]
    exact ⟨kind.layout_lawful.between kind.layout_faithful desired latest,
      kind.delta_isEmpty_iff desired latest,
      fun slot known => kind.layout_lawful.differsAt_between kind.layout_faithful desired latest
        kind.layout_paths_distinct known,
      kind.failure?_between_iff desired latest⟩
  · have asks (path : String) :
        (Delta.between desired.toJson latest.toJson).differsAt path = true ↔ _ :=
      (Delta.differsAt_iff _ path).trans (KeySpec.mem_paths desired latest path)
    refine ⟨?_, ?_, ?_, ?_, fun target step => target.isRequired_between desired latest step⟩
    · simp [asks]
    · simp [asks, ← SortedMap.ne_iff_get?]
    · simp [asks]
    · simp [asks]
  · simp [Delta.differsAt_iff, AliasSpec.mem_paths]

/-- An empty policy is not an unset one, and another order of the tags is no other mapping. -/
theorem spec_deltas_exact_empty_policy :
    let desired : KeySpec := { policy := some "", tags := .ofList [("a", "1"), ("b", "2")] }
    let latest : KeySpec := { tags := .ofList [("b", "2"), ("a", "1")] }
    let delta := Delta.between desired.toJson latest.toJson
    let policy : Slot KeySpec := .field (.text "policy" KeySpec.policy)
    policy ∈ KeySpec.layout.slots ∧ policy.get desired ≠ policy.get latest ∧
      delta.differsAt policy.path = true ∧ delta.isEmpty = false ∧
      delta.differsAt "Spec.Tags" = false := by
  intro desired latest delta policy
  obtain ⟨specs, -, -, keys, -⟩ := spec_deltas_exact
  obtain ⟨-, empty, differs, -⟩ := specs .key desired latest
  obtain ⟨-, tags, -⟩ := keys desired latest
  have known : policy ∈ KeySpec.layout.slots := by
    simp [policy, KeySpec.layout]
  have apart : policy.get desired ≠ policy.get latest :=
    (by decide : some "" ≠ (none : Option String))
  have other : desired ≠ latest := fun same => apart (congrArg policy.get same)
  have sameTags : desired.tags = latest.tags := by
    decide
  refine ⟨known, apart, (differs policy known).mpr apart, ?_, ?_⟩
  · exact Bool.eq_false_iff.mpr (mt empty.mp other)
  · refine Bool.eq_false_iff.mpr (mt tags.mp ?_)
    simp [sameTags]

end KeySteward
