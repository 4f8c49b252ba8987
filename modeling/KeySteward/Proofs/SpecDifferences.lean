import KeySteward.Proofs.TagMaps
import KeySteward.Resource.Alias
import KeySteward.Resource.Grant
import KeySteward.Resource.Key
import KeySteward.Resource.ReplicaKey
import KeySteward.Update.Dispatch
import Mathlib.Data.List.Sort

/-! What the differences between two specs say. A path stands in a delta exactly when the members
under its name have different values, and the paths stand in the order of the names; so specs without
differences are the same spec, and a change that is not refused leaves everything else as it is. -/

namespace KeySteward

namespace Json

private theorem null_beq (value : Json) : (null == value) = value.isNull := by
  cases value <;> rfl

theorem beq_null (value : Json) : (value == null) = value.isNull := by
  cases value <;> rfl

theorem string_beq (a b : String) : (string a == string b) = (a == b) := by
  change same (string a) (string b) = _
  simp only [same]

/-- Optional values are told apart where the values are, if none of them is written as null. -/
theorem optional_beq {α : Type} [DecidableEq α] {write : α → Json}
    (faithful : ∀ a b, (write a == write b) = decide (a = b)) (present : ∀ a, (write a).isNull = false)
    (a b : Option α) : ((a.map write).getD null == (b.map write).getD null) = decide (a = b) := by
  cases a with
  | none =>
    cases b with
    | none => rfl
    | some b => exact (null_beq _).trans (present b)
  | some a =>
    cases b with
    | none => exact (beq_null _).trans (present a)
    | some b =>
      refine (faithful a b).trans ?_
      simp only [Option.some.injEq]

theorem optional_text_beq (a b : Option String) :
    ((a.map string).getD null == (b.map string).getD null) = (a == b) := by
  rw [optional_beq (fun a b => by rw [string_beq, beq_eq_decide]) fun _ => rfl, beq_eq_decide]

theorem optional_flag_beq (a b : Option Bool) :
    ((a.map bool).getD null == (b.map bool).getD null) = (a == b) := by
  rw [optional_beq (fun a b => by cases a <;> cases b <;> rfl) fun _ => rfl, beq_eq_decide]

private theorem listed_beq {α : Type} [DecidableEq α] {isEmpty : α → Bool} {write : α → Json}
    (alike : ∀ a b, isEmpty a = true → isEmpty b = true → a = b)
    (faithful : ∀ a b, (write a == write b) = decide (a = b)) (present : ∀ a, (write a).isNull = false)
    (a b : α) :
    ((if isEmpty a then none else some (write a)).getD null ==
      (if isEmpty b then none else some (write b)).getD null) = decide (a = b) := by
  have apart (different : isEmpty a ≠ isEmpty b) : decide (a = b) = false :=
    decide_eq_false fun same => different (congrArg isEmpty same)
  cases left : isEmpty a with
  | true =>
    cases right : isEmpty b with
    | true => exact (decide_eq_true (alike a b left right)).symm
    | false => exact ((null_beq _).trans (present b)).trans (apart (by simp [left, right])).symm
  | false =>
    cases right : isEmpty b with
    | true => exact ((beq_null _).trans (present a)).trans (apart (by simp [left, right])).symm
    | false => exact faithful a b

private theorem sameItems_tags (a b : List Tag) :
    sameItems (a.map Tag.toJson) (b.map Tag.toJson) = true ↔ a = b := by
  induction a generalizing b with
  | nil => cases b <;> simp [sameItems]
  | cons first rest ih =>
    cases b with
    | nil => simp [sameItems]
    | cons other others =>
      obtain ⟨key, value⟩ := first
      obtain ⟨key', value'⟩ := other
      simp [sameItems, ih, Tag.toJson, same, sameMembers]

theorem optional_tags_beq (a b : TagMap) :
    ((if a.isEmpty then none else some a.toJson).getD null ==
      (if b.isEmpty then none else some b.toJson).getD null) = decide (a = b) := by
  refine listed_beq (fun a b left right => ?_) (fun a b => ?_) (fun _ => rfl) a b
  · have entries : a.entries = b.entries :=
      (List.isEmpty_iff.mp left).trans (List.isEmpty_iff.mp right).symm
    exact TagMap.toTags_injective (by simp only [TagMap.toTags, entries])
  · have items : sameItems (a.toTags.map Tag.toJson) (b.toTags.map Tag.toJson) = true ↔ a = b :=
      (sameItems_tags _ _).trans ⟨fun same => TagMap.toTags_injective same, fun same => same ▸ rfl⟩
    refine Bool.eq_iff_iff.mpr (Iff.trans ?_ (items.trans decide_eq_true_iff.symm))
    change same (.array _) (.array _) = true ↔ _
    simp only [same]

theorem strings_beq (a b : List String) : (ofStrings a == ofStrings b) = decide (a = b) := by
  change same (.array (a.map string)) (.array (b.map string)) = _
  simp only [same]
  induction a generalizing b with
  | nil => cases b <;> simp [sameItems]
  | cons first rest ih =>
    cases b with
    | nil => simp [sameItems]
    | cons other others => simp [sameItems, same, ih others, beq_eq_decide]

theorem optional_strings_beq (a b : List String) :
    ((if a.isEmpty then none else some (ofStrings a)).getD null ==
      (if b.isEmpty then none else some (ofStrings b)).getD null) = decide (a = b) :=
  listed_beq (fun _ _ left right => (List.isEmpty_iff.mp left).trans (List.isEmpty_iff.mp right).symm)
    strings_beq (fun _ => rfl) a b

private theorem sameMembers_texts (a b : List (String × String)) :
    sameMembers (a.map fun entry => (entry.1, string entry.2))
      (b.map fun entry => (entry.1, string entry.2)) = decide (a = b) := by
  induction a generalizing b with
  | nil => cases b <;> simp [sameMembers]
  | cons first rest ih =>
    cases b with
    | nil => simp [sameMembers]
    | cons other others => simp [sameMembers, same, ih others, Prod.ext_iff, beq_eq_decide]

private theorem optional_texts_beq (a b : SortedMap String) :
    ((if a.isEmpty then none else some (ofTexts a)).getD null ==
      (if b.isEmpty then none else some (ofTexts b)).getD null) = decide (a = b) := by
  have same_iff (a b : SortedMap String) : a.entries = b.entries ↔ a = b :=
    ⟨fun same => by cases a; cases b; cases same; rfl, fun same => same ▸ rfl⟩
  refine listed_beq (fun a b left right => ?_) (fun a b => ?_) (fun _ => rfl) a b
  · exact (same_iff a b).mp ((List.isEmpty_iff.mp left).trans (List.isEmpty_iff.mp right).symm)
  · change same (.object _) (.object _) = _
    simp only [same, sameMembers_texts, same_iff]

/-- Keeps the members that are present. -/
private def present (member : String × Option Json) : Option (String × Json) :=
  member.2.map fun value => (member.1, value)

private theorem names_present_sublist (members : List (String × Option Json)) :
    ((members.filterMap present).map Prod.fst).Sublist (members.map Prod.fst) := by
  induction members with
  | nil => exact .slnil
  | cons member rest ih =>
    obtain ⟨name, _ | value⟩ := member
    · exact ih.cons name
    · exact ih.cons_cons name

private theorem get?_present {members : List (String × Option Json)}
    (distinct : (members.map Prod.fst).Nodup) (name : String) :
    Entries.get? name (members.filterMap present) = (Entries.get? name members).join := by
  induction members with
  | nil => rfl
  | cons member rest ih =>
    obtain ⟨fresh, others⟩ := List.nodup_cons.mp distinct
    obtain ⟨first, _ | value⟩ := member
    · change Entries.get? name (rest.filterMap present) = _
      rw [ih others, Entries.get?]
      split
      next same =>
        have missing : Entries.get? name rest = none := Entries.get?_eq_none_iff.mpr (same ▸ fresh)
        rw [missing]
        rfl
      next => rfl
    · change Entries.get? name ((first, value) :: rest.filterMap present) = _
      rw [Entries.get?, Entries.get?]
      split
      · rfl
      · exact ih others

theorem get?_record {members : List (String × Option Json)}
    (distinct : (members.map Prod.fst).Nodup) (name : String) :
    Entries.get? name (Entries.ofList
      (members.filterMap fun member => member.2.map fun value => (member.1, value))) =
      (Entries.get? name members).join := by
  rw [Entries.get?_ofList, Entries.get?_reverse]
  · exact get?_present distinct name
  · exact distinct.sublist (names_present_sublist members)

theorem sameMembers_get? {a b : List (String × Json)} (equal : sameMembers a b = true)
    (name : String) :
    ((Entries.get? name a).getD null == (Entries.get? name b).getD null) = true := by
  induction a generalizing b with
  | nil =>
    cases b with
    | nil => rfl
    | cons => simp [sameMembers] at equal
  | cons member rest ih =>
    cases b with
    | nil => simp [sameMembers] at equal
    | cons other others =>
      simp only [sameMembers, Bool.and_eq_true, beq_iff_eq] at equal
      simp only [Entries.get?, ← equal.1.1]
      split
      · exact equal.1.2
      · exact ih equal.2

private theorem get?_of_record_beq {a b : List (String × Option Json)} (left : (a.map Prod.fst).Nodup)
    (right : (b.map Prod.fst).Nodup) (equal : (record a == record b) = true) (name : String) :
    ((Entries.get? name a).join.getD null == (Entries.get? name b).join.getD null) = true := by
  change same (object _) (object _) = true at equal
  simp only [same] at equal
  have members := sameMembers_get? equal name
  rwa [get?_record left, get?_record right] at members

end Json

namespace Delta

theorem mem_names {desired latest : List (String × Json)} {name : String} :
    name ∈ names desired latest ↔
      (Entries.get? name desired).isSome ∨ (Entries.get? name latest).isSome := by
  rw [names, ← Entries.isSome_get?, Entries.get?_ofList, Entries.isSome_get?, List.map_reverse,
    List.mem_reverse, List.map_append, List.mem_append, ← Entries.isSome_get?, ← Entries.isSome_get?]

theorem names_ascending (desired latest : List (String × Json)) :
    (names desired latest).Pairwise (· < ·) :=
  List.pairwise_map.mpr (Entries.ascending_ofList (desired ++ latest))

private theorem mem_paths_ofMembers {desired latest : List (String × Json)} {path : String} :
    path ∈ (ofMembers desired latest).paths ↔
      ∃ name, Difference.pathOf name = path ∧
        ((Entries.get? name desired).getD .null == (Entries.get? name latest).getD .null) = false := by
  simp only [ofMembers, paths, List.mem_map, List.mem_filterMap]
  constructor
  · rintro ⟨difference, ⟨name, -, found⟩, rfl⟩
    simp only [differenceAt] at found
    split at found
    · cases found
    next differs =>
      cases found
      exact ⟨name, rfl, by simpa using differs⟩
  · rintro ⟨name, rfl, differs⟩
    refine ⟨⟨Difference.pathOf name, _, _⟩, ⟨name, ?_, by simp only [differenceAt, differs]; rfl⟩, rfl⟩
    rw [mem_names]
    cases wanted : Entries.get? name desired with
    | some value => exact .inl rfl
    | none =>
      cases found : Entries.get? name latest with
      | some value => exact .inr rfl
      | none =>
        -- what neither object has is null in both
        rw [wanted, found] at differs
        cases differs

/-- A member of two records, with its value in each. -/
structure Member where
  name : String
  desired : Option Json
  latest : Option Json

def Member.differs (member : Member) : Bool :=
  !(member.desired.getD .null == member.latest.getD .null)

section Records

variable {members : List Member}

/-- What a record has of the members. -/
def recorded (members : List Member) (value : Member → Option Json) : List (String × Json) :=
  Entries.ofList ((members.map fun member => (member.name, value member)).filterMap
    fun member => member.2.map fun value => (member.1, value))

private theorem get?_recorded (distinct : (members.map Member.name).Nodup) (value : Member → Option Json)
    {member : Member} (inside : member ∈ members) :
    Entries.get? member.name (recorded members value) = value member := by
  have names : ((members.map fun member => (member.name, value member)).map Prod.fst).Nodup := by
    simpa [Function.comp_def] using distinct
  rw [recorded, Json.get?_record names, (Entries.get?_eq_some_iff names).mpr
    (List.mem_map.mpr ⟨member, inside, rfl⟩), Option.join_some]

private theorem get?_recorded_unknown (distinct : (members.map Member.name).Nodup)
    (value : Member → Option Json) {name : String} (unknown : name ∉ members.map Member.name) :
    Entries.get? name (recorded members value) = none := by
  have names : ((members.map fun member => (member.name, value member)).map Prod.fst).Nodup := by
    simpa [Function.comp_def] using distinct
  have absent : Entries.get? name (members.map fun member => (member.name, value member)) = none :=
    Entries.get?_eq_none_iff.mpr (by simpa using unknown)
  rw [recorded, Json.get?_record names, absent, Option.join_none]

private theorem Member.present_of_differs {member : Member} (differs : member.differs = true) :
    (member.desired.isSome || member.latest.isSome) = true := by
  obtain ⟨name, _ | desired, _ | latest⟩ := member
  · cases differs
  all_goals rfl

def Member.difference (member : Member) : Difference :=
  ⟨Difference.pathOf member.name, member.desired.getD .null, member.latest.getD .null⟩

private theorem differenceAt_recorded (distinct : (members.map Member.name).Nodup) {member : Member}
    (inside : member ∈ members) :
    differenceAt (recorded members Member.desired) (recorded members Member.latest) member.name =
      if member.differs then some member.difference else none := by
  simp only [differenceAt, get?_recorded distinct _ inside, Member.differs, Member.difference]
  by_cases same : (member.desired.getD .null == member.latest.getD .null) = true <;> simp [same]

/-- Between records whose names ascend the differences stand in the order of the members. -/
theorem between_record (ascending : (members.map Member.name).Pairwise (· < ·)) :
    between (.record (members.map fun member => (member.name, member.desired)))
        (.record (members.map fun member => (member.name, member.latest))) =
      (members.filter Member.differs).map Member.difference := by
  have distinct : (members.map Member.name).Nodup := ascending.nodup
  let present (member : Member) := member.desired.isSome || member.latest.isSome
  have known : names (recorded members Member.desired) (recorded members Member.latest) =
      (members.filter present).map Member.name := by
    refine (names_ascending _ _).eq_of_mem_iff (ascending.sublist (List.filter_sublist.map _))
      fun name => ?_
    rw [mem_names]
    by_cases named : name ∈ members.map Member.name
    · obtain ⟨member, inside, rfl⟩ := List.mem_map.mp named
      rw [get?_recorded distinct _ inside, get?_recorded distinct _ inside]
      have same {other : Member} (also : other ∈ members) (equal : other.name = member.name) :
          other = member := List.inj_on_of_nodup_map distinct also inside equal
      constructor
      · intro some
        exact List.mem_map.mpr ⟨member, List.mem_filter.mpr ⟨inside, by simpa [present] using some⟩, rfl⟩
      · intro found
        obtain ⟨other, kept, equal⟩ := List.mem_map.mp found
        obtain ⟨also, some⟩ := List.mem_filter.mp kept
        simpa [present, same also equal] using some
    · rw [get?_recorded_unknown distinct _ named, get?_recorded_unknown distinct _ named]
      simp only [Option.isSome_none, Bool.false_eq_true, or_self, false_iff]
      exact fun found => named ((List.filter_sublist.map _).subset found)
  have kept : (members.filter Member.differs).map Member.difference =
      members.filterMap fun member => if member.differs then some member.difference else none := by
    rw [← List.filterMap_eq_map, List.filterMap_filter]
    rfl
  change (names (recorded members Member.desired) (recorded members Member.latest)).filterMap
    (differenceAt (recorded members Member.desired) (recorded members Member.latest)) = _
  rw [known, List.filterMap_map, List.filterMap_filter, kept]
  refine List.filterMap_congr fun member inside => ?_
  simp only [Function.comp_apply, differenceAt_recorded distinct inside]
  by_cases differs : member.differs = true
  · have found : present member = true := member.present_of_differs differs
    simp only [differs, found, if_true]
  · simp only [differs, Bool.false_eq_true, if_false, ite_self]

theorem mem_paths_record (distinct : (members.map Member.name).Nodup) {path : String} :
    path ∈ (between (.record (members.map fun member => (member.name, member.desired)))
        (.record (members.map fun member => (member.name, member.latest)))).paths ↔
      ∃ member ∈ members, Difference.pathOf member.name = path ∧ member.differs = true := by
  change path ∈ (ofMembers (recorded members Member.desired)
    (recorded members Member.latest)).paths ↔ _
  rw [mem_paths_ofMembers]
  constructor
  · rintro ⟨name, rfl, differs⟩
    by_cases known : name ∈ members.map Member.name
    · obtain ⟨member, inside, rfl⟩ := List.mem_map.mp known
      simp only [get?_recorded distinct _ inside] at differs
      exact ⟨member, inside, rfl, by simp only [Member.differs, differs, Bool.not_false]⟩
    · simp only [get?_recorded_unknown distinct _ known] at differs
      cases differs
  · rintro ⟨member, inside, rfl, differs⟩
    refine ⟨member.name, rfl, ?_⟩
    simp only [get?_recorded distinct _ inside]
    simpa [Member.differs] using differs

end Records

private theorem isEmpty_iff (delta : Delta) : delta.isEmpty = true ↔ ∀ path, path ∉ delta.paths := by
  rw [List.isEmpty_iff, ← List.eq_nil_iff_forall_not_mem, paths, List.map_eq_nil_iff]

private theorem isEmpty_record_iff {members : List Member} (distinct : (members.map Member.name).Nodup) :
    (between (.record (members.map fun member => (member.name, member.desired)))
        (.record (members.map fun member => (member.name, member.latest)))).isEmpty = true ↔
      ∀ member ∈ members, member.differs = false := by
  rw [isEmpty_iff]
  refine (forall_congr' fun path => not_congr (mem_paths_record distinct)).trans ?_
  simp only [not_exists, not_and, Bool.not_eq_true]
  exact ⟨fun equal member inside => equal _ member inside rfl,
    fun equal path member inside _ => equal member inside⟩

theorem differsAt_iff (delta : Delta) (path : String) :
    delta.differsAt path = true ↔ path ∈ delta.paths := by
  simp [differsAt, paths]

/-- The path of a member, and whether the member differs. -/
def Member.field (member : Member) : String × Bool :=
  (Difference.pathOf member.name, member.differs)

theorem unsupported_record {members : List Member}
    (ascending : (members.map Member.name).Pairwise (· < ·)) (kind : Kind) :
    (between (.record (members.map fun member => (member.name, member.desired)))
        (.record (members.map fun member => (member.name, member.latest)))).unsupported kind =
      (((members.map Member.field).filter fun field => !kind.isMutable field.1).filter
        Prod.snd).map Prod.fst := by
  rw [unsupported, paths, between_record ascending, List.map_map]
  simp only [List.filter_map, List.filter_filter, List.map_map]
  refine congrArg (List.map _) (List.filter_congr fun member _ => Bool.and_comm _ _)

theorem failure?_of_allowed {kind : Kind} {allowed : List String}
    (updates : kind.profile.updates = .allowed allowed) (delta : Delta) :
    delta.failure? kind =
      if delta.unsupported kind = [] then none
      else some (.terminal ("Immutable Spec fields have been modified: " ++
        ",".intercalate (delta.unsupported kind))) := by
  simp only [failure?, refusal?, updates, List.isEmpty_iff]
  split <;> rfl

theorem failure?_of_unsupported {kind : Kind} {message : String}
    (updates : kind.profile.updates = .unsupported message) (delta : Delta) :
    (delta.failure? kind).getD (.terminal message) = .terminal message := by
  simp only [failure?, refusal?, updates]
  split <;> rfl

theorem failure?_eq_none_iff (delta : Delta) (kind : Kind) :
    delta.failure? kind = none ↔ ∀ path ∈ delta.paths, kind.isMutable path = true := by
  have accepted : (delta.unsupported kind).isEmpty = true ↔
      ∀ path ∈ delta.paths, kind.isMutable path = true := by
    simp [unsupported]
  rw [← accepted, failure?, Option.map_eq_none_iff, refusal?]
  cases (delta.unsupported kind).isEmpty with
  | true => simp
  | false =>
    simp only [Bool.false_eq_true, if_false, iff_false]
    split <;> simp

end Delta

def KeySpec.members (desired latest : KeySpec) : List Delta.Member := [
  ⟨"bypassPolicyLockoutSafetyCheck", desired.bypassPolicyLockoutSafetyCheck.map .bool,
    latest.bypassPolicyLockoutSafetyCheck.map .bool⟩,
  ⟨"customKeyStoreID", desired.customKeyStoreId.map .string, latest.customKeyStoreId.map .string⟩,
  ⟨"description", desired.description.map .string, latest.description.map .string⟩,
  ⟨"enableKeyRotation", desired.enableKeyRotation.map .bool, latest.enableKeyRotation.map .bool⟩,
  ⟨"keySpec", desired.keySpec.map .string, latest.keySpec.map .string⟩,
  ⟨"keyUsage", desired.keyUsage.map .string, latest.keyUsage.map .string⟩,
  ⟨"multiRegion", desired.multiRegion.map .bool, latest.multiRegion.map .bool⟩,
  ⟨"origin", desired.origin.map .string, latest.origin.map .string⟩,
  ⟨"policy", desired.policy.map .string, latest.policy.map .string⟩,
  ⟨"tags", if desired.tags.isEmpty then none else some desired.tags.toJson,
    if latest.tags.isEmpty then none else some latest.tags.toJson⟩]

theorem KeySpec.mem_paths (desired latest : KeySpec) (path : String) :
    path ∈ (Delta.between desired.toJson latest.toJson).paths ↔
      ("Spec.BypassPolicyLockoutSafetyCheck" = path ∧
        desired.bypassPolicyLockoutSafetyCheck ≠ latest.bypassPolicyLockoutSafetyCheck) ∨
      ("Spec.CustomKeyStoreID" = path ∧ desired.customKeyStoreId ≠ latest.customKeyStoreId) ∨
      ("Spec.Description" = path ∧ desired.description ≠ latest.description) ∨
      ("Spec.EnableKeyRotation" = path ∧ desired.enableKeyRotation ≠ latest.enableKeyRotation) ∨
      ("Spec.KeySpec" = path ∧ desired.keySpec ≠ latest.keySpec) ∨
      ("Spec.KeyUsage" = path ∧ desired.keyUsage ≠ latest.keyUsage) ∨
      ("Spec.MultiRegion" = path ∧ desired.multiRegion ≠ latest.multiRegion) ∨
      ("Spec.Origin" = path ∧ desired.origin ≠ latest.origin) ∨
      ("Spec.Policy" = path ∧ desired.policy ≠ latest.policy) ∨
      ("Spec.Tags" = path ∧ desired.tags ≠ latest.tags) := by
  have distinct : ((members desired latest).map Delta.Member.name).Nodup := by
    simp [members]
  refine (Delta.mem_paths_record distinct).trans ?_
  simp only [members, List.mem_cons, List.not_mem_nil, or_false, exists_eq_or_imp, exists_eq_left,
    Delta.Member.differs, Json.optional_text_beq, Json.optional_flag_beq, Json.optional_tags_beq,
    Bool.not_eq_true', beq_eq_false_iff_ne, decide_eq_false_iff_not]
  exact Iff.rfl

theorem KeySpec.delta_isEmpty_iff (desired latest : KeySpec) :
    (Delta.between desired.toJson latest.toJson).isEmpty = true ↔ desired = latest := by
  have distinct : ((members desired latest).map Delta.Member.name).Nodup := by
    simp [members]
  refine (Delta.isEmpty_record_iff distinct).trans ?_
  simp only [members, List.forall_mem_cons, Delta.Member.differs, Json.optional_text_beq,
    Json.optional_flag_beq, Json.optional_tags_beq]
  cases desired
  cases latest
  simp

/-- A key takes on a change that leaves what its metadata shows as it is. -/
theorem KeySpec.failure?_eq_none_iff (desired latest : KeySpec) :
    (Delta.between desired.toJson latest.toJson).failure? .key = none ↔
      desired.customKeyStoreId = latest.customKeyStoreId ∧
      desired.description = latest.description ∧ desired.keySpec = latest.keySpec ∧
      desired.keyUsage = latest.keyUsage ∧ desired.multiRegion = latest.multiRegion ∧
      desired.origin = latest.origin := by
  have mutability :
      ["Spec.BypassPolicyLockoutSafetyCheck", "Spec.CustomKeyStoreID", "Spec.Description",
        "Spec.EnableKeyRotation", "Spec.KeySpec", "Spec.KeyUsage", "Spec.MultiRegion",
        "Spec.Origin", "Spec.Policy", "Spec.Tags"].map Kind.key.isMutable =
      [true, false, false, true, false, false, false, false, true, true] := by
    decide
  simp only [List.map_cons, List.map_nil, List.cons.injEq, and_true] at mutability
  simp [Delta.failure?_eq_none_iff, mem_paths, or_imp, forall_and, mutability]

theorem UpdateTarget.isRequired_between (target : UpdateTarget) (desired latest : KeySpec)
    (step : UpdateStep) :
    target.isRequired (.between desired.toJson latest.toJson) step =
      match step with
      | .policy => decide (desired.policy ≠ latest.policy) && target.policy?.isSome
      | .tags => decide (desired.tags ≠ latest.tags)
      | .rotation => decide (desired.enableKeyRotation ≠ latest.enableKeyRotation) := by
  have differs (path : String) :
      (Delta.between desired.toJson latest.toJson).differsAt path = true ↔ _ :=
    (Delta.differsAt_iff _ path).trans (KeySpec.mem_paths desired latest path)
  rw [Bool.eq_iff_iff]
  cases step <;> simp [isRequired, differs]

theorem UpdateTarget.requiredSteps_eq_nil {target : UpdateTarget} {desired latest : KeySpec}
    (tags : desired.tags = latest.tags)
    (rotation : desired.enableKeyRotation = latest.enableKeyRotation)
    (policy : desired.policy = latest.policy ∨ target.policy? = none) :
    target.requiredSteps (.between desired.toJson latest.toJson) = [] := by
  rcases policy with same | none
  · simp [requiredSteps, isRequired_between, tags, rotation, same]
  · simp [requiredSteps, isRequired_between, tags, rotation, none]

def ReplicaKeySpec.members (desired latest : ReplicaKeySpec) : List Delta.Member := [
  ⟨"keyID", desired.keyId.map .string, latest.keyId.map .string⟩,
  ⟨"replicaRegion", some (.string desired.replicaRegion), some (.string latest.replicaRegion)⟩,
  ⟨"description", desired.description.map .string, latest.description.map .string⟩,
  ⟨"policy", desired.policy.map .string, latest.policy.map .string⟩,
  ⟨"bypassPolicyLockoutSafetyCheck", desired.bypassPolicyLockoutSafetyCheck.map .bool,
    latest.bypassPolicyLockoutSafetyCheck.map .bool⟩,
  ⟨"tags", if desired.tags.isEmpty then none else some desired.tags.toJson,
    if latest.tags.isEmpty then none else some latest.tags.toJson⟩]

theorem ReplicaKeySpec.delta_isEmpty_iff (desired latest : ReplicaKeySpec) :
    (Delta.between desired.toJson latest.toJson).isEmpty = true ↔ desired = latest := by
  have distinct : ((members desired latest).map Delta.Member.name).Nodup := by
    simp [members]
  refine (Delta.isEmpty_record_iff distinct).trans ?_
  simp only [members, List.forall_mem_cons, Delta.Member.differs, Json.optional_text_beq,
    Json.optional_flag_beq, Json.optional_tags_beq, Option.getD_some, Json.string_beq]
  cases desired
  cases latest
  simp

def AliasSpec.members (desired latest : AliasSpec) : List Delta.Member := [
  ⟨"name", some (.string desired.name), some (.string latest.name)⟩,
  ⟨"targetKeyID", desired.targetKeyId.map .string, latest.targetKeyId.map .string⟩]

theorem AliasSpec.delta_isEmpty_iff (desired latest : AliasSpec) :
    (Delta.between desired.toJson latest.toJson).isEmpty = true ↔ desired = latest := by
  have distinct : ((members desired latest).map Delta.Member.name).Nodup := by
    simp [members]
  refine (Delta.isEmpty_record_iff distinct).trans ?_
  simp only [members, List.forall_mem_cons, Delta.Member.differs, Json.optional_text_beq,
    Option.getD_some, Json.string_beq]
  cases desired
  cases latest
  simp

theorem GrantConstraints.toJson_beq (a b : GrantConstraints) :
    (a.toJson == b.toJson) = decide (a = b) := by
  refine Bool.eq_iff_iff.mpr ⟨fun equal => decide_eq_true ?_, fun same => ?_⟩
  · have equals := Json.get?_of_record_beq (by simp) (by simp) equal "encryptionContextEquals"
    have subset := Json.get?_of_record_beq (by simp) (by simp) equal "encryptionContextSubset"
    have equals := of_decide_eq_true ((Json.optional_texts_beq _ _).symm.trans equals)
    have subset := of_decide_eq_true ((Json.optional_texts_beq _ _).symm.trans subset)
    obtain ⟨_, _⟩ := a
    obtain ⟨_, _⟩ := b
    cases equals
    cases subset
    rfl
  · obtain rfl := of_decide_eq_true same
    exact Json.same_refl _

def GrantSpec.members (desired latest : GrantSpec) : List Delta.Member := [
  ⟨"constraints", desired.constraints.map GrantConstraints.toJson,
    latest.constraints.map GrantConstraints.toJson⟩,
  ⟨"grantTokens", if desired.grantTokens.isEmpty then none else some (.ofStrings desired.grantTokens),
    if latest.grantTokens.isEmpty then none else some (.ofStrings latest.grantTokens)⟩,
  ⟨"granteePrincipal", some (.string desired.granteePrincipal),
    some (.string latest.granteePrincipal)⟩,
  ⟨"keyID", desired.keyId.map .string, latest.keyId.map .string⟩,
  ⟨"name", desired.name.map .string, latest.name.map .string⟩,
  ⟨"operations", some (.ofStrings desired.operations), some (.ofStrings latest.operations)⟩,
  ⟨"retiringPrincipal", desired.retiringPrincipal.map .string,
    latest.retiringPrincipal.map .string⟩]

theorem GrantSpec.delta_isEmpty_iff (desired latest : GrantSpec) :
    (Delta.between desired.toJson latest.toJson).isEmpty = true ↔ desired = latest := by
  have distinct : ((members desired latest).map Delta.Member.name).Nodup := by
    simp [members]
  have constraints (a b : Option GrantConstraints) :
      ((a.map GrantConstraints.toJson).getD .null == (b.map GrantConstraints.toJson).getD .null) =
        decide (a = b) :=
    Json.optional_beq GrantConstraints.toJson_beq (fun _ => rfl) a b
  refine (Delta.isEmpty_record_iff distinct).trans ?_
  simp only [members, List.forall_mem_cons, Delta.Member.differs, Json.optional_text_beq,
    Option.getD_some, Json.string_beq, Json.optional_strings_beq, Json.strings_beq, constraints]
  cases desired
  cases latest
  simp

end KeySteward
