import KeySteward.Proofs.MergedRecords
import KeySteward.Service.Wire

/-! What the body of a call says of its inputs. No null stands anywhere in it, a member that may be left
out is there exactly when the input sets it, and everything that the input says can be told from it. -/

namespace KeySteward

namespace Json

mutual
/-- The value satisfies a condition, and everything inside it does. -/
def Everywhere (condition : Json → Prop) : Json → Prop
  | array items => condition (array items) ∧ EverywhereItems condition items
  | object members => condition (object members) ∧ EverywhereMembers condition members
  | value => condition value
def EverywhereItems (condition : Json → Prop) : List Json → Prop
  | [] => True
  | item :: rest => Everywhere condition item ∧ EverywhereItems condition rest
def EverywhereMembers (condition : Json → Prop) : List (String × Json) → Prop
  | [] => True
  | (_, value) :: rest => Everywhere condition value ∧ EverywhereMembers condition rest
end

section Everywhere

variable {condition wider : Json → Prop}

private theorem everywhereItems_iff {items : List Json} :
    EverywhereItems condition items ↔ ∀ item ∈ items, item.Everywhere condition := by
  induction items with
  | nil => simp [EverywhereItems]
  | cons item rest ih => simp [EverywhereItems, ih]

private theorem everywhereMembers_iff {members : List (String × Json)} :
    EverywhereMembers condition members ↔ ∀ member ∈ members, member.2.Everywhere condition := by
  induction members with
  | nil => simp [EverywhereMembers]
  | cons member rest ih => simp [EverywhereMembers, ih]

mutual
theorem Everywhere.mono (implies : ∀ value, condition value → wider value) :
    (value : Json) → value.Everywhere condition → value.Everywhere wider
  | null, held | bool _, held | number _, held | string _, held => implies _ held
  | array items, held => ⟨implies _ held.1, EverywhereItems.mono implies items held.2⟩
  | object members, held => ⟨implies _ held.1, EverywhereMembers.mono implies members held.2⟩
theorem EverywhereItems.mono (implies : ∀ value, condition value → wider value) :
    (items : List Json) → EverywhereItems condition items → EverywhereItems wider items
  | [], _ => trivial
  | item :: rest, held =>
    ⟨Everywhere.mono implies item held.1, EverywhereItems.mono implies rest held.2⟩
theorem EverywhereMembers.mono (implies : ∀ value, condition value → wider value) :
    (members : List (String × Json)) → EverywhereMembers condition members →
      EverywhereMembers wider members
  | [], _ => trivial
  | (_, value) :: rest, held =>
    ⟨Everywhere.mono implies value held.1, EverywhereMembers.mono implies rest held.2⟩
end

end Everywhere

/-- Neither null nor a binary number, of which two may be the same without being equal. -/
def IsPlain : Json → Prop
  | null | number (.double _) => False
  | _ => True

mutual
private theorem eq_of_same : (a b : Json) → a.Everywhere IsPlain → same a b = true → a = b
  | null, _, plain, _ => plain.elim
  | number (.double _), _, plain, _ => plain.elim
  | number (.whole a), b, _, equal => by
    cases b with
    | number b => cases b <;> simp_all [same, Number.same]
    | _ => cases equal
  | bool a, b, _, equal => by
    cases b <;> simp_all [same]
  | string a, b, _, equal => by
    cases b <;> simp_all [same]
  | array as, b, plain, equal => by
    cases b with
    | array bs => exact congrArg array (eq_of_sameItems as bs plain.2 (by simpa only [same] using equal))
    | _ => cases equal
  | object as, b, plain, equal => by
    cases b with
    | object bs =>
      exact congrArg object (eq_of_sameMembers as bs plain.2 (by simpa only [same] using equal))
    | _ => cases equal
theorem eq_of_sameItems : (as bs : List Json) → EverywhereItems IsPlain as →
    sameItems as bs = true → as = bs
  | [], bs, _, equal => by cases bs <;> first | rfl | cases equal
  | a :: as, [], _, equal => by cases equal
  | a :: as, b :: bs, plain, equal => by
    simp only [sameItems, Bool.and_eq_true] at equal
    rw [eq_of_same a b plain.1 equal.1, eq_of_sameItems as bs plain.2 equal.2]
theorem eq_of_sameMembers : (as bs : List (String × Json)) → EverywhereMembers IsPlain as →
    sameMembers as bs = true → as = bs
  | [], bs, _, equal => by cases bs <;> first | rfl | cases equal
  | a :: as, [], _, equal => by cases equal
  | (name, a) :: as, (other, b) :: bs, plain, equal => by
    simp only [sameMembers, Bool.and_eq_true, beq_iff_eq] at equal
    rw [equal.1.1, eq_of_same a b plain.1 equal.1.2, eq_of_sameMembers as bs plain.2 equal.2]
end

end Json

private theorem Entries.eq_of_names {α : Type} {a b : List (String × α)}
    (names : a.map Prod.fst = b.map Prod.fst) (distinct : (a.map Prod.fst).Nodup)
    (alike : ∀ name, get? name a = get? name b) : a = b := by
  induction a generalizing b with
  | nil => exact (List.map_eq_nil_iff.mp names.symm).symm
  | cons entry rest ih =>
    cases b with
    | nil => cases names
    | cons other others =>
      obtain ⟨name, value⟩ := entry
      obtain ⟨name', value'⟩ := other
      obtain ⟨rfl, tails⟩ := List.cons.inj names
      obtain ⟨fresh, remaining⟩ := List.nodup_cons.mp distinct
      have values : value = value' := by simpa [get?] using alike name
      subst values
      refine congrArg _ (ih tails remaining fun key => ?_)
      by_cases same : name = key
      · subst same
        rw [get?_eq_none_iff.mpr fresh, get?_eq_none_iff.mpr (tails ▸ fresh)]
      · simpa [get?, same] using alike key

namespace Json

section Records

variable {members others : List (String × Option Json)}

private theorem at?_record (distinct : (members.map Prod.fst).Nodup) (name : String)
    (path : List String) :
    (record members).at? (name :: path) =
      (Entries.get? name members).join.bind fun member => member.at? path := by
  rw [at?]
  exact congrArg (Option.bind · _) (get?_record distinct name)

private theorem at?_record_single (distinct : (members.map Prod.fst).Nodup) (name : String) :
    (record members).at? [name] = (Entries.get? name members).join := by
  rw [at?_record distinct]
  exact Option.bind_fun_some _

private theorem isSome_at?_record (distinct : (members.map Prod.fst).Nodup) (name : String) :
    ((record members).at? [name]).isSome =
      members.any fun member => decide (name = member.1) && member.2.isSome := by
  rw [at?_record_single distinct, Bool.eq_iff_iff, List.any_eq_true]
  constructor
  · intro present
    obtain ⟨value, found⟩ := Option.isSome_iff_exists.mp present
    have given := (Entries.get?_eq_some_iff distinct).mp (Option.join_eq_some_iff.mp found)
    exact ⟨_, given, by simp⟩
  · rintro ⟨⟨given, value⟩, inside, holds⟩
    obtain ⟨same, present⟩ := (Bool.and_eq_true _ _).mp holds
    cases of_decide_eq_true same
    obtain ⟨value, rfl⟩ := Option.isSome_iff_exists.mp present
    rw [(Entries.get?_eq_some_iff distinct).mpr inside]
    rfl

private theorem eq_of_record_eq (equal : record members = record others)
    (names : members.map Prod.fst = others.map Prod.fst) (distinct : (members.map Prod.fst).Nodup) :
    members = others := by
  refine Entries.eq_of_names names distinct fun name => ?_
  have joined : (Entries.get? name members).join = (Entries.get? name others).join := by
    rw [← get?_record distinct, ← get?_record (names ▸ distinct), Json.object.inj equal]
  by_cases listed : name ∈ members.map Prod.fst
  · obtain ⟨value, found⟩ := Option.isSome_iff_exists.mp (Entries.isSome_get?.mpr listed)
    obtain ⟨value', found'⟩ := Option.isSome_iff_exists.mp (Entries.isSome_get?.mpr (names ▸ listed))
    rw [found, found'] at joined ⊢
    exact congrArg some joined
  · rw [Entries.get?_eq_none_iff.mpr listed, Entries.get?_eq_none_iff.mpr (names ▸ listed)]

end Records

end Json

namespace Wire

open Json

/-! ### Parts of a body -/

private theorem texts_inj {a b : Option String} : a.map Json.string = b.map Json.string ↔ a = b :=
  Option.map_inj_right fun _ _ => Json.string.inj

private theorem flags_inj {a b : Option Bool} : a.map Json.bool = b.map Json.bool ↔ a = b :=
  Option.map_inj_right fun _ _ => Json.bool.inj

private theorem ofInt_inj {a b : Int} : ofInt a = ofInt b ↔ a = b := by
  simp [ofInt]

private theorem ofStrings_inj {a b : List String} : ofStrings a = ofStrings b ↔ a = b := by
  simp only [ofStrings, Json.array.injEq]
  exact List.map_inj_right fun _ _ => Json.string.inj

private theorem tagToJson_eq_record (tag : Tag) : tagToJson tag =
    record [("TagKey", some (.string tag.key)), ("TagValue", some (.string tag.value))] :=
  rfl

private theorem tagsToJson_inj {a b : List Tag} : tagsToJson a = tagsToJson b ↔ a = b := by
  simp only [tagsToJson, Json.array.injEq]
  refine List.map_inj_right fun first second equal => ?_
  rw [tagToJson_eq_record, tagToJson_eq_record] at equal
  have members := eq_of_record_eq equal rfl (by simp)
  cases first
  cases second
  simpa using members

section UnlessEmpty

variable {α : Type} {toJson : List α → Json} {a b : List α}

private theorem isSome_unlessEmpty : (unlessEmpty a toJson).isSome = !a.isEmpty := by
  unfold unlessEmpty
  cases a <;> rfl

private theorem unlessEmpty_inj (faithful : ∀ {a b}, toJson a = toJson b ↔ a = b) :
    unlessEmpty a toJson = unlessEmpty b toJson ↔ a = b := by
  unfold unlessEmpty
  cases a <;> cases b <;> simp [faithful]

end UnlessEmpty

private theorem contextToJson?_eq (context : SortedMap String) :
    contextToJson? context = unlessEmpty context.entries fun entries =>
      .object (entries.map fun entry => (entry.1, .string entry.2)) :=
  rfl

private theorem isSome_contextToJson? (context : SortedMap String) :
    (contextToJson? context).isSome = !context.isEmpty := by
  rw [contextToJson?_eq]
  exact isSome_unlessEmpty

private theorem contextToJson?_inj {a b : SortedMap String} :
    contextToJson? a = contextToJson? b ↔ a = b := by
  rw [contextToJson?_eq, contextToJson?_eq, unlessEmpty_inj]
  · cases a
    cases b
    simp
  · intro a b
    rw [Json.object.injEq]
    refine List.map_inj_right ?_
    rintro ⟨name, text⟩ ⟨name', text'⟩ same
    simpa using same

private theorem isSome_constraintsToJson? (grant : NewGrant) :
    (constraintsToJson? grant).isSome =
      !(grant.encryptionContextEquals.isEmpty && grant.encryptionContextSubset.isEmpty) := by
  unfold constraintsToJson?
  split
  next empty => rw [empty]; rfl
  next filled => rw [Bool.not_eq_true] at filled; rw [filled]; rfl

private theorem at?_constraintsToJson? (grant : NewGrant) (name : String) :
    (constraintsToJson? grant).bind (·.at? [name]) =
      (Entries.get? name [("EncryptionContextEquals", contextToJson? grant.encryptionContextEquals),
        ("EncryptionContextSubset", contextToJson? grant.encryptionContextSubset)]).join := by
  rw [← at?_record_single (by simp), constraintsToJson?]
  split
  next empty =>
    obtain ⟨equals, subset⟩ := (Bool.and_eq_true _ _).mp empty
    have missing {context : SortedMap String} (empty : context.isEmpty = true) :
        contextToJson? context = none :=
      if_pos empty
    rw [missing equals, missing subset]
    rfl
  next => rfl

private theorem constraintsToJson?_inj {a b : NewGrant} :
    constraintsToJson? a = constraintsToJson? b ↔
      a.encryptionContextEquals = b.encryptionContextEquals ∧
        a.encryptionContextSubset = b.encryptionContextSubset := by
  constructor
  · intro equal
    have parts (name : String) := congrArg (Option.bind · (·.at? [name])) equal
    simp only [at?_constraintsToJson?] at parts
    have equals := parts "EncryptionContextEquals"
    have subset := parts "EncryptionContextSubset"
    simp only [Entries.get?, String.reduceEq, ↓reduceIte, Option.join_some] at equals subset
    exact ⟨contextToJson?_inj.mp equals, contextToJson?_inj.mp subset⟩
  · rintro ⟨equals, subset⟩
    rw [constraintsToJson?, constraintsToJson?, equals, subset]

/-! ### Plain parts -/

/-- The part of a body is plain everywhere, if it is there. -/
def IsPlainPart (part : Option Json) : Prop :=
  ∀ value ∈ part, value.Everywhere IsPlain

private theorem record_plain {members : List (String × Option Json)}
    (present : ∀ member ∈ members, IsPlainPart member.2) :
    (record members).Everywhere IsPlain := by
  refine ⟨trivial, everywhereMembers_iff.mpr ?_⟩
  rintro ⟨name, value⟩ stands
  have found := (Entries.get?_eq_some_iff (Entries.ascending_ofList _).distinct).mpr stands
  rw [Entries.get?_ofList] at found
  have listed := List.mem_reverse.mp (Entries.mem_of_get? found)
  obtain ⟨member, given, shown⟩ := List.mem_filterMap.mp listed
  obtain ⟨held, here, same⟩ := Option.map_eq_some_iff.mp shown
  cases same
  exact present member given value here

@[simp] theorem isPlainPart_some {value : Json} :
    IsPlainPart (some value) ↔ value.Everywhere IsPlain := by
  simp [IsPlainPart]

private theorem isPlainPart_map {α : Type} {toJson : α → Json}
    (plain : ∀ input, (toJson input).Everywhere IsPlain) (input : Option α) :
    IsPlainPart (input.map toJson) := by
  rintro value shown
  obtain ⟨input, -, rfl⟩ := Option.map_eq_some_iff.mp shown
  exact plain input

private theorem isPlainPart_unlessEmpty {α : Type} {items : List α} {toJson : List α → Json}
    (plain : (toJson items).Everywhere IsPlain) : IsPlainPart (unlessEmpty items toJson) := by
  unfold unlessEmpty
  split
  · rintro _ ⟨⟩
  · exact isPlainPart_some.mpr plain

@[simp] theorem string_plain (text : String) : (Json.string text).Everywhere IsPlain :=
  trivial

@[simp] theorem bool_plain (flag : Bool) : (Json.bool flag).Everywhere IsPlain :=
  trivial

@[simp] theorem ofInt_plain (value : Int) : (Json.ofInt value).Everywhere IsPlain :=
  trivial

@[simp] theorem ofStrings_plain (texts : List String) : (ofStrings texts).Everywhere IsPlain := by
  refine ⟨trivial, everywhereItems_iff.mpr fun item inside => ?_⟩
  obtain ⟨text, -, rfl⟩ := List.mem_map.mp inside
  exact string_plain text

@[simp] theorem tagsToJson_plain (tags : List Tag) : (tagsToJson tags).Everywhere IsPlain := by
  refine ⟨trivial, everywhereItems_iff.mpr fun item inside => ?_⟩
  obtain ⟨tag, -, rfl⟩ := List.mem_map.mp inside
  rw [tagToJson_eq_record]
  exact record_plain (by simp)

private theorem contextToJson?_plain (context : SortedMap String) : IsPlainPart
    (contextToJson? context) := by
  rw [contextToJson?_eq]
  refine isPlainPart_unlessEmpty ⟨trivial, everywhereMembers_iff.mpr fun member inside => ?_⟩
  obtain ⟨entry, -, rfl⟩ := List.mem_map.mp inside
  exact string_plain entry.2

private theorem constraintsToJson?_plain (grant : NewGrant) : IsPlainPart
    (constraintsToJson? grant) := by
  unfold constraintsToJson?
  split
  · rintro _ ⟨⟩
  · exact isPlainPart_some.mpr (record_plain (by simp [contextToJson?_plain]))

/-! ### Bodies -/

private theorem body_plain (request : Request) : (body request).Everywhere IsPlain := by
  cases request
  all_goals
    refine record_plain ?_
    simp [isPlainPart_map, isPlainPart_unlessEmpty, constraintsToJson?_plain]

/-- Calls of one operation with the same body have the same inputs: the two bodies are records with the
same names, so they are equal member by member. -/
theorem body_inj {request other : Request} (operation : request.operation = other.operation)
    (equal : body request = body other) : request = other := by
  cases request <;> cases other <;> simp only [Request.operation, String.reduceEq] at operation
  all_goals have members := eq_of_record_eq equal rfl (by simp)
  case createKey.createKey key other =>
    cases key
    cases other
    simpa [texts_inj, flags_inj, unlessEmpty_inj tagsToJson_inj] using members
  case replicateKey.replicateKey replica other =>
    cases replica
    cases other
    simpa [texts_inj, flags_inj, unlessEmpty_inj tagsToJson_inj] using members
  case putKeyPolicy.putKeyPolicy change other =>
    cases change
    cases other
    simpa using members
  case createGrant.createGrant grant other =>
    cases grant
    cases other
    simpa [texts_inj, ofStrings_inj, unlessEmpty_inj ofStrings_inj, constraintsToJson?_inj] using members
  all_goals simpa [texts_inj, ofInt_inj, tagsToJson_inj, ofStrings_inj] using members

/-- The members of the body of a call that may be left out, each with whether the inputs set it. -/
def optionalMembers : Request → List (List String × Bool)
  | .createKey key => [
      (["BypassPolicyLockoutSafetyCheck"], key.bypassPolicyLockoutSafetyCheck.isSome),
      (["CustomKeyStoreId"], key.customKeyStoreId.isSome),
      (["Description"], key.description.isSome),
      (["KeySpec"], key.keySpec.isSome),
      (["KeyUsage"], key.keyUsage.isSome),
      (["MultiRegion"], key.multiRegion.isSome),
      (["Origin"], key.origin.isSome),
      (["Policy"], key.policy.isSome),
      (["Tags"], !key.tags.isEmpty)]
  | .replicateKey replica => [
      (["Description"], replica.description.isSome),
      (["Policy"], replica.policy.isSome),
      (["BypassPolicyLockoutSafetyCheck"], replica.bypassPolicyLockoutSafetyCheck.isSome),
      (["Tags"], !replica.tags.isEmpty)]
  | .listResourceTags _ marker | .listGrants _ marker | .listAliases marker =>
      [(["Marker"], marker.isSome)]
  | .createGrant grant => [
      (["RetiringPrincipal"], grant.retiringPrincipal.isSome),
      (["Name"], grant.name.isSome),
      (["GrantTokens"], !grant.grantTokens.isEmpty),
      (["Constraints"],
        !(grant.encryptionContextEquals.isEmpty && grant.encryptionContextSubset.isEmpty)),
      (["Constraints", "EncryptionContextEquals"], !grant.encryptionContextEquals.isEmpty),
      (["Constraints", "EncryptionContextSubset"], !grant.encryptionContextSubset.isEmpty)]
  | _ => []

/-- A member that may be left out is there exactly when the inputs set it. -/
theorem isSome_at?_body (request : Request) :
    ∀ member ∈ optionalMembers request, ((body request).at? member.1).isSome = member.2 := by
  cases request
  case createGrant grant =>
    have context (name : String) : (body (.createGrant grant)).at? ["Constraints", name] =
        (constraintsToJson? grant).bind (·.at? [name]) := by
      simp [body, at?_record, Entries.get?]
    simp only [optionalMembers, List.forall_mem_cons, context, at?_constraintsToJson?]
    simp [body, isSome_at?_record, isSome_unlessEmpty, isSome_constraintsToJson?,
      isSome_contextToJson?, Entries.get?]
  all_goals simp [optionalMembers, body, isSome_at?_record, isSome_unlessEmpty]

private theorem isSome_at?_body_of_required {request other : Request}
    (operation : request.operation = other.operation) {name : String}
    (required : [name] ∉ (optionalMembers request).map Prod.fst) :
    ((body request).at? [name]).isSome = ((body other).at? [name]).isSome := by
  cases request <;> cases other <;> simp only [Request.operation, String.reduceEq] at operation
  all_goals
    simp [optionalMembers] at required
    simp [body, isSome_at?_record, required]

/-- A request over the link says all that its call was given and nothing else. There is no null at any
depth of its body; a member that may be left out is there exactly when the inputs set it, and the others
are there in every request of the operation; and two requests of one operation with the same body come
from the same call. -/
theorem httpRequest_says_all (request : Request) :
    (httpRequest request).body.Everywhere (· ≠ .null) ∧
    (∀ member ∈ optionalMembers request,
      ((httpRequest request).body.at? member.1).isSome = member.2) ∧
    ∀ other, (httpRequest other).operation = (httpRequest request).operation →
      (∀ name, [name] ∉ (optionalMembers request).map Prod.fst →
        ((httpRequest other).body.at? [name]).isSome =
          ((httpRequest request).body.at? [name]).isSome) ∧
      ((httpRequest other).body == (httpRequest request).body) = (decide (other = request)) := by
  refine ⟨(body_plain request).mono ?_ _, isSome_at?_body request, fun other operation => ⟨?_, ?_⟩⟩
  · rintro value plain rfl
    exact plain
  · intro name required
    exact (isSome_at?_body_of_required operation.symm required).symm
  · rw [Bool.eq_iff_iff, decide_eq_true_eq]
    constructor
    · intro equal
      exact body_inj operation (eq_of_same _ _ (body_plain other) equal)
    · rintro rfl
      exact same_refl _

end Wire

end KeySteward
