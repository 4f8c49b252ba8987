import KeySteward.Proofs.ConditionLists
import KeySteward.Proofs.StatusPatches

/-! Conditions of types that are none of a pass. Other tooling may have put them into the stored list. A
pass reads the list without them, and its patch replaces the list as a whole, so they are gone once the
patch has been merged. -/

namespace KeySteward

open Json

variable {entry : Json}

namespace Condition

/-- The entry of a list of conditions names a type that is none of a pass. -/
def isForeign (entry : Json) : Bool :=
  (entry.get? "type").any fun type =>
    type.text?.any fun name => (ConditionType.ofName? name).isNone

private theorem isForeign_iff :
    isForeign entry = true ↔
      ∃ name, entry.get? "type" = some (.string name) ∧ ConditionType.ofName? name = none := by
  simp only [isForeign, Option.any_eq_true, Option.isNone_iff_eq_none]
  constructor
  · rintro ⟨type, found, name, named, unknown⟩
    cases type <;> cases named
    exact ⟨name, found, unknown⟩
  · rintro ⟨name, found, unknown⟩
    exact ⟨_, found, name, rfl, unknown⟩

private theorem decode_foreign (foreign : isForeign entry = true) :
    (decode (document entry)).toOption = none := by
  obtain ⟨name, found, unknown⟩ := isForeign_iff.mp foreign
  cases entry with
  | object members =>
    have named : Entries.get? "type" members = some (.string name) := found
    rw [decode]
    cases read : Fields.read ["type", "status", "lastTransitionTime", "reason", "message"]
        (document (.object members)) with
    | error error => rfl
    | ok fields =>
      have look : Entries.get? "type" fields = (Entries.get? "type" members).map document :=
        Fields.get?_ofMembers read (by simp)
      have refused : fields.required "type" ConditionType.decode = .error (.unknownVariant name) := by
        rw [Fields.required, look, named]
        simp only [Option.map_some, document, ConditionType.decode, Decode.variant, pure_bind, unknown]
        rfl
      simp only [bind, Except.bind, refused]
      rfl
  | _ => cases found

private theorem isForeign_toJson (condition : Condition) : isForeign condition.toJson = false := by
  refine Bool.eq_false_iff.mpr fun foreign => ?_
  obtain ⟨name, found, unknown⟩ := isForeign_iff.mp foreign
  have named : condition.toJson.get? "type" = some (.string condition.type.name) :=
    get?_record (by simp) "type"
  cases named.symm.trans found
  rw [ConditionType.ofName?_name] at unknown
  cases unknown

end Condition

namespace Conditions

private theorem decode_items (items : List Json) :
    decode (document (.array items)) = .ok (ofList (items.filterMap fun entry =>
      (Condition.decode (document entry)).toOption)) := by
  rw [document, itemDocuments_eq, decode_documents (readable_documents items), List.filterMap_map]
  rfl

def own (items : List Json) : List Json :=
  items.filter fun entry => !Condition.isForeign entry

/-- A list is read as it would be without the foreign entries in it. -/
theorem decode_own (items : List Json) :
    decode (document (.array (own items))) = decode (document (.array items)) := by
  rw [decode_items, decode_items, own, List.filterMap_filter]
  congr 3
  funext entry
  cases foreign : Condition.isForeign entry with
  | true => exact (Condition.decode_foreign foreign).symm
  | false => rfl

end Conditions

def Json.withConditions (stored : Json) (items : List Json) : Json :=
  merge (.ofMembers [("status", .ofMembers [("conditions", .array items)])]) stored

namespace Kind

variable (kind : Kind)

private theorem conditions_listed :
    let _ := kind.managed.resource
    Field.conditions "conditions" (CustomResource.conditions kind.managed.Spec) ∈
      kind.statusRecord.fields := by
  cases kind with
  | key => exact List.mem_cons_of_mem _ List.mem_cons_self
  | replicaKey => exact List.mem_cons_self
  | keyAlias => exact List.mem_cons_of_mem _ List.mem_cons_self
  | grant => exact List.mem_cons_of_mem _ List.mem_cons_self

/-- Merged into whatever is stored, a status brings its own list of conditions. -/
theorem conditions_merged (status : kind.managed.Status) (stored : Json) :
    let _ := kind.managed.resource
    (merge (.ofMembers [("status", CustomResource.statusToJson kind.managed.Spec status)]) stored).at?
        ["status", "conditions"] =
      some (CustomResource.conditions kind.managed.Spec status).toJson := by
  intro _
  have lawful := kind.statusRecord_lawful
  have inner (target : Json) : (merge (kind.statusRecord.toJson status) target).get? "conditions" =
      some (CustomResource.conditions kind.managed.Spec status).toJson := by
    have distinct : ((kind.statusRecord.members status).map Prod.fst).Nodup :=
      Ascending.distinct (Entries.ascending_ofList _)
    rw [lawful.toJson_members, merge]
    have written : Entries.get? "conditions" (kind.statusRecord.members status) =
        some (CustomResource.conditions kind.managed.Spec status).toJson :=
      lawful.get?_members status kind.conditions_listed
    refine (get?_mergeMembers distinct _ _).trans ?_
    rw [written]
    exact Field.mergeMember_replaces (Field.replaces_array _) _
  have outer : (merge (.object [("status", kind.statusRecord.toJson status)]) stored).get? "status" =
      some (merge (kind.statusRecord.toJson status)
        ((Entries.get? "status" (stored.members?.getD [])).getD null)) := by
    rw [merge]
    exact (get?_mergeMembers_single lawful.isNull_toJson _ _ _).trans (if_pos rfl)
  rw [kind.statusRecord_toJson]
  change (merge (.object [("status", kind.statusRecord.toJson status)]) stored).at? _ = _
  simp only [at?, outer, Option.bind_some, inner]

private theorem members_of_listed {stored : Json} {items : List Json}
    (listed : stored.at? ["status", "conditions"] = some (.array items)) :
    ∃ members fields, stored = .object members ∧
      Entries.get? "status" members = some (.object fields) ∧
      Entries.get? "conditions" fields = some (.array items) := by
  obtain ⟨status, found, reached⟩ := Option.bind_eq_some_iff.mp listed
  obtain ⟨member, inner, same⟩ := Option.bind_eq_some_iff.mp reached
  cases same
  cases stored with
  | object members =>
    cases status with
    | object fields => exact ⟨members, fields, rfl, found, inner⟩
    | _ => cases inner
  | _ => cases found

private theorem decodeStatus_own {fields : List (String × Json)} {items : List Json}
    (ascending : Ascending fields)
    (listed : Entries.get? "conditions" fields = some (.array items)) (status : kind.managed.Status) :
    kind.statusRecord.decode (document (.object
        (mergeMembers [("conditions", .array (Conditions.own items))] fields))) = .ok status ↔
      kind.statusRecord.decode (document (.object fields)) = .ok status := by
  have lawful := kind.statusRecord_lawful
  rw [lawful.decode_object ascending, lawful.decode_object (ascending_mergeMembers _ ascending)]
  refine forall₂_congr fun field member => ?_
  rw [get?_mergeMembers_single rfl]
  split
  next same =>
    obtain rfl :=
      List.inj_on_of_nodup_map lawful.distinct kind.conditions_listed member same
    change readMember _ _ (some (merge (.array (Conditions.own items)) _)) = _ ↔
      readMember _ _ (Entries.get? "conditions" fields) = _
    rw [listed, (Field.replaces_array _).merge]
    exact Eq.congr_left (Conditions.decode_own items)
  next => rfl

/-- An object with a list of conditions is read as it would be without the foreign ones. -/
theorem decode_withConditions_own {stored : Json} {items : List Json} (canonical : stored.Canonical)
    (listed : stored.at? ["status", "conditions"] = some (.array items))
    (current : Resource kind.managed.Spec kind.managed.Status) :
    let _ := kind.managed.resource
    Resource.decode (document (stored.withConditions (Conditions.own items))) = .ok current ↔
      Resource.decode (document stored) = .ok current := by
  intro _
  obtain ⟨members, fields, rfl, found, inner⟩ := members_of_listed listed
  rw [Canonical] at canonical
  have sorted := canonical.2.get? found
  rw [Canonical] at sorted
  let patch := Json.object [("conditions", .array (Conditions.own items))]
  have patched := get?_mergeMembers_single (rfl : patch.isNull = false) members "status"
  have merged : Json.withConditions (.object members) (Conditions.own items) =
      .object (mergeMembers [("status", patch)] members) := by
    change merge (.object [("status", patch)]) _ = _
    rw [merge]
    rfl
  rw [merged, Resource.decode_object (ascending_mergeMembers _ canonical.1),
    Resource.decode_object canonical.1, kind.statusRecord_decode]
  simp only [patched, found, Option.getD_some, String.reduceEq, if_true, if_false]
  refine and_congr_right fun _ => and_congr_right fun _ => ?_
  rw [merge, Field.readMember_nullable rfl, Field.readMember_nullable rfl]
  exact exists_congr fun status => and_congr_left fun _ => kind.decodeStatus_own sorted.1 inner status

/-- However the reconcile of a pass goes, an object that is patched at its end has exactly the conditions
that the pass has recorded, and none of another type, whatever stood in its list before. Where the object
is read, conditions of other types are passed over. -/
theorem apply_replaces_conditions (scope : AccountScope) (pages : Nat) :
    let _ := kind.managed.resource
    let manager := kind.managed.manager scope pages
    ∀ {δ : Type} {service : Service δ} {schedule : Schedule} {start last : Run δ} (settings : Settings)
      (now : Timestamp) (resource : Resource kind.managed.Spec kind.managed.Status)
      (place : Controller.Place) (verdict : Verdict),
    (Controller.apply settings now manager resource place).run service schedule start =
      (.finished verdict, last) →
    ∃ result status write patch,
      (manager.reconcile resource).run.run service schedule start = (.finished result, last) ∧
      (Controller.recorded now resource result).status = some status ∧
      verdict.write = some write ∧ write.part = .status ∧ write.patch = .merge patch ∧
      ∀ stored : Json,
        (∃ entries, (merge patch stored).at? ["status", "conditions"] = some (.array entries) ∧
          entries = (CustomResource.conditions kind.managed.Spec status).toList.map Condition.toJson ∧
          ∀ entry ∈ entries, Condition.isForeign entry = false) ∧
        ∀ items : List Json, stored.Canonical →
          stored.at? ["status", "conditions"] = some (.array items) →
          ∀ current : Resource kind.managed.Spec kind.managed.Status,
            Resource.decode (document (stored.withConditions (Conditions.own items))) = .ok current ↔
              Resource.decode (document stored) = .ok current := by
  intro _ manager δ service schedule start last settings now resource place verdict ends
  obtain ⟨result, reconciled, rfl⟩ := Controller.apply_finished ends
  refine ⟨result, _, _, _, reconciled, Controller.status_recorded now resource result, rfl, rfl,
    Controller.patch_statusWrite now resource place result, fun stored => ⟨?_, ?_⟩⟩
  · refine ⟨_, kind.conditions_merged _ stored, rfl, fun entry listed => ?_⟩
    obtain ⟨condition, -, rfl⟩ := List.mem_map.mp listed
    exact condition.isForeign_toJson
  · intro items canonical listed current
    exact kind.decode_withConditions_own canonical listed current

/-- A key that stands as synced and has a condition of another type: it is read as if it had only the
first, and the second is gone after the pass. -/
theorem apply_replaces_conditions_mixed :
    let foreign : Json := .object [("status", .string "True"), ("type", .string "Ready")]
    let synced : Json := .object [("status", .string "True"), ("type", .string "Synced")]
    let stored : Json := .object [
      ("metadata", .object [("name", .string "key"), ("namespace", .string "default")]),
      ("spec", .object []),
      ("status", .object [("conditions", .array [foreign, synced]), ("keyID", .string "k1")])]
    let key : Key := ⟨{ name := "key", namespaceName := "default" }, {},
      some { keyId := some "k1", conditions := { synced := some { status := .true } } }⟩
    let manager := Key.manager ⟨"us-west-2", "000000000000"⟩ 3
    let start : Run Memory := { state := ({ config := .numbered } : Memory).seedKey "k1" {} }
    let pass := (Controller.apply {} ⟨0, 0⟩ manager key ⟨"default", "key"⟩).run Memory.service .calm start
    ∃ verdict write patch entries,
      pass.1 = .finished verdict ∧ verdict.write = some write ∧ write.patch = .merge patch ∧
      Resource.decode (document (stored.withConditions [synced])) = .ok key ∧
      (merge patch stored).at? ["status", "conditions"] = some (.array entries) ∧ foreign ∉ entries := by
  intro foreign synced stored key manager start pass
  obtain ⟨verdict, ends⟩ : ∃ verdict, pass.1 = .finished verdict := ⟨_, rfl⟩
  obtain ⟨result, status, write, patch, -, -, writes, -, merges, stands⟩ :=
    apply_replaces_conditions .key ⟨"us-west-2", "000000000000"⟩ 3 {} ⟨0, 0⟩ key ⟨"default", "key"⟩
      verdict (Prod.ext ends rfl)
  obtain ⟨⟨entries, there, -, own⟩, reads⟩ := stands stored
  have canonical : stored.Canonical := by
    simp only [stored, foreign, synced, Canonical, CanonicalMembers, CanonicalItems, Ascending]
    decide
  have read : Resource.decode (document (stored.withConditions [synced])) = .ok key :=
    (reads [foreign, synced] canonical rfl key).mpr rfl
  refine ⟨verdict, write, patch, entries, ends, writes, merges, read, there, fun listed => ?_⟩
  cases own foreign listed

/-- The only condition in the stored list is of another type, and it is not there any more once the patch
of the pass has been merged. -/
theorem foreign_condition_lost :
    let foreign : Json := .object [("status", .string "True"), ("type", .string "Ready")]
    let stored : Json := .object [
      ("metadata", .object [("name", .string "key"), ("namespace", .string "default")]),
      ("spec", .object []),
      ("status", .object [("conditions", .array [foreign]), ("keyID", .string "k1")])]
    let key : Key := ⟨{ name := "key", namespaceName := "default" }, {}, some { keyId := some "k1" }⟩
    let manager := Key.manager ⟨"us-west-2", "000000000000"⟩ 3
    let start : Run Memory := { state := ({ config := .numbered } : Memory).seedKey "k1" {} }
    let pass := (Controller.apply {} ⟨0, 0⟩ manager key ⟨"default", "key"⟩).run Memory.service .calm start
    Condition.isForeign foreign = true ∧ Resource.decode (document stored) = .ok key ∧
    ∃ verdict write patch entries,
      pass.1 = .finished verdict ∧ verdict.write = some write ∧ write.patch = .merge patch ∧
      (merge patch stored).at? ["status", "conditions"] = some (.array entries) ∧ foreign ∉ entries := by
  intro foreign stored key manager start pass
  obtain ⟨verdict, ends⟩ : ∃ verdict, pass.1 = .finished verdict := ⟨_, rfl⟩
  obtain ⟨result, -, rfl⟩ := Controller.apply_finished (Prod.ext ends rfl : pass = (.finished verdict, _))
  refine ⟨rfl, rfl, _, _, _, _, ends, rfl, Controller.patch_statusWrite _ _ _ _,
    Kind.key.conditions_merged _ stored, fun listed => ?_⟩
  obtain ⟨condition, -, same⟩ := List.mem_map.mp listed
  have own := condition.isForeign_toJson
  rw [same] at own
  cases own

end Kind

end KeySteward
