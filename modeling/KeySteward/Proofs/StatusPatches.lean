import KeySteward.Proofs.StatusRecords

/-! What is stored once the patch of a pass has been merged into the object. The patch names what the
status of the pass sets, and what it leaves unset stays as it was stored before. So the stored status is
that of the pass laid over the old one, and it is that of the pass only where the old one has nothing
to add. -/

namespace KeySteward

open Json

def Kind.statusRecord : (kind : Kind) → Record kind.managed.Status
  | .key => KeyStatus.record
  | .replicaKey => ReplicaKeyStatus.record
  | .keyAlias => AliasStatus.record
  | .grant => GrantStatus.record

namespace Kind

theorem statusRecord_lawful (kind : Kind) : kind.statusRecord.Lawful := by
  cases kind
  · exact KeyStatus.record_lawful
  · exact ReplicaKeyStatus.record_lawful
  · exact AliasStatus.record_lawful
  · exact GrantStatus.record_lawful

theorem statusRecord_decode (kind : Kind) :
    @CustomResource.decodeStatus _ _ kind.managed.resource = kind.statusRecord.decode := by
  cases kind <;> rfl

theorem statusRecord_toJson (kind : Kind) :
    @CustomResource.statusToJson _ _ kind.managed.resource = kind.statusRecord.toJson := by
  cases kind <;> rfl

end Kind

/-- Where an object of the kind holds records that its status is merged into. -/
def Kind.recordPaths (kind : Kind) : List (List String) :=
  [] :: kind.statusRecord.paths.map ("status" :: ·)

namespace Resource

variable {σ τ : Type} [CustomResource σ τ]

theorem decode_object {members : List (String × Json)} (ascending : Ascending members)
    (resource : Resource σ τ) :
    decode (document (.object members)) = .ok resource ↔
      (∃ metadata, Entries.get? "metadata" members = some metadata ∧
        Metadata.decode (document metadata) = .ok resource.metadata) ∧
      (∃ spec, Entries.get? "spec" members = some spec ∧
        CustomResource.decodeSpec (document spec) = .ok resource.spec) ∧
      readMember none (Decode.nullable (CustomResource.decodeStatus σ))
        (Entries.get? "status" members) = .ok resource.status := by
  obtain ⟨found, read, looks⟩ :=
    Fields.ofMembers_documents ["metadata", "spec", "status"] ascending.distinct
  have reading : Fields.readWhole ["metadata", "spec", "status"] (document (.object members)) =
      .ok found := read
  have status : found.optional "status" (CustomResource.decodeStatus σ) = _ :=
    Fields.orElse_eq (looks _ (by simp)) _ _
  have required {α : Type} {name : String} (listed : name ∈ ["metadata", "spec", "status"])
      (decoder : Decoder α) (value : α) : found.required name decoder = .ok value ↔
        ∃ member, Entries.get? name members = some member ∧ decoder (document member) = .ok value := by
    rw [Fields.required, looks name listed]
    cases Entries.get? name members <;> simp
  obtain ⟨metadata, spec, stored⟩ := resource
  simp [decode, bind_eq_ok, reading, status, required, pure, Except.pure]

/-- Merging a status into an object changes only what is read of the status. -/
theorem decode_merge_status {record : Record τ} (lawful : record.Lawful)
    (reads : CustomResource.decodeStatus σ = record.decode)
    (writes : CustomResource.statusToJson σ = record.toJson) {stored : Json} {current : Resource σ τ}
    {status : τ} (canonical : stored.Canonical)
    (records : stored.HasRecordsAt ([] :: record.paths.map ("status" :: ·)))
    (decoded : decode (document stored) = .ok current) (sound : record.IsSound status) :
    decode (document (merge (.ofMembers [("status", CustomResource.statusToJson σ status)]) stored)) =
      .ok { current with status := Option.merge record.overlay (some status) current.status } := by
  have isObject : ∃ members, stored = .object members := by
    have noItems := records [] (by simp) stored rfl
    cases stored with
    | object members => exact ⟨members, rfl⟩
    | array items => cases noItems
    | _ => cases decoded
  obtain ⟨members, rfl⟩ := isObject
  rw [Canonical] at canonical
  obtain ⟨metadata, spec, read⟩ := (decode_object canonical.1 current).mp decoded
  let patch := [("status", CustomResource.statusToJson σ status)]
  have distinct : (patch.map Prod.fst).Nodup := List.nodup_singleton _
  have merged := get?_mergeMembers distinct members
  change decode (document (merge (.object patch) (.object members))) = _
  rw [merge]
  refine (decode_object (ascending_mergeMembers patch canonical.1) _).mpr ⟨?_, ?_, ?_⟩
  · rw [merged]
    exact metadata
  · rw [merged]
    exact spec
  · rw [merged]
    rw [reads] at read ⊢
    simp only [patch, Entries.get?, if_true, writes]
    have overlaid := lawful.nested_merges (fun inner same => Option.some.inj same ▸ sound)
      (fun part found => ?_) read
    · exact overlaid
    · refine ⟨canonical.2.get? found, fun path listed inner reached => ?_⟩
      refine records ("status" :: path) (List.mem_cons_of_mem _ (List.mem_map_of_mem listed)) inner ?_
      have member : (Json.object members).get? "status" = some part := found
      rw [at?, member]
      exact reached

end Resource

/-- However the reconcile of a pass goes, the pass sends a merge patch, and an object that is patched with it
reads as before but for its status. There the status of the pass lies over the stored one, field by field: a
field that the pass leaves unset is as it was stored, and what is read is the status of the pass exactly if
nothing was stored that the pass leaves unset. -/
theorem Kind.apply_overlays (kind : Kind) (scope : AccountScope) (pages : Nat) :
    let _ := kind.managed.resource
    let manager := kind.managed.manager scope pages
    ∀ {δ : Type} {service : Service δ} {schedule : Schedule} {start last : Run δ} (settings : Settings)
      (now : Timestamp) (resource : Resource kind.managed.Spec kind.managed.Status)
      (place : Controller.Place) (verdict : Verdict),
    (Controller.apply settings now manager resource place).run service schedule start =
      (.finished verdict, last) →
    ∃ result status write patch,
      (manager.reconcile resource).run.run service schedule start = (.finished result, last) ∧
      (Controller.recorded now resource result).status = some status ∧
      verdict.write = some write ∧ write.part = .status ∧ write.patch = .merge patch ∧
      ∀ (stored : Json) (current : Resource kind.managed.Spec kind.managed.Status),
        stored.Canonical → stored.HasRecordsAt kind.recordPaths →
        Resource.decode (document stored) = .ok current → kind.statusRecord.IsSound status →
        ∃ patched, Resource.decode (document (merge patch stored)) =
            .ok { current with status := some patched } ∧
          (∀ old, current.status = some old → ∀ field ∈ kind.statusRecord.fields,
            field.get patched = field.overlay (field.get status) (field.get old) ∧
              (field.write (field.get status) = none → field.get patched = field.get old)) ∧
          (patched = status ↔ ∀ old, current.status = some old → kind.statusRecord.Covers status old) := by
  intro _ manager δ service schedule start last settings now resource place verdict ends
  obtain ⟨result, reconciled, rfl⟩ := Controller.apply_finished ends
  refine ⟨result, _, _, _, reconciled, Controller.status_recorded now resource result, rfl, rfl,
    Controller.patch_statusWrite now resource place result, ?_⟩
  intro stored current canonical records decoded sound
  have lawful := kind.statusRecord_lawful
  have merged := Resource.decode_merge_status lawful kind.statusRecord_decode kind.statusRecord_toJson
    canonical records decoded sound
  cases old : current.status with
  | none =>
    rw [old] at merged
    exact ⟨_, merged, nofun, iff_of_true rfl nofun⟩
  | some old =>
    rw [old] at merged
    refine ⟨_, merged, ?_, ?_⟩
    · rintro _ ⟨⟩ field listed
      exact ⟨lawful.get_overlay _ _ field listed, lawful.get_overlay_of_unwritten listed⟩
    · rw [lawful.overlay_eq_iff]
      exact ⟨fun covers _ same => Option.some.inj same ▸ covers, fun covers => covers _ rfl⟩

/-- A key that a pass has found again by the id in its status: nothing else was stored, so the status of the
pass is what is read from the patched object. -/
theorem Kind.apply_overlays_found :
    let stored : Json := .object [
      ("metadata", .object [("name", .string "key"), ("namespace", .string "default")]),
      ("spec", .object []),
      ("status", .object [("keyID", .string "k1")])]
    let key : Key := ⟨{ name := "key", namespaceName := "default" }, {}, some { keyId := some "k1" }⟩
    let manager := Key.manager ⟨"us-west-2", "000000000000"⟩ 3
    let start : Run Memory := { state := ({ config := .numbered } : Memory).seedKey "k1" {} }
    let pass := (Controller.apply {} ⟨0, 0⟩ manager key ⟨"default", "key"⟩).run Memory.service .calm start
    ∃ verdict result status write patch,
      pass.1 = .finished verdict ∧
      (manager.reconcile key).run.run Memory.service .calm start = (.finished result, pass.2) ∧
      (Controller.recorded ⟨0, 0⟩ key result).status = some status ∧
      verdict.write = some write ∧ write.patch = .merge patch ∧
      Resource.decode (document (merge patch stored)) = .ok { key with status := some status } := by
  intro stored key manager start pass
  obtain ⟨verdict, ends⟩ : ∃ verdict, pass.1 = .finished verdict := ⟨_, rfl⟩
  obtain ⟨result, status, write, patch, reconciled, recorded, writes, -, merges, overlays⟩ :=
    Kind.apply_overlays .key ⟨"us-west-2", "000000000000"⟩ 3 {} ⟨0, 0⟩ key ⟨"default", "key"⟩ verdict
      (Prod.ext ends rfl)
  have canonical : stored.Canonical := by
    simp only [stored, Canonical, CanonicalMembers, Ascending]
    decide
  obtain ⟨found, sound⟩ : status.keyId = some "k1" ∧ KeyStatus.record.IsSound status := by
    cases reconciled
    cases recorded
    exact ⟨by decide, KeyStatus.isSound_iff.mpr (by decide)⟩
  obtain ⟨patched, read, -, faithful⟩ := overlays stored key canonical (by decide) rfl sound
  have covers : KeyStatus.record.Covers status { keyId := some "k1" } := by
    simp [Record.Covers, KeyStatus.record, Field.optional, Field.nested, Field.always, Field.listed, found]
  have same := faithful.mpr (by rintro _ ⟨⟩; exact covers)
  rw [same] at read
  exact ⟨verdict, result, status, write, patch, ends, reconciled, recorded, writes, merges, read⟩

/-- A key was pending deletion, and is enabled again when the pass finds it: the status of the pass has no
deletion date, and the one that was stored is still there once the patch has been merged. -/
theorem Kind.apply_keeps_deletionDate :
    let stored : Json := .object [
      ("metadata", .object [("name", .string "key"), ("namespace", .string "default")]),
      ("spec", .object []),
      ("status", .object [
        ("deletionDate", .string "2024-05-01T00:00:00Z"),
        ("keyID", .string "k1"),
        ("keyState", .string "PendingDeletion"),
        ("pendingDeletionWindowInDays", .ofInt 7)])]
    let old : KeyStatus := {
      deletionDate := some ⟨1714521600, 0⟩
      keyId := some "k1"
      keyState := some .pendingDeletion
      pendingDeletionWindowInDays := some 7 }
    let key : Key := ⟨{ name := "key", namespaceName := "default" }, {}, some old⟩
    let manager := Key.manager ⟨"us-west-2", "000000000000"⟩ 3
    let start : Run Memory := { state := ({ config := .numbered } : Memory).seedKey "k1" {} }
    let pass := (Controller.apply {} ⟨0, 0⟩ manager key ⟨"default", "key"⟩).run Memory.service .calm start
    Resource.decode (document stored) = .ok key ∧
    ∃ verdict result status write patch patched,
      pass.1 = .finished verdict ∧
      (manager.reconcile key).run.run Memory.service .calm start = (.finished result, pass.2) ∧
      (Controller.recorded ⟨0, 0⟩ key result).status = some status ∧
      verdict.write = some write ∧ write.patch = .merge patch ∧
      (∀ watch : Controller.Watch Memory, watch.statuses = [] → (watch.send write).1 = true) ∧
      Resource.decode (document (merge patch stored)) = .ok { key with status := some patched } ∧
      status.keyState = some .enabled ∧ status.deletionDate = none ∧
      patched.deletionDate = old.deletionDate ∧ patched ≠ status := by
  intro stored old key manager start pass
  have decoded : Resource.decode (document stored) = .ok key := rfl
  obtain ⟨verdict, ends⟩ : ∃ verdict, pass.1 = .finished verdict := ⟨_, rfl⟩
  have whole : (Controller.apply {} ⟨0, 0⟩ manager key ⟨"default", "key"⟩).run Memory.service .calm start =
      (.finished verdict, pass.2) := Prod.ext ends rfl
  obtain ⟨result, reconciled, rfl⟩ := Controller.apply_finished whole
  have canonical : stored.Canonical := by
    simp only [stored, Canonical, CanonicalMembers, Ascending, Json.ofInt]
    decide
  let status := (Controller.recorded ⟨0, 0⟩ key result).statusOrFresh
  let write := Controller.statusWrite (Controller.recorded ⟨0, 0⟩ key result) ⟨"default", "key"⟩
  obtain ⟨named, enabled, absent, sound⟩ : write.path?.isSome = true ∧ status.keyState = some .enabled ∧
      status.deletionDate = none ∧ KeyStatus.record.IsSound status := by
    cases reconciled
    exact ⟨by decide, by decide, by decide, KeyStatus.isSound_iff.mpr (by decide)⟩
  have merged := Resource.decode_merge_status KeyStatus.record_lawful rfl rfl canonical
    (by decide : stored.HasRecordsAt Kind.key.recordPaths) decoded sound
  have kept : (KeyStatus.overlay status old).deletionDate = old.deletionDate := by
    rw [KeyStatus.overlay, absent]
    rfl
  refine ⟨decoded, _, result, status, write, _, KeyStatus.overlay status old, ends, reconciled,
    Controller.status_recorded _ _ _, rfl, Controller.patch_statusWrite _ _ _ _, ?_, merged, enabled,
    absent, kept, ?_⟩
  · intro watch answered
    obtain ⟨path, found⟩ := Option.isSome_iff_exists.mp named
    rw [Controller.Watch.send, found, answered]
  · intro same
    cases kept.symm.trans ((congrArg KeyStatus.deletionDate same).trans absent)

end KeySteward
