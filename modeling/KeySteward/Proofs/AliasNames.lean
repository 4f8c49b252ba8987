import KeySteward.Proofs.ImmutableChanges
import KeySteward.Proofs.PageSizes

/-! Names of aliases in two spellings. The service knows an alias by its canonical name only, so a pass
asks for the same calls in whichever way the spec spells the name. It ends in the same failure, or in
resources that differ in nothing but the name. -/

namespace KeySteward

open Pass

namespace AliasSpec

private theorem canonicalName_of_short {name : String} (short : name.startsWith nameStart = false) :
    canonicalName name = nameStart ++ name := by
  simp [canonicalName, short]

private theorem canonicalName_of_full (name : String) :
    canonicalName (nameStart ++ name) = nameStart ++ name := by
  have full : (nameStart ++ name).startsWith nameStart = true := by
    rw [String.startsWith_string_iff, String.toList_append]
    exact List.prefix_append _ _
  exact if_pos full

end AliasSpec

namespace Alias

variable {scope : AccountScope} {pages : Nat} {resource latest : Alias} {spelling : String}

def spell (spelling : String) (resource : Alias) : Alias :=
  { resource with spec := { resource.spec with name := spelling } }

private theorem finalize_search (scope : AccountScope) (pages : Nat) (resource : Alias) :
    (manager scope pages).finalize resource = (do
      match ← (search pages resource.remoteName).result with
      | .ok (some _) => (Pass.call (.deleteAlias resource.remoteName)).deletion
      | .ok none => return
      | .error failure => if failure.isNotFound then return else throw failure) := by
  apply ExceptT.ext
  rw [Manager.run_finalize, run_result_bind]
  change (readOne scope pages resource).run >>= _ = _
  rw [readOne_search, ExceptT.run_bind, bind_assoc]
  refine bind_congr fun result => ?_
  rcases result with failure | _ | entry
  · simp only [pure_bind]
    split <;> rfl
  · rfl
  · rfl

private theorem reconcile_search (scope : AccountScope) (pages : Nat) (resource : Alias) :
    (manager scope pages).reconcile resource = (do
      match ← (search pages resource.remoteName).result with
      | .ok (some entry) => (manager scope pages).sync resource (resource.asFound scope entry)
      | .ok none => create scope resource
      | .error failure =>
        if failure.isNotFound then create scope resource else throw ⟨none, failure⟩) := by
  apply ExceptT.ext
  rw [Manager.run_reconcile, run_result_bind]
  change (readOne scope pages resource).run >>= _ = _
  rw [readOne_search, ExceptT.run_bind, bind_assoc]
  refine bind_congr fun result => ?_
  rcases result with failure | _ | entry
  · simp only [pure_bind]
    split <;> rfl
  · rfl
  · rfl

section Spelling

variable (same : AliasSpec.canonicalName spelling = resource.remoteName)

include same

private theorem remoteName_spell : (spell spelling resource).remoteName = resource.remoteName :=
  same

private theorem create_spell (scope : AccountScope) :
    create scope (spell spelling resource) = spell spelling <$> create scope resource := by
  have target : (spell spelling resource).target? = resource.target? := rfl
  unfold create
  rw [target, remoteName_spell same]
  cases resource.target? with
  | none => rfl
  | some target =>
    simp only [map_bind, map_pure]
    rfl

private theorem sync_spell (scope : AccountScope) (pages : Nat)
    (named : latest.spec.name = resource.spec.name) :
    (manager scope pages).sync (spell spelling resource) (spell spelling latest) =
      spell spelling <$> (manager scope pages).sync resource latest := by
  have target : (spell spelling resource).target? = resource.target? := rfl
  have aimed (other : Alias) :
      (spell spelling other).spec.targetKeyId = other.spec.targetKeyId := rfl
  have renamed : (spell spelling resource).spec.name = (spell spelling latest).spec.name := rfl
  rw [sync_of_same_name named.symm, sync_of_same_name renamed, target, remoteName_spell same, aimed,
    aimed]
  split
  · rfl
  · cases resource.target? with
    | none => rfl
    | some target =>
      simp only [map_bind, map_pure]
      rfl

private theorem reconcile_spell (scope : AccountScope) (pages : Nat) :
    (manager scope pages).reconcile (spell spelling resource) =
      spell spelling <$> (manager scope pages).reconcile resource := by
  rw [reconcile_search, reconcile_search, remoteName_spell same, map_bind]
  refine bind_congr fun result => ?_
  rcases result with failure | _ | entry
  · dsimp only
    split
    · exact create_spell same scope
    · rfl
  · exact create_spell same scope
  · have found : (spell spelling resource).asFound scope entry =
        spell spelling (resource.asFound scope entry) := rfl
    have named : (resource.asFound scope entry).spec.name = resource.spec.name := rfl
    simp only [found]
    exact sync_spell same scope pages named

private theorem finalize_spell (scope : AccountScope) (pages : Nat) :
    (manager scope pages).finalize (spell spelling resource) =
      (manager scope pages).finalize resource := by
  rw [finalize_search, finalize_search, remoteName_spell same]

end Spelling

/-- With `alias/` before its name or without, an alias is managed by the same calls, and they leave the
service, the clock and the records alike. A pass fails alike, or ends in a resource that is the same but
for the spelling of the name. -/
theorem passes_of_either_spelling {σ : Type} {resource : Alias}
    (short : resource.spec.name.startsWith "alias/" = false) (scope : AccountScope) (pages : Nat)
    (service : Service σ) (schedule : Schedule) (run : Run σ) :
    let full := spell ("alias/" ++ resource.spec.name) resource
    let reconciling (resource : Alias) := ((manager scope pages).reconcile resource).run
    let finalizing (resource : Alias) := ((manager scope pages).finalize resource).run
    (reconciling full).exchanges service schedule run =
        (reconciling resource).exchanges service schedule run ∧
      (finalizing full).exchanges service schedule run =
        (finalizing resource).exchanges service schedule run ∧
      (finalizing full).run service schedule run = (finalizing resource).run service schedule run ∧
      let ending := (reconciling resource).run service schedule run
      (reconciling full).run service schedule run =
        (ending.1.map (Except.map (spell ("alias/" ++ resource.spec.name))), ending.2) := by
  intro full reconciling finalizing
  have same : AliasSpec.canonicalName ("alias/" ++ resource.spec.name) = resource.remoteName :=
    (AliasSpec.canonicalName_of_full _).trans (AliasSpec.canonicalName_of_short short).symm
  have finalized : finalizing full = finalizing resource :=
    congrArg ExceptT.run (finalize_spell same scope pages)
  have reconciled : reconciling full =
      Except.map (spell ("alias/" ++ resource.spec.name)) <$> reconciling resource :=
    (congrArg ExceptT.run (reconcile_spell same scope pages)).trans (ExceptT.run_map _ _)
  rw [finalized, reconciled]
  exact ⟨Program.exchanges_map _ _ _, rfl, rfl, Program.run_map _ _ _⟩

/-- A new alias, under a name without `alias/` before it and under the same name with it. -/
theorem passes_of_either_spelling_created :
    let run : Run Memory := { state := Memory.act { config := .numbered } (.seedKey "k1" {}) }
    let passes := manager ⟨"us-west-2", "000000000000"⟩ 2
    let brief : Alias :=
      ⟨{ name := "alias" }, { name := "payments", targetKeyId := some "k1" }, none⟩
    let full : Alias :=
      ⟨{ name := "alias" }, { name := "alias/payments", targetKeyId := some "k1" }, none⟩
    brief.spec.name.startsWith "alias/" = false ∧
      ((passes.reconcile full).run.exchanges Memory.service .calm run).map Exchange.request =
        [.listAliases none, .createAlias "alias/payments" "k1"] ∧
      ∃ settled : Alias,
        ((passes.reconcile brief).run.run Memory.service .calm run).1 = .finished (.ok settled) ∧
        ((passes.reconcile full).run.run Memory.service .calm run).1 =
          .finished (.ok (spell "alias/payments" settled)) ∧ settled.spec = brief.spec := by
  intro run passes brief full
  have short : brief.spec.name.startsWith "alias/" = false := by decide +kernel
  obtain ⟨calls, -, -, ends⟩ := passes_of_either_spelling short ⟨"us-west-2", "000000000000"⟩ 2
    Memory.service .calm run
  have same : spell ("alias/" ++ brief.spec.name) brief = full := rfl
  rw [same] at calls ends
  refine ⟨short, ?_, _, rfl, congrArg Prod.fst ends, rfl⟩
  rw [calls]
  decide +kernel

end Alias

end KeySteward
