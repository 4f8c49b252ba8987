import KeySteward.Proofs.AliasPasses

/-! What becomes of an alias that is given another name in its spec. A pass looks for the alias under
the name that the spec has by then, so what it finds never differs in its name and no name is ever
refused. The alias with the old name stays, and one with the new name is created beside it. -/

namespace KeySteward

open Pass

variable {memory : Memory} {aliasName : String}

namespace Memory

/-- The name of the alias is free, and the key that it is to point to is there. -/
def HasRoomFor (memory : Memory) (resource : Alias) : Prop :=
  memory.store.aliases.contains resource.remoteName = false ∧
    ∃ target keyId key, resource.target? = some target ∧ memory.lookup target = .ok (keyId, key)

/-- One alias may have been pointed to a key or created, and all others are as they were. -/
structure Points (before after : Memory) (aliasName : String) (named : Prop) : Prop where
  others : ∀ other, other ≠ aliasName →
    after.store.aliases.get? other = before.store.aliases.get? other
  named : after.store.aliases.contains aliasName = true ↔
    before.store.aliases.contains aliasName = true ∨ named

namespace Points

variable {before after : Memory} {named : Prop}

private theorem of_same_store (same : after.store = before.store) (unnamed : ¬ named) :
    Points before after aliasName named where
  others _ _ := by rw [same]
  named := by simp [same, unnamed]

private theorem of_insert {entry : StoredAlias}
    (same : after.store.aliases = before.store.aliases.insert aliasName entry)
    (reason : before.store.aliases.contains aliasName = true ∨ named) :
    Points before after aliasName named where
  others other apart := by rw [same, SortedMap.get?_insert, if_neg (Ne.symm apart)]
  named := by simpa [same, SortedMap.contains] using reason

private theorem contains_iff (points : Points before after aliasName named) (other : String) :
    after.store.aliases.contains other = true ↔
      before.store.aliases.contains other = true ∨ other = aliasName ∧ named := by
  by_cases same : other = aliasName
  · subst same
    simpa using points.named
  · simp [SortedMap.contains, points.others other same, same]

end Points

end Memory

namespace Alias

variable {scope : AccountScope} {pages : Nat} {desired latest : Alias}

/-! ### Over any service -/

theorem readOne_endsIn (scope : AccountScope) (pages : Nat) (resource : Alias) :
    EndsIn (fun latest => latest.spec.name = resource.spec.name)
      (fun failure => failure.IsOfCall ∨ failure = .notFound) (readOne scope pages resource) := by
  have searched := (find_strict (fun marker => .call (.listAliases marker))
    (fun entry => entry.aliasName == resource.remoteName) pages).endsIn
  refine (searched.mono fun _ => .inl).bind fun entry? _ => ?_
  cases entry? with
  | none => exact .inr rfl
  | some entry => exact rfl

private theorem sync_endsIn (named : desired.spec.name = latest.spec.name) :
    EndsIn (fun _ => True) (fun failed => failed.failure.IsOfCall ∨ failed.failure = missingTarget)
      ((manager scope pages).sync desired latest) := by
  rw [sync_of_same_name named]
  split
  · trivial
  · split
    · exact .inr rfl
    · exact ((EndsIn.call _).lift.mono fun _ => .inl).bind fun _ _ => trivial

private theorem create_endsIn (scope : AccountScope) (desired : Alias) :
    EndsIn (fun _ => True) (fun failed => failed.failure.IsOfCall ∨ failed.failure = missingTarget)
      (create scope desired) := by
  unfold create
  split
  · exact ((EndsIn.call _).lift.mono fun _ => .inl).bind fun _ _ => trivial
  · exact .inr rfl

/-- The only terminal failure of its own that a pass over an alias has is that its target is missing. -/
theorem reconcile_endsIn (scope : AccountScope) (pages : Nat) (desired : Alias) :
    EndsIn (fun _ => True) (fun failed => failed.failure.IsOfCall ∨ failed.failure = missingTarget)
      ((manager scope pages).reconcile desired) := by
  refine Manager.reconcile_endsIn (readOne_endsIn scope pages desired)
    (fun latest named => sync_endsIn named.symm) (create_endsIn scope desired) ?_
  rintro failure (ofCall | rfl) present
  · exact .inl ofCall
  · cases present

/-! ### Over the service in memory -/

private theorem points_of_turns {after : Memory} {result} (turns : Turns memory desired result after) :
    memory.Points after desired.remoteName (memory.HasRoomFor desired) := by
  have roomless (held : memory.store.aliases.contains desired.remoteName = true) :
      ¬ memory.HasRoomFor desired := fun room => by
    cases room.1.symm.trans held
  cases turns with
  | kept taken _ reads =>
    obtain ⟨_, stored, -, held, -⟩ := taken
    exact .of_same_store reads.store (roomless (by simp [SortedMap.contains, held]))
  | @pointed _ _ target _ _ wanted _ directs =>
    obtain ⟨keyId, key, entry, found, -, stored⟩ := directs.stored
    refine .of_insert (congrArg KeyStore.aliases stored) ?_
    cases held : memory.store.aliases.contains desired.remoteName with
    | true => exact .inl rfl
    | false => exact .inr ⟨held, target, keyId, key, wanted, found⟩
  | failed _ unfound unchanged =>
    refine .of_same_store unchanged ?_
    rintro ⟨-, target, keyId, key, wanted, found⟩
    exact unfound target _ wanted found

/-- A pass adds the name in the spec to the names of the service where there is room for it, and no
other name comes up or goes away. -/
theorem eval_reconcile (scope : AccountScope) (desired : Alias) (unrefused : memory.refusals = [])
    (counted : memory.store.aliases.size ≤ Text.greatestWord) (room : memory.pageBound ≤ pages) :
    ∃ result after, ((manager scope pages).reconcile desired).run.eval Memory.service memory =
        (.finished result, after) ∧
      memory.Points after desired.remoteName (memory.HasRoomFor desired) ∧
      (memory.HasRoomFor desired → ∃ settled, result = .ok settled ∧ settled.spec = desired.spec) := by
  obtain ⟨result, after, ends, turns⟩ := eval_turns scope desired unrefused counted room
  refine ⟨result, after, ends, points_of_turns turns, fun room => ?_⟩
  cases turns with
  | kept _ same => exact ⟨_, rfl, same⟩
  | pointed _ _ same => exact ⟨_, rfl, same⟩
  | failed _ unfound =>
    obtain ⟨-, target, keyId, key, wanted, found⟩ := room
    exact absurd found (unfound target _ wanted)

/-- An alias that is given another name is never refused it. Its name so far stays as it is, and where
the new one is free and the target is there, the pass succeeds and leaves both. -/
theorem rename_adds_name (scope : AccountScope) {run : Run Memory} {oldName : String}
    {stored : StoredAlias} (renamed : Alias) (unrefused : run.state.refusals = []) (free : run.IsFree)
    (held : run.state.store.aliases.get? oldName = some stored)
    (differs : renamed.remoteName ≠ oldName)
    (counted : run.state.store.aliases.size ≤ Text.greatestWord)
    (room : run.state.pageBound ≤ pages) :
    ∃ result last, ((manager scope pages).reconcile renamed).run.run Memory.service .calm run =
        (.finished result, last) ∧
      (∀ failed message, result = .error failed → failed.failure = .terminal message →
        message = "targetKeyID is required") ∧
      last.state.store.aliases.get? oldName = some stored ∧
      (∀ name, last.state.store.aliases.contains name = true ↔
        run.state.store.aliases.contains name = true ∨
          name = renamed.remoteName ∧ run.state.HasRoomFor renamed) ∧
      (run.state.HasRoomFor renamed →
        ∃ settled, result = .ok settled ∧ settled.spec = renamed.spec) := by
  obtain ⟨result, after, course, points, settled⟩ :=
    eval_reconcile scope renamed unrefused counted room
  obtain ⟨last, ends, rfl⟩ := Program.run_calm_finished course free
  refine ⟨result, last, ends, ?_, ?_, points.contains_iff, settled⟩
  · rintro failed message rfl terminal
    rcases (reconcile_endsIn scope pages renamed).run_error ends with ofCall | missing
    · rcases ofCall with (same | same) | ⟨error, same⟩ <;> cases terminal.symm.trans same
    · cases terminal.symm.trans missing
      rfl
  · rw [points.others oldName differs.symm]
    exact held

/-- An alias that a pass has created, renamed while its target is there. -/
theorem rename_adds_name_created :
    let scope : AccountScope := ⟨"us-west-2", "000000000000"⟩
    let spec : AliasSpec := { name := "a", targetKeyId := some "k1" }
    let first := ((manager scope 2).reconcile ⟨{ name := "alias" }, spec, none⟩).run.run
      Memory.service .calm { state := ({ config := .numbered } : Memory).seedKey "k1" {} }
    let renamed : Alias := ⟨{ name := "alias" }, { spec with name := "b" }, some {}⟩
    ∃ result last, ((manager scope 2).reconcile renamed).run.run Memory.service .calm
        { state := first.2.state } = (.finished result, last) ∧
      (∃ settled, result = .ok settled ∧ settled.spec = renamed.spec) ∧
      last.state.store.aliases.contains "alias/a" = true ∧
      last.state.store.aliases.contains "alias/b" = true := by
  intro scope spec first renamed
  let run : Run Memory := { state := first.2.state }
  have created : (run.state.store.aliases.get? "alias/a").isSome = true := by decide
  obtain ⟨stored, held⟩ := Option.isSome_iff_exists.mp created
  have there : run.state.HasRoomFor renamed := ⟨by decide, "k1", "k1", _, by decide, rfl⟩
  have room : run.state.pageBound ≤ 2 := by decide
  obtain ⟨result, last, ends, -, kept, names, settled⟩ :=
    rename_adds_name scope renamed rfl ⟨rfl, rfl⟩ held (by decide) (by decide) room
  refine ⟨result, last, ends, settled there, ?_, (names _).mpr (.inr ⟨by decide, there⟩)⟩
  simp [SortedMap.contains, kept]

/-- A created alias stays behind under its name when the spec gets another one. -/
theorem renamed_alias_left_behind :
    let scope : AccountScope := ⟨"us-west-2", "000000000000"⟩
    let memory := ({ config := .numbered } : Memory).seedKey "k1" {}
    let original : Alias :=
      ⟨{ name := "alias" }, { name := "a", targetKeyId := some "k1" }, none⟩
    memory.Reachable ∧ ∃ created first settled last,
      ((manager scope 2).reconcile original).run.run Memory.service .calm { state := memory } =
        (.finished (.ok created), first) ∧ first.state.store.aliases.keys = ["alias/a"] ∧
      ((manager scope 2).reconcile { created with spec.name := "b" }).run.run Memory.service .calm
        { state := first.state } = (.finished (.ok settled), last) ∧
      last.state.store.aliases.keys = ["alias/a", "alias/b"] := by
  intro scope memory original
  exact ⟨(Memory.Reachable.start _).act (.seedKey "k1" {}), _, _, _, _, rfl, by decide, rfl, by decide⟩

end Alias

end KeySteward
