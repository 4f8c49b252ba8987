import KeySteward.Proofs.AliasPasses

/-! Where an alias points to behind a pass. Whether it points to the wanted key already is told from how the
target is written, and not from what it stands for. A target that only ends like the key that the alias
points to is therefore taken for it, and one that is written in another way is put on anew by every
pass. -/

namespace KeySteward

open Pass

variable {memory after : Memory} {aliasName target : String}

/-- A name goes on standing for its key when an alias is pointed to that key, also where it is the name
of the alias. -/
theorem KeyStore.resolve?_insertAlias {store : KeyStore} {entry : StoredAlias}
    (stands : store.resolve? target = some entry.targetKeyId) :
    resolve? { store with aliases := store.aliases.insert aliasName entry } target =
      some entry.targetKeyId := by
  simp only [resolve?] at stands ⊢
  split
  next there => rwa [if_pos there] at stands
  next absent =>
    rw [if_neg absent] at stands
    by_cases own : aliasName = target
    · simp [own]
    · simpa [own] using stands

namespace Memory

private theorem resolve?_of_lookup {keyId : String} {key : StoredKey} (keyed : memory.store.IsKeyed)
    (found : memory.lookup target = .ok (keyId, key)) :
    memory.store.resolve? target = some key.metadata.keyId := by
  rw [keyed keyId key (key?_of_lookup found)]
  exact (lookup_eq_ok.mp found).1

end Memory

namespace Alias

variable {scope : AccountScope} {pages : Nat} {desired : Alias}

/-- A pass over an alias that points somewhere already keeps it where it takes that for the target, and
puts the target on anew where it does not. -/
theorem eval_again (scope : AccountScope) (desired : Alias) {stored : StoredAlias}
    (unrefused : memory.refusals = [])
    (counted : memory.store.aliases.size ≤ Text.greatestWord) (room : memory.pageBound ≤ pages)
    (wanted : desired.spec.targetKeyId = some target)
    (held : memory.store.aliases.get? desired.remoteName = some stored)
    (found : isSameTarget target stored.targetKeyId = false →
      desired.target? = some target ∧ ∃ key, memory.lookup target = .ok key) :
    ∃ settled after, ((manager scope pages).reconcile desired).run.eval Memory.service memory =
        (.finished (.ok settled), after) ∧
      after.mutatingCalls = memory.mutatingCalls ++
        if isSameTarget target stored.targetKeyId then []
        else [.updateAlias desired.remoteName target] := by
  have taken : desired.IsTaken memory.store ↔ isSameTarget target stored.targetKeyId = true := by
    simp [IsTaken, wanted, held]
  obtain ⟨result, after, ends, turns⟩ := eval_turns scope desired unrefused counted room
  cases turns with
  | kept kept _ reads =>
    refine ⟨_, _, ends, ?_⟩
    rw [if_pos (taken.mp kept), List.append_nil]
    exact reads.mutatingCalls
  | pointed untaken given _ directs renews =>
    have differs := Bool.eq_false_iff.mpr (untaken ∘ taken.mpr)
    obtain ⟨same, -⟩ := found differs
    cases same.symm.trans given
    have there : memory.store.aliases.contains desired.remoteName = true := by
      simp [SortedMap.contains, held]
    cases renews there
    refine ⟨_, _, ends, ?_⟩
    rw [directs.mutatingCalls, differs]
    rfl
  | failed untaken unfound =>
    obtain ⟨given, key, known⟩ := found (Bool.eq_false_iff.mpr (untaken ∘ taken.mpr))
    exact absurd known (unfound target key given)

private theorem spec_of_turns {settled : Alias} (turns : Turns memory desired (.ok settled) after) :
    settled.spec = desired.spec := by
  cases turns with
  | kept _ same _ => exact same
  | pointed _ _ same => exact same

private theorem bounds_of_turns {result} (turns : Turns memory desired (.ok result) after) :
    after.store.aliases.size ≤ memory.store.aliases.size + 1 ∧
      after.pageBound ≤ memory.pageBound + 1 := by
  cases turns with
  | kept _ _ reads =>
    simp only [Memory.pageBound, reads.store]
    omega
  | pointed _ _ _ directs =>
    obtain ⟨_, _, entry, -, -, stored⟩ := directs.stored
    have grown : (memory.store.aliases.insert desired.remoteName entry).size ≤
        memory.store.aliases.size + 1 := Entries.length_insert_le _ _ _
    simp only [Memory.pageBound, stored]
    omega

/-- Behind a pass that succeeds the alias is there. It points to the key that the target stands for, or
to one that had been taken for it. -/
theorem stored_of_turns {settled : Alias} (keyed : memory.store.IsKeyed)
    (turns : Turns memory desired (.ok settled) after) :
    ∃ target stored, desired.spec.targetKeyId = some target ∧
      after.store.aliases.get? desired.remoteName = some stored ∧
      (after.store.resolve? target = some stored.targetKeyId ↔
        ∀ former, memory.store.aliases.get? desired.remoteName = some former →
          isSameTarget target former.targetKeyId = true →
          memory.store.resolve? target = some former.targetKeyId) ∧
      (isSameTarget target stored.targetKeyId = false →
        desired.target? = some target ∧ after.store.resolve? target = some stored.targetKeyId) := by
  cases turns with
  | kept taken _ reads =>
    obtain ⟨target, stored, wanted, held, written⟩ := taken
    rw [reads.store]
    refine ⟨target, stored, wanted, held, ⟨fun stands former found _ => ?_, fun told => ?_⟩, ?_⟩
    · cases held.symm.trans found
      exact stands
    · exact told stored held written
    · rw [written]
      exact nofun
  | @pointed _ _ target _ untaken given _ directs =>
    obtain ⟨keyId, key, entry, found, points, stored⟩ := directs.stored
    have stands : memory.store.resolve? target = some entry.targetKeyId :=
      points ▸ Memory.resolve?_of_lookup keyed found
    have wanted : desired.spec.targetKeyId = some target := (Option.filter_eq_some_iff.mp given).1
    have kept : after.store.resolve? target = some entry.targetKeyId := by
      rw [stored]
      exact KeyStore.resolve?_insertAlias stands
    refine ⟨target, entry, wanted, by simp [stored], iff_of_true kept ?_, fun _ => ⟨given, kept⟩⟩
    exact fun former held written => absurd ⟨target, former, wanted, held, written⟩ untaken

/-- Where a pass over an alias succeeds, the alias is there, and it points to the key that its target
stands for except where the target has been taken for another key, to which the alias pointed before. A
further pass changes nothing where the target is taken for the key, and otherwise puts it on anew. -/
theorem reconcile_settles_iff (scope : AccountScope) {run last : Run Memory} {desired settled : Alias}
    (reachable : run.state.Reachable) (unrefused : run.state.refusals = []) (free : run.IsFree)
    (counted : run.state.store.aliases.size < Text.greatestWord) (room : run.state.pageBound < pages)
    (settles : ((manager scope pages).reconcile desired).run.run Memory.service .calm run =
      (.finished (.ok settled), last)) :
    ∃ target stored, desired.spec.targetKeyId = some target ∧
      last.state.store.aliases.get? desired.remoteName = some stored ∧
      (last.state.store.resolve? target = some stored.targetKeyId ↔
        ∀ former, run.state.store.aliases.get? desired.remoteName = some former →
          isSameTarget target former.targetKeyId = true →
          run.state.store.resolve? target = some former.targetKeyId) ∧
      ∃ again final, ((manager scope pages).reconcile settled).run.run Memory.service .calm
          { state := last.state } = (.finished (.ok again), final) ∧
        final.state.mutatingCalls = last.state.mutatingCalls ++
          if isSameTarget target stored.targetKeyId then []
          else [.updateAlias desired.remoteName target] := by
  let pass := ((manager scope pages).reconcile desired).run
  obtain ⟨result, after, course, turns⟩ :=
    eval_turns scope desired unrefused counted.le room.le
  have continues : run.state.Continues after := by
    have kept := Memory.eval_continues pass run.state
    rwa [course] at kept
  obtain ⟨reached, begun, rfl⟩ := Program.run_calm_finished course free
  obtain ⟨rfl, rfl⟩ : result = .ok settled ∧ reached = last := by
    cases begun.symm.trans settles
    exact ⟨rfl, rfl⟩
  let second : Run Memory := { state := reached.state }
  have sound : second.state.store.IsSound := by
    have kept := reachable.run pass .calm
    rw [begun] at kept
    exact kept.isSound
  have allowed : second.state.refusals = [] := List.subset_nil.mp (unrefused ▸ continues.refusals)
  have same := spec_of_turns turns
  obtain ⟨listed, paged⟩ := bounds_of_turns turns
  obtain ⟨target, stored, wanted, held, told, differing⟩ :=
    stored_of_turns reachable.isKeyed turns
  have named : remoteName settled = desired.remoteName := by rw [remoteName, same]; rfl
  have aimed : target? settled = desired.target? := by rw [target?, same]; rfl
  -- A target that the further pass puts on is found again: it has been, and the key is still stored.
  have found (differs : isSameTarget target stored.targetKeyId = false) :
      target? settled = some target ∧ ∃ key, second.state.lookup target = .ok key := by
    obtain ⟨given, stands⟩ := differing differs
    obtain ⟨key, there⟩ := sound.holds_of_resolve? stands
    exact ⟨aimed.trans given, _, Memory.lookup_eq_ok.mpr ⟨stands, there⟩⟩
  have listed : second.state.store.aliases.size ≤ Text.greatestWord := Nat.le_trans listed counted
  have paged : second.state.pageBound ≤ pages := Nat.le_trans paged room
  obtain ⟨again, after, course, calls⟩ :=
    eval_again scope settled allowed listed paged (same ▸ wanted) (named ▸ held) found
  obtain ⟨final, ends, rfl⟩ := Program.run_calm_finished course (⟨rfl, rfl⟩ : second.IsFree)
  exact ⟨target, stored, wanted, held, told, again, final, ends, named ▸ calls⟩

/-- A new alias for a key that is given by its ARN. -/
theorem reconcile_settles_iff_created :
    let scope : AccountScope := ⟨"us-west-2", "000000000000"⟩
    let memory := Memory.act { config := .numbered } (.seedKey "k1" {})
    let desired : Alias := ⟨{ name := "alias" },
      { name := "a", targetKeyId := some "arn:aws:kms:us-west-2:000000000000:key/k1" }, none⟩
    ∃ settled last stored again final,
      ((manager scope 2).reconcile desired).run.run Memory.service .calm { state := memory } =
        (.finished (.ok settled), last) ∧
      last.state.store.aliases.get? "alias/a" = some stored ∧ stored.targetKeyId = "k1" ∧
      ((manager scope 2).reconcile settled).run.run Memory.service .calm { state := last.state } =
        (.finished (.ok again), final) ∧ final.state.mutatingCalls = last.state.mutatingCalls := by
  intro scope memory desired
  let run : Run Memory := { state := memory }
  have reachable : run.state.Reachable := (Memory.Reachable.start .numbered).act (.seedKey "k1" {})
  let last := (((manager scope 2).reconcile desired).run.run Memory.service .calm run).2
  obtain ⟨settled, settles⟩ : ∃ settled,
      ((manager scope 2).reconcile desired).run.run Memory.service .calm run =
        (.finished (.ok settled), last) := ⟨_, rfl⟩
  have room : run.state.pageBound < 2 := by decide
  obtain ⟨target, stored, wanted, held, -, again, final, ends, calls⟩ :=
    reconcile_settles_iff scope reachable rfl ⟨rfl, rfl⟩ (by decide) room settles
  have points : (last.state.store.aliases.get? "alias/a").map StoredAlias.targetKeyId = some "k1" := by
    decide
  obtain ⟨entry, known, own⟩ := Option.map_eq_some_iff.mp points
  cases known.symm.trans held
  cases wanted
  have same : isSameTarget "arn:aws:kms:us-west-2:000000000000:key/k1" stored.targetKeyId = true := by
    rw [own]
    decide +kernel
  rw [if_pos same, List.append_nil] at calls
  exact ⟨settled, last, stored, again, final, settles, held, own, ends, calls⟩

/-- The alias `alias/k1` stands for `k2`, but it ends like `k1`, so an alias for `k1` is never pointed
to it. -/
theorem retarget_passed_over :
    let scope : AccountScope := ⟨"us-west-2", "000000000000"⟩
    let memory := (((Memory.act { config := .numbered } (.seedKey "k1" {})).act
      (.seedKey "k2" {})).act (.call (.createAlias "alias/k1" "k2"))).act
      (.call (.createAlias "alias/a" "k1"))
    let desired : Alias :=
      ⟨{ name := "alias" }, { name := "a", targetKeyId := some "alias/k1" }, none⟩
    memory.Reachable ∧ memory.refusals = [] ∧ ∃ settled last,
      ((manager scope 3).reconcile desired).run.run Memory.service .calm { state := memory } =
        (.finished (.ok settled), last) ∧
      (last.state.store.aliases.get? "alias/a").map StoredAlias.targetKeyId = some "k1" ∧
      last.state.store.resolve? "alias/k1" = some "k2" := by
  intro scope memory desired
  let run : Run Memory := { state := memory }
  have reachable : run.state.Reachable :=
    ((((Memory.Reachable.start .numbered).act (.seedKey _ _)).act (.seedKey _ _)).act (.call _)).act
      (.call _)
  have taken : desired.IsTaken run.state.store := ⟨_, _, rfl, rfl, by decide +kernel⟩
  have room : run.state.pageBound ≤ 3 := by decide
  obtain ⟨result, after, course, turns⟩ :=
    eval_turns scope desired rfl (by decide) room
  obtain ⟨last, ends, rfl⟩ := Program.run_calm_finished course (⟨rfl, rfl⟩ : run.IsFree)
  cases turns with
  | kept _ _ reads =>
    refine ⟨reachable, rfl, _, last, ends, ?_, ?_⟩
    · rw [reads.store]
      decide
    · rw [reads.store]
      decide
  | pointed untaken => exact absurd taken untaken
  | failed untaken => exact absurd taken untaken

end Alias

end KeySteward
