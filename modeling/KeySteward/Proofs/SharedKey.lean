import KeySteward.Proofs.Interleavings
import KeySteward.Proofs.KeyUpdates
import KeySteward.Proofs.KeyedCalls

/-! A stored key that two programs bring to one goal. Each part of the key is as it was stored or as it
is wanted, and the tags may in between be those that were stored without the unwanted ones. Whatever
the order of the calls, the key only comes further on this way, so each program has to allow for just
that between its own calls. -/

namespace KeySteward

open Pass (Delivers)

theorem TagMap.removedKeys_self (tags : TagMap) : tags.removedKeys tags = [] := by
  refine List.eq_nil_iff_forall_not_mem.mpr fun name member => ?_
  obtain ⟨there, absent⟩ := mem_removedKeys.mp member
  rw [absent] at there
  cases there

/-- How far a key has come: which of its parts have been made as they are wanted, and whether the
unwanted tags have been taken off. -/
structure Progress where
  policy : Bool := false
  rotation : Bool := false
  cleaned : Bool := false
  tagged : Bool := false

/-- What has been done stays done. -/
structure Progress.Le (before after : Progress) : Prop where
  policy : before.policy = true → after.policy = true
  rotation : before.rotation = true → after.rotation = true
  cleaned : before.cleaned = true → after.cleaned = true
  tagged : before.tagged = true → after.tagged = true

namespace Progress

theorem Le.refl (progress : Progress) : progress.Le progress :=
  ⟨id, id, id, id⟩

theorem Le.trans {first second third : Progress} (before : first.Le second)
    (later : second.Le third) : first.Le third where
  policy done := later.policy (before.policy done)
  rotation done := later.rotation (before.rotation done)
  cleaned done := later.cleaned (before.cleaned done)
  tagged done := later.tagged (before.tagged done)

theorem none_le (progress : Progress) : ({} : Progress).Le progress :=
  ⟨nofun, nofun, nofun, nofun⟩

end Progress

/-- A stored key on its way to a goal with the same metadata, at a service that refuses nothing. -/
structure Journey where
  memory : Memory
  keyId : String
  stored : StoredKey
  goal : StoredKey
  unrefused : memory.refusals = []
  held : memory.key? keyId = some stored
  metadata : goal.metadata = stored.metadata

namespace Journey

variable (journey : Journey)

/-- The tags that were stored, without those that are not wanted. -/
def cleanedTags : TagMap :=
  journey.stored.tags.eraseAll (journey.stored.tags.removedKeys journey.goal.tags)

def tags (progress : Progress) : TagMap :=
  if progress.tagged then journey.goal.tags
  else if progress.cleaned then journey.cleanedTags
  else journey.stored.tags

/-- The key when it has come so far. -/
def key (progress : Progress) : StoredKey where
  metadata := journey.stored.metadata
  rotationEnabled :=
    if progress.rotation then journey.goal.rotationEnabled else journey.stored.rotationEnabled
  policy := if progress.policy then journey.goal.policy else journey.stored.policy
  tags := journey.tags progress

/-- Only the key changes, and it only comes further. -/
def accord : Accord Memory Progress where
  shows progress memory :=
    memory.Matches (journey.memory.withKey journey.keyId (journey.key progress))
  moves _ before after := before.Le after
  refl _ progress := .refl progress
  trans before later := before.trans later

/-- A part of the key is as it is wanted. -/
def Arrived (progress : Progress) : UpdateStep → Prop
  | .policy => (journey.key progress).policy = journey.goal.policy
  | .tags => journey.tags progress = journey.goal.tags
  | .rotation => (journey.key progress).rotationEnabled = journey.goal.rotationEnabled

variable {journey} {before after progress met : Progress}

theorem eq_goal_of_arrived (arrived : ∀ step, journey.Arrived progress step) :
    journey.key progress = journey.goal := by
  have policy := arrived .policy
  have tags := arrived .tags
  have rotation := arrived .rotation
  have metadata := journey.metadata
  simp only [Arrived, key] at policy tags rotation
  simp only [key, policy, tags, rotation, ← metadata]

theorem Arrived.policy_of (found : journey.stored.policy = journey.goal.policy ∨
    progress.policy = true) : journey.Arrived progress .policy := by
  simp only [Arrived, key]
  split
  · rfl
  next undone => exact found.resolve_right undone

theorem Arrived.rotation_of (found : journey.stored.rotationEnabled = journey.goal.rotationEnabled ∨
    progress.rotation = true) : journey.Arrived progress .rotation := by
  simp only [Arrived, key]
  split
  · rfl
  next undone => exact found.resolve_right undone

/-! ### Tags on the way -/

/-- Nothing that is not wanted is on any more. -/
def Clean (journey : Journey) (progress : Progress) : Prop :=
  progress.tagged = true ∨ progress.cleaned = true ∨
    journey.stored.tags.removedKeys journey.goal.tags = []

theorem Clean.mono (clean : journey.Clean before) (onward : before.Le after) :
    journey.Clean after :=
  clean.imp onward.tagged (Or.imp onward.cleaned id)

private theorem get?_cleanedTags (name : String) :
    journey.cleanedTags.get? name =
      if (journey.goal.tags.get? name).isSome then journey.stored.tags.get? name else none := by
  rw [cleanedTags, TagMap.get?_eraseAll]
  simp only [TagMap.mem_removedKeys]
  cases journey.goal.tags.get? name <;> cases journey.stored.tags.get? name <;> simp

theorem insertAll_of_clean (clean : journey.Clean progress) :
    (journey.tags progress).insertAll journey.goal.tags.toTags = journey.goal.tags := by
  have whole := TagMap.insertAll_eraseAll journey.stored.tags journey.goal.tags
  unfold tags
  split
  next =>
    refine SortedMap.ext_get? fun name => ?_
    rw [TagMap.get?_insertAll, TagMap.ofTags_toTags, Option.or_self]
  next untagged =>
    split
    next => exact whole
    next uncleaned =>
      obtain tagged | cleaned | none := clean
      · exact absurd tagged untagged
      · exact absurd cleaned uncleaned
      · rwa [none] at whole

/-- Taking off what is not wanted leaves the key clean; it has to be all of it, while nobody else has
taken it off. -/
theorem eraseAll_tags {stale : List String}
    (unwanted : ∀ name ∈ stale, journey.goal.tags.get? name = none)
    (all : met.cleaned = false → met.tagged = false →
      stale = journey.stored.tags.removedKeys journey.goal.tags) :
    (journey.tags met).eraseAll stale = journey.tags { met with cleaned := true } := by
  unfold tags
  cases tagged : met.tagged with
  | true =>
    refine SortedMap.ext_get? fun name => ?_
    simp only [if_true, TagMap.get?_eraseAll]
    split
    next listed => rw [unwanted name listed]
    next => rfl
  | false =>
    cases cleaned : met.cleaned with
    | true =>
      refine SortedMap.ext_get? fun name => ?_
      simp only [Bool.false_eq_true, if_false, if_true, TagMap.get?_eraseAll]
      split
      next listed => simp [get?_cleanedTags, unwanted name listed]
      next => rfl
    | false =>
      simp only [Bool.false_eq_true, if_false, if_true]
      rw [all cleaned tagged, cleanedTags]

theorem get?_tags_stored (untagged : progress.tagged = false) {name value : String}
    (there : (journey.tags progress).get? name = some value) :
    journey.stored.tags.get? name = some value := by
  simp only [tags, untagged, Bool.false_eq_true, if_false] at there
  split at there
  · rw [get?_cleanedTags] at there
    split at there
    · exact there
    · cases there
  · exact there

theorem cleanedTags_eq (kept : ∀ name value, journey.goal.tags.get? name = some value →
    journey.stored.tags.get? name = some value) : journey.cleanedTags = journey.goal.tags := by
  refine SortedMap.ext_get? fun name => ?_
  rw [get?_cleanedTags]
  cases wanted : journey.goal.tags.get? name with
  | none => rfl
  | some value => simpa using kept name value wanted

/-- The tags are as they are wanted once nothing unwanted is on any more and the wanted ones have been
put on, or were on all the time. -/
theorem arrived_tags_iff : journey.Arrived progress .tags ↔
    journey.Clean progress ∧ (progress.tagged = true ∨ journey.cleanedTags = journey.goal.tags) := by
  simp only [Arrived, tags, Clean]
  cases progress.tagged with
  | true => simp
  | false =>
    cases progress.cleaned with
    | true => simp
    | false =>
      simp only [Bool.false_eq_true, if_false, false_or]
      constructor
      · intro same
        refine ⟨same ▸ TagMap.removedKeys_self _, cleanedTags_eq fun name value wanted => ?_⟩
        rwa [same]
      · rintro ⟨none, same⟩
        rw [← same, cleanedTags, none]
        rfl

theorem key_of_settled (settled : journey.goal = journey.stored) :
    journey.key progress = journey.goal := by
  refine eq_goal_of_arrived fun step => ?_
  cases step with
  | policy => exact .policy_of (.inl (by rw [settled]))
  | rotation => exact .rotation_of (.inl (by rw [settled]))
  | tags =>
    refine arrived_tags_iff.mpr ⟨.inr (.inr ?_), .inr (cleanedTags_eq fun name value there => ?_)⟩
    · rw [settled, TagMap.removedKeys_self]
    · rwa [settled] at there

theorem Arrived.mono {step : UpdateStep} (arrived : journey.Arrived before step)
    (onward : before.Le after) : journey.Arrived after step := by
  cases step with
  | policy =>
    simp only [Arrived, key] at arrived
    refine .policy_of ?_
    split at arrived
    next done => exact .inr (onward.policy done)
    next => exact .inl arrived
  | rotation =>
    simp only [Arrived, key] at arrived
    refine .rotation_of ?_
    split at arrived
    next done => exact .inr (onward.rotation done)
    next => exact .inl arrived
  | tags =>
    obtain ⟨clean, wanted⟩ := arrived_tags_iff.mp arrived
    exact arrived_tags_iff.mpr ⟨clean.mono onward, wanted.imp_left onward.tagged⟩

/-! ### Calls -/

variable {side : Side} {look : Progress} {request : Request} {name : String}

theorem lookup_of_shows {memory : Memory} (shown : journey.accord.shows progress memory)
    (named : journey.memory.lookup name = .ok (journey.keyId, journey.stored)) :
    memory.lookup name = .ok (journey.keyId, journey.key progress) :=
  (shown.lookup name).trans (Memory.lookup_withKey named rfl)

theorem unrefused_of_shows {memory : Memory} (shown : journey.accord.shows progress memory) :
    memory.refusals = [] :=
  shown.refusals.trans journey.unrefused

private theorem shows_after {memory : Memory} (shown : journey.accord.shows progress memory)
    (named : journey.memory.lookup name = .ok (journey.keyId, journey.stored))
    (about : request.IsAbout name) {reached : Progress}
    (same : (journey.key progress).after request = journey.key reached) :
    journey.accord.shows reached (Memory.service.handle request memory).2 := by
  have handled := Memory.handle_about about (unrefused_of_shows shown) (lookup_of_shows shown named)
  have changed := (shown.withKey journey.keyId (journey.key reached))
  rw [Memory.withKey_withKey] at changed
  exact (same ▸ handled).trans changed

theorem ask {answer : Progress → request.Answer} (about : request.IsAbout name)
    (asks : request.isMutating = false)
    (named : journey.memory.lookup name = .ok (journey.keyId, journey.stored))
    (reads : ∀ met memory, journey.accord.shows met memory →
      Memory.Reads True (Pass.call request) (answer met) memory) :
    Delivers Memory.service journey.accord side (Pass.call request)
      (fun result last => ∃ met : Progress, met.Le last ∧ result = answer met) look := by
  refine .call fun met memory _ shown => ?_
  obtain ⟨after, -, yields⟩ := (reads met memory shown).does trivial (.refl memory)
  have handled := Pass.yields_call.mp yields
  have kept : (journey.key met).after request = journey.key met := by
    cases request <;> first | rfl | cases asks
  have shows := shows_after shown named about kept
  rw [handled] at shows
  exact ⟨_, met, after, handled, .refl met, shows, fun last onward => ⟨met, onward, rfl⟩⟩

theorem change {reached : Progress → Progress} (adjusts : request.AdjustsKey journey.keyId)
    (mutates : request.isMutating = true) (answer : request.Answer)
    (further : ∀ met, look.Le met → met.Le (reached met) ∧
      (journey.key met).after request = journey.key (reached met)) :
    Delivers Memory.service journey.accord side (Pass.call request)
      (fun _ last => ∃ met, look.Le met ∧ (reached met).Le last) look := by
  refine .call fun met memory moved shown => ?_
  have named := Memory.lookup_of_key? journey.held
  have held := Memory.key?_of_lookup (lookup_of_shows shown named)
  obtain ⟨after, handled, -⟩ :=
    Memory.handle_adjusts adjusts mutates (unrefused_of_shows shown) held answer
  obtain ⟨onward, same⟩ := further met moved
  have shows := shows_after shown named adjusts.isAbout same
  rw [handled] at shows
  exact ⟨answer, _, after, handled, onward, shows, fun last later => ⟨met, moved, later⟩⟩

theorem further {α : Type} {program : Program α} {ends : Ending α → Progress → Prop}
    (abides : program.Abides Memory.service journey.accord side ends look) :
    program.Abides Memory.service journey.accord side
      (fun ending last => ends ending last ∧ look.Le last) look :=
  abides.onward Progress.Le Progress.Le.trans fun _ _ _ moved => moved

/-- The second part of a sequence begins where the first one has ended, and the key only comes further
from there. -/
theorem bind {α β ε : Type} {pass : ExceptT ε Program α} {next : α → ExceptT ε Program β}
    {first : α → Progress → Prop} {holds : β → Progress → Prop}
    (begins : Delivers Memory.service journey.accord side pass first look)
    (rest : ∀ value middle, first value middle →
      Delivers Memory.service journey.accord side (next value)
        (fun result last => middle.Le last → holds result last) middle) :
    Delivers Memory.service journey.accord side (pass >>= next) holds look := by
  refine .bind begins fun value middle held => ?_
  refine (further (rest value middle held)).mono ?_
  rintro _ last ⟨⟨result, rfl, held⟩, later⟩
  exact ⟨result, rfl, held later⟩

/-- The program ends with the value, and only when the key is at its goal. -/
def Completes {α : Type} (journey : Journey) (side : Side) (program : Program α) (value : α)
    (look : Progress) : Prop :=
  program.Abides Memory.service journey.accord side
    (fun ending last => ending = .finished value ∧ journey.key last = journey.goal) look

theorem Completes.bind_pure {α β : Type} {program : Program α} {next : α → Program β} {value : α}
    {result : β} (completes : journey.Completes side program value look)
    (ends : next value = pure result) :
    journey.Completes side (program >>= next) result look := by
  refine Program.Abides.bind_value completes fun middle arrived => ?_
  rw [ends]
  exact fun last moved => ⟨rfl, arrived last moved⟩

end Journey

end KeySteward
