import KeySteward.Proofs.KeyResumption
import KeySteward.Proofs.SharedKey

/-! What reading and changing a key comes to while another program brings it to the same goal. A listing
that is read while tags are taken off may miss some, but then no unwanted one is left to be found; and
it never shows a wanted tag as unwanted. So just the wanted tags are on in the end. -/

namespace KeySteward

open Pass (Delivers)

variable {journey : Journey} {side : Side} {look last progress : Progress} {name : String}
  {pages : Nat}

def RotationChange.enables : RotationChange → Bool
  | enable => true
  | disable => false

namespace Journey

/-- One thing holds while nobody changes the tags, and another one until the wanted tags are put on. -/
structure Until (whole stored : Prop) (last : Progress) : Prop where
  whole : last.cleaned = false → last.tagged = false → whole
  stored : last.tagged = false → stored

/-- What a listing of the tags from a place on may have shown. It is all there was to show while nobody
changes the tags, and until the wanted ones are put on it shows stored ones only. -/
def Shown (journey : Journey) (start : Nat) (shown : List Tag) : Progress → Prop :=
  Until (shown = journey.stored.tags.toTags.drop start) (shown ⊆ journey.stored.tags.toTags)

/-- The same about the tags as a map. -/
def Listed (journey : Journey) (tags : TagMap) : Progress → Prop :=
  Until (tags = journey.stored.tags) (∀ name value, tags.get? name = some value →
    journey.stored.tags.get? name = some value)

private theorem not_done {done : Progress → Bool} {before after : Progress}
    (stays : done before = true → done after = true) (undone : done after = false) :
    done before = false :=
  Bool.eq_false_iff.mpr fun was => Bool.eq_false_iff.mp undone (stays was)

private theorem toTags_subset_stored {met : Progress} (untagged : met.tagged = false) :
    (journey.tags met).toTags ⊆ journey.stored.tags.toTags := by
  intro tag member
  have there := TagMap.mem_toTags.mp member
  exact TagMap.mem_toTags.mpr (get?_tags_stored untagged there)

theorem Until.mono {whole stored : Prop} {before after : Progress} (found : Until whole stored before)
    (onward : before.Le after) : Until whole stored after where
  whole cleaned tagged :=
    found.whole (not_done onward.cleaned cleaned) (not_done onward.tagged tagged)
  stored untagged := found.stored (not_done onward.tagged untagged)

section Pages

variable {met : Progress} {start : Nat} (begun : met.Le last)

include begun

private theorem page_subset_stored (untagged : last.tagged = false) :
    (journey.memory.page (journey.tags met).toTags start).items ⊆ journey.stored.tags.toTags :=
  fun _ member => toTags_subset_stored (not_done begun.tagged untagged)
    (List.mem_of_mem_take (List.mem_of_mem_drop member))

private theorem tags_of_unchanged (cleaned : last.cleaned = false) (tagged : last.tagged = false) :
    journey.tags met = journey.stored.tags := by
  simp [tags, not_done begun.cleaned cleaned, not_done begun.tagged tagged]

private theorem Shown.of_last_page (ends : ¬ journey.memory.pageEnd (journey.tags met).toTags start <
    (journey.tags met).toTags.length) :
    journey.Shown start (journey.memory.page (journey.tags met).toTags start).items last where
  whole cleaned tagged := by
    rw [Memory.page_items_last ends, tags_of_unchanged begun cleaned tagged]
  stored untagged := page_subset_stored begun untagged

private theorem Shown.of_next_page {others : List Tag}
    (inside : start ≤ (journey.tags met).toTags.length)
    (later : journey.Shown (journey.memory.pageEnd (journey.tags met).toTags start) others last) :
    journey.Shown start
      ((journey.memory.page (journey.tags met).toTags start).items ++ others) last where
  whole cleaned tagged := by
    have same : journey.tags met = journey.stored.tags := tags_of_unchanged begun cleaned tagged
    rw [later.whole cleaned tagged, ← same, Memory.page_items_append inside]
  stored untagged :=
    List.append_subset.mpr ⟨page_subset_stored begun untagged, later.stored untagged⟩

end Pages

private theorem Shown.listed {shown : List Tag} (all : journey.Shown 0 shown last) :
    journey.Listed (.ofTags shown) last where
  whole cleaned tagged := by
    rw [all.whole cleaned tagged, List.drop_zero, TagMap.ofTags_toTags]
  stored untagged name value there := by
    exact TagMap.mem_toTags.mp (all.stored untagged (TagMap.mem_of_get?_ofTags there))

/-- A machine word counts the tags, and a listing has room for them, however far the key has come. -/
def HasRoom (journey : Journey) (pages : Nat) : Prop :=
  ∃ bound, (∀ progress, (journey.tags progress).size ≤ bound) ∧ bound ≤ Text.greatestWord ∧
    bound < pages

theorem HasRoom.of_sizes (counted : journey.stored.tags.size ≤ Text.greatestWord ∧
      journey.goal.tags.size ≤ Text.greatestWord)
    (room : journey.stored.tags.size < pages ∧ journey.goal.tags.size < pages) :
    journey.HasRoom pages := by
  refine ⟨max journey.stored.tags.size journey.goal.tags.size, fun progress => ?_, ?_, ?_⟩
  · have cleaned : journey.cleanedTags.size ≤ journey.stored.tags.size :=
      TagMap.size_eraseAll_le _ _
    unfold tags
    split
    · exact Nat.le_max_right _ _
    · split
      · exact Nat.le_trans cleaned (Nat.le_max_left _ _)
      · exact Nat.le_max_left _ _
  · exact Nat.max_le.mpr counted
  · exact Nat.max_lt.mpr room

section Listing

variable (named : journey.memory.lookup name = .ok (journey.keyId, journey.stored))

include named

private theorem listResourceTags_shared {marker : Option String} {start : Nat}
    (marks : Memory.Marks marker start) (counted : start ≤ Text.greatestWord) :
    Delivers Memory.service journey.accord side (Pass.call (.listResourceTags name marker))
      (fun page last => ∃ met : Progress, met.Le last ∧
        page = journey.memory.page (journey.tags met).toTags start) look := by
  refine ask rfl rfl named fun met memory shown => ?_
  have reads : Memory.Reads True _ _ memory := Memory.listResourceTags_reads
    (fun _ => unrefused_of_shows shown) (lookup_of_shows shown named) marks fun _ => counted
  have same : memory.page (journey.tags met).toTags start =
      journey.memory.page (journey.tags met).toTags start := by
    simp only [Memory.page, shown.config]
    rfl
  rwa [← same]

private theorem items_shared {bound : Nat} (sizes : ∀ progress, (journey.tags progress).size ≤ bound)
    (counted : bound ≤ Text.greatestWord) {marker : Option String} {start : Nat}
    (marks : Memory.Marks marker start) (inside : start ≤ bound) (room : bound - start < pages) :
    Delivers Memory.service journey.accord side
      (Pass.items (fun marker => Pass.call (.listResourceTags name marker)) (fun _ => false) pages
        marker)
      (journey.Shown start) look := by
  induction pages generalizing marker start look with
  | zero => exact absurd room (Nat.not_lt_zero _)
  | succ pages ih =>
    unfold Pass.items
    refine bind (listResourceTags_shared named marks (Nat.le_trans inside counted)) ?_
    rintro _ middle ⟨met, begun, rfl⟩
    simp only [Bool.false_eq_true, if_false, Memory.page_next?]
    by_cases more : journey.memory.pageEnd (journey.tags met).toTags start <
        (journey.tags met).toTags.length
    · have size : (journey.tags met).toTags.length ≤ bound := by simpa using sizes met
      have further : start < journey.memory.pageEnd (journey.tags met).toTags start := by
        simp only [Memory.pageEnd] at more ⊢
        omega
      rw [if_pos more]
      refine bind (ih (.behind _) (by omega) (by omega)) fun others reached shown => ?_
      exact .pure fun last moved onward later => Shown.of_next_page (begun.trans later)
        (by omega) (shown.mono onward)
    · rw [if_neg more]
      exact .pure fun last moved onward => Shown.of_last_page (begun.trans onward) more

theorem list_shared (enough : journey.HasRoom pages) :
    Delivers Memory.service journey.accord side (TagSet.list pages name) journey.Listed look := by
  obtain ⟨bound, sizes, counted, room⟩ := enough
  refine bind (items_shared named sizes counted .first (Nat.zero_le _) room)
    fun shown middle all => ?_
  exact .pure fun last _ onward => Shown.listed (all.mono onward)

theorem observe_shared :
    Delivers Memory.service journey.accord side (Rotation.observe name)
      (fun state last => ∃ met : Progress, met.Le last ∧
        state = .ofStatus (journey.memory.rotationStatus (journey.key met))) look := by
  have asked : Delivers Memory.service journey.accord side (Pass.call (.getKeyRotationStatus name))
      (fun status last => ∃ met : Progress, met.Le last ∧
        status = journey.memory.rotationStatus (journey.key met)) look := by
    refine ask rfl rfl named fun met memory shown => ?_
    have same : memory.rotationStatus (journey.key met) =
        journey.memory.rotationStatus (journey.key met) := by
      simp only [Memory.rotationStatus, shown.rotationStatusUnavailable]
      rfl
    rw [← same]
    exact Memory.getKeyRotationStatus_reads (fun _ => unrefused_of_shows shown)
      (lookup_of_shows shown named)
  refine bind asked ?_
  rintro _ middle ⟨met, begun, rfl⟩
  exact .pure fun last _ onward => ⟨met, begun.trans onward, rfl⟩

theorem getPolicy_shared :
    Delivers Memory.service journey.accord side (Policy.get name)
      (fun policy last => ∃ met : Progress, met.Le last ∧ policy = (journey.key met).policy) look :=
  ask rfl rfl named fun _ _ shown =>
    Policy.get_reads (fun _ => unrefused_of_shows shown) (lookup_of_shows shown named)

theorem describe_shared :
    Delivers Memory.service journey.accord side (Pass.call (.describeKey name))
      (fun metadata _ => metadata = journey.stored.metadata) look := by
  have asked : Delivers Memory.service journey.accord side (Pass.call (.describeKey name))
      (fun metadata last => ∃ met : Progress, met.Le last ∧
        metadata = (journey.key met).metadata) look :=
    ask rfl rfl named fun _ _ shown =>
      Memory.describeKey_reads (fun _ => unrefused_of_shows shown) (lookup_of_shows shown named)
  exact asked.mono fun _ _ ⟨_, _, same⟩ => same

end Listing

/-! ### Changes -/

private theorem apply_shared (clean : journey.Clean look) :
    Delivers Memory.service journey.accord side (TagSet.apply journey.keyId journey.goal.tags)
      (fun _ last => journey.Arrived last .tags) look := by
  unfold TagSet.apply
  split
  next =>
    have added : Delivers Memory.service journey.accord side
        (Pass.call (.tagResource journey.keyId journey.goal.tags.toTags))
        (fun _ last => ∃ met, look.Le met ∧ ({ met with tagged := true } : Progress).Le last) look := by
      refine change rfl rfl () fun met onward => ⟨⟨id, id, id, fun _ => rfl⟩, ?_⟩
      have same := insertAll_of_clean (clean.mono onward)
      simp only [StoredKey.after, key, same]
      rfl
    refine added.mono ?_
    rintro _ last ⟨met, -, later⟩
    have tagged : last.tagged = true := later.tagged rfl
    simp only [Arrived, tags, tagged, if_true]
  next none =>
    refine .pure fun last onward => ?_
    have empty : journey.goal.tags.toTags = [] := by
      simpa [TagMap.toTags, SortedMap.isEmpty] using none
    have same := insertAll_of_clean (clean.mono onward)
    rwa [empty] at same

/-- The unwanted tags that a listing shows are taken off, and there are no others left to take off. -/
theorem reconcileTags_shared (enough : journey.HasRoom pages) :
    Delivers Memory.service journey.accord side
      (TagSet.reconcile pages journey.keyId journey.goal.tags)
      (fun _ last => journey.Arrived last .tags) look := by
  have named := Memory.lookup_of_key? journey.held
  refine bind (list_shared named enough) fun latest middle listed => ?_
  let stale := latest.removedKeys journey.goal.tags
  have arrive {reached : Progress} (clean : journey.Clean reached) :
      Delivers Memory.service journey.accord side (TagSet.apply journey.keyId journey.goal.tags)
        (fun _ last => middle.Le last → journey.Arrived last .tags) reached :=
    (apply_shared clean).mono fun _ _ arrived _ => arrived
  change Delivers _ _ _ (if !stale.isEmpty then _ else _ : Pass Unit) _ _
  split
  next =>
    have erased : Delivers Memory.service journey.accord side
        (Pass.call (.untagResource journey.keyId stale))
        (fun _ last => ∃ met, middle.Le met ∧ ({ met with cleaned := true } : Progress).Le last)
        middle := by
      refine change rfl rfl () fun met onward => ⟨⟨id, id, fun _ => rfl, id⟩, ?_⟩
      have unwanted : ∀ name ∈ stale, journey.goal.tags.get? name = none :=
        fun name member => (TagMap.mem_removedKeys.mp member).2
      have all (cleaned : met.cleaned = false) (tagged : met.tagged = false) :
          stale = journey.stored.tags.removedKeys journey.goal.tags := by
        simp only [stale, (listed.mono onward).whole cleaned tagged]
      simp only [StoredKey.after, key, eraseAll_tags unwanted all]
    refine .bind erased ?_
    rintro _ reached ⟨met, -, later⟩
    exact arrive (.inr (.inl (later.cleaned rfl)))
  next none =>
    refine arrive ?_
    have clean : stale = [] := by simpa using none
    cases cleaned : middle.cleaned with
    | true => exact .inr (.inl cleaned)
    | false =>
      cases tagged : middle.tagged with
      | true => exact .inl tagged
      | false =>
        refine .inr (.inr ?_)
        rw [← listed.whole cleaned tagged]
        exact clean

private theorem applyRotation_shared {turn : RotationChange}
    (wanted : journey.goal.rotationEnabled = turn.enables) :
    Delivers Memory.service journey.accord side (turn.apply journey.keyId)
      (fun _ last => journey.Arrived last .rotation) look := by
  have turned : Delivers Memory.service journey.accord side (turn.apply journey.keyId)
      (fun _ last => ∃ met, look.Le met ∧ ({ met with rotation := true } : Progress).Le last)
      look := by
    cases turn with
    | enable =>
      refine change rfl rfl () fun met onward => ⟨⟨id, fun _ => rfl, id, id⟩, ?_⟩
      simp only [StoredKey.after, key, wanted, if_true]
      rfl
    | disable =>
      refine change rfl rfl () fun met onward => ⟨⟨id, fun _ => rfl, id, id⟩, ?_⟩
      simp only [StoredKey.after, key, wanted, if_true]
      rfl
  refine turned.mono ?_
  rintro _ last ⟨met, -, later⟩
  exact .rotation_of (.inr (later.rotation rfl))

theorem reconcileRotation_shared {desired : Option Bool}
    (wanted : journey.goal.rotationEnabled =
      if journey.memory.rotationStatusUnavailable then journey.stored.rotationEnabled
      else desired.getD false) :
    Delivers Memory.service journey.accord side (Rotation.reconcile journey.keyId desired)
      (fun _ last => journey.Arrived last .rotation) look := by
  refine bind (observe_shared (Memory.lookup_of_key? journey.held)) ?_
  rintro _ middle ⟨met, begun, rfl⟩
  cases unavailable : journey.memory.rotationStatusUnavailable with
  | true =>
    simp only [unavailable, if_true] at wanted
    simp only [Memory.rotationStatus, unavailable, if_true]
    exact .pure fun last _ _ => .rotation_of (.inl wanted.symm)
  | false =>
    simp only [unavailable, Bool.false_eq_true, if_false] at wanted
    simp only [Memory.rotationStatus, unavailable, Bool.false_eq_true, if_false]
    have plan := RotationChange.plan?_spec desired (journey.key met).rotationEnabled
    rw [← wanted] at plan
    cases planned : RotationChange.plan? desired
        (.ofStatus (some (journey.key met).rotationEnabled)) with
    | none =>
      rw [planned] at plan
      have arrived : journey.Arrived met .rotation := plan.symm
      exact .pure fun last _ onward => arrived.mono (begun.trans onward)
    | some turn =>
      rw [planned] at plan
      have turned : journey.goal.rotationEnabled = turn.enables := by
        cases turn
        · exact plan
        · exact plan
      refine bind (applyRotation_shared turned) fun _ reached arrived => ?_
      exact .pure fun last _ later _ => arrived.mono later

theorem putPolicy_shared {policy : String} (wanted : journey.goal.policy = some policy)
    (bypass : Option Bool) :
    Delivers Memory.service journey.accord side (Policy.put journey.keyId policy bypass)
      (fun _ last => journey.Arrived last .policy) look := by
  have put : Delivers Memory.service journey.accord side (Policy.put journey.keyId policy bypass)
      (fun _ last => ∃ met, look.Le met ∧ ({ met with policy := true } : Progress).Le last) look := by
    refine change rfl rfl () fun met onward => ⟨⟨fun _ => rfl, id, id, id⟩, ?_⟩
    simp only [StoredKey.after, key, wanted, if_true]
    rfl
  refine put.mono ?_
  rintro _ last ⟨met, -, later⟩
  exact .policy_of (.inr (later.policy rfl))

end Journey

end KeySteward
