import KeySteward.Proofs.ByteOrder
import KeySteward.Proofs.SpecLayouts

/-! The normal form of a list of tags. Of the tags under one key it has the last one, and it lists the
keys in the order of their bytes, so a list has one normal form, which is the list of the map that is made
from it. Two lists come to the same map when they have the same last tags, in whatever order. -/

namespace KeySteward

open Json

/-- The list has the tag, and no later one under its key. -/
def Tag.IsLast (tag : Tag) (tags : List Tag) : Prop :=
  ∃ front back, tags = front ++ tag :: back ∧ ∀ later ∈ back, later.key ≠ tag.key

namespace TagMap

variable {tags others normal : List Tag}

private theorem get?_ofTags_eq_some_iff {tag : Tag} :
    (ofTags tags).get? tag.key = some tag.value ↔ tag.IsLast tags := by
  rw [get?_ofTags, Option.map_eq_some_iff]
  constructor
  · intro ⟨last, found, same⟩
    obtain ⟨here, back, front, split, differ⟩ := List.find?_eq_some_iff_append.mp found
    obtain rfl : last = tag := by
      cases last
      cases tag
      cases same
      cases beq_iff_eq.mp here
      rfl
    refine ⟨front.reverse, back.reverse, by simpa using congrArg List.reverse split, ?_⟩
    intro later inside
    simpa using differ later (List.mem_reverse.mp inside)
  · intro ⟨front, back, split, differ⟩
    have found : tags.reverse.find? (·.key == tag.key) = some tag := by
      apply List.find?_eq_some_iff_append.mpr
      refine ⟨beq_self_eq_true _, back.reverse, front.reverse, by simp [split], ?_⟩
      intro later inside
      simpa using differ later (List.mem_reverse.mp inside)
    exact ⟨tag, found, rfl⟩

private theorem ordered_toTags (tags : TagMap) :
    tags.toTags.Pairwise fun a b => Text.Utf8.encode a.key < Text.Utf8.encode b.key := by
  refine List.pairwise_map.mpr (tags.ascending.imp fun {first second} less => ?_)
  exact Text.Utf8.encode_lt_iff.mpr less

/-- The tags of the list that no later one replaces, in the order of the bytes of their keys. -/
structure IsNormalForm (normal tags : List Tag) : Prop where
  last : ∀ tag, tag ∈ normal ↔ tag.IsLast tags
  ordered : normal.Pairwise fun a b => Text.Utf8.encode a.key < Text.Utf8.encode b.key

private theorem isNormalForm_toTags (tags : List Tag) : IsNormalForm (ofTags tags).toTags tags where
  last _ := mem_toTags.trans get?_ofTags_eq_some_iff
  ordered := ordered_toTags _

/-- A list in the order of its keys is the list of some map. -/
theorem exists_toTags_eq
    (ordered : normal.Pairwise fun a b => Text.Utf8.encode a.key < Text.Utf8.encode b.key) :
    ∃ map : TagMap, map.toTags = normal := by
  have ascending : Ascending (normal.map fun tag => (tag.key, tag.value)) :=
    List.pairwise_map.mpr (ordered.imp fun less => Text.Utf8.encode_lt_iff.mp less)
  refine ⟨⟨_, ascending⟩, ?_⟩
  simp only [toTags, List.map_map, Function.comp_def, List.map_id']

private theorem isNormalForm_iff : IsNormalForm normal tags ↔ normal = (ofTags tags).toTags := by
  constructor
  · intro form
    obtain ⟨map, rfl⟩ := exists_toTags_eq form.ordered
    apply congrArg toTags
    apply SortedMap.ext_get?
    intro key
    apply Option.ext
    intro value
    have listed := form.last ⟨key, value⟩
    rw [mem_toTags, ← get?_ofTags_eq_some_iff] at listed
    exact listed
  · intro same
    rw [same]
    exact isNormalForm_toTags tags

private theorem ofTags_eq_iff_toTags :
    ofTags tags = ofTags others ↔ (ofTags tags).toTags = (ofTags others).toTags :=
  ⟨congrArg toTags, toTags_injective⟩

/-- Only the last tags count. -/
theorem ofTags_eq_iff_isLast :
    ofTags tags = ofTags others ↔ ∀ tag : Tag, tag.IsLast tags ↔ tag.IsLast others := by
  simp only [← get?_ofTags_eq_some_iff]
  constructor
  · intro same tag
    rw [same]
  · intro same
    exact SortedMap.ext_get? fun key => Option.ext fun value => same ⟨key, value⟩

private theorem isLast_iff_mem (distinct : (tags.map Tag.key).Nodup) {tag : Tag} :
    tag.IsLast tags ↔ tag ∈ tags := by
  constructor
  · intro ⟨front, back, split, _⟩
    simp [split]
  · intro listed
    obtain ⟨front, back, rfl⟩ := List.append_of_mem listed
    refine ⟨front, back, rfl, ?_⟩
    intro later inside same
    rw [List.map_append, List.map_cons] at distinct
    have fresh := (List.nodup_cons.mp (List.nodup_append.mp distinct).2.1).1
    exact fresh (same ▸ List.mem_map_of_mem inside)

private theorem nodup_keys_toTags (tags : TagMap) : (tags.toTags.map Tag.key).Nodup := by
  simpa [toTags, Function.comp_def] using tags.ascending.distinct

private theorem ofTags_of_perm {map : TagMap} (shuffled : tags.Perm map.toTags) : ofTags tags = map := by
  have distinct : (tags.map Tag.key).Nodup :=
    (shuffled.map Tag.key).nodup_iff.mpr map.nodup_keys_toTags
  have form : IsNormalForm map.toTags tags :=
    { last := fun _ => shuffled.mem_iff.symm.trans (isLast_iff_mem distinct).symm
      ordered := map.ordered_toTags }
  exact toTags_injective (isNormalForm_iff.mp form).symm

/-- The order in which the stale keys come off and the wanted tags go on is not to be seen. -/
theorem insertAll_eraseAll_of_perm {latest desired : TagMap} {removed : List String}
    {added : List Tag} (gone : removed.Perm (latest.removedKeys desired))
    (put : added.Perm desired.toTags) : (latest.eraseAll removed).insertAll added = desired := by
  have cleaned : latest.eraseAll removed = latest.eraseAll (latest.removedKeys desired) := by
    refine SortedMap.ext_get? fun key => ?_
    simp only [get?_eraseAll, gone.mem_iff]
  have tagged (tags : TagMap) : tags.insertAll added = tags.insertAll desired.toTags := by
    refine SortedMap.ext_get? fun key => ?_
    rw [get?_insertAll, get?_insertAll, ofTags_of_perm put, ofTags_toTags]
  rw [cleaned, tagged, insertAll_eraseAll]

/-- A list of tags is read as the map that is made from it. Under each of its keys the map has the last
value that the list has there, and under no other. The list of the map is the only normal form of the
list, so two lists make the same map when they have the same normal form, which is when they have the
same last tags; and the list of a map makes that map. One map becomes another when the keys that the
other does not have come off, and all tags of the other go on. -/
theorem lists_normalize :
    (∀ tags : List Tag,
      decode (document (.array (tags.map Tag.toJson))) = .ok (ofTags tags) ∧
      (∀ key value, (ofTags tags).get? key = some value ↔ Tag.IsLast ⟨key, value⟩ tags) ∧
      (∀ key, (ofTags tags).contains key = true ↔ ∃ tag ∈ tags, tag.key = key) ∧
      (ofTags tags).toTags.Pairwise (fun a b => Text.Utf8.encode a.key < Text.Utf8.encode b.key) ∧
      ∀ normal, IsNormalForm normal tags ↔ normal = (ofTags tags).toTags) ∧
    (∀ tags others : List Tag,
      (ofTags tags = ofTags others ↔ (ofTags tags).toTags = (ofTags others).toTags) ∧
      (ofTags tags = ofTags others ↔ ∀ tag : Tag, tag.IsLast tags ↔ tag.IsLast others)) ∧
    (∀ map : TagMap, ofTags map.toTags = map) ∧
    ∀ latest desired : TagMap,
      (latest.removedKeys desired).Pairwise
        (fun a b => Text.Utf8.encode a < Text.Utf8.encode b) ∧
      (∀ key, key ∈ latest.removedKeys desired ↔
        latest.contains key = true ∧ desired.contains key = false) ∧
      ∀ removed added, removed.Perm (latest.removedKeys desired) → added.Perm desired.toTags →
        (latest.eraseAll removed).insertAll added = desired := by
  refine ⟨fun tags => ?_, fun tags others => ⟨ofTags_eq_iff_toTags, ofTags_eq_iff_isLast⟩,
    ofTags_toTags, fun latest desired => ⟨?_, fun key => ?_, fun removed added => ?_⟩⟩
  · refine ⟨decode_tags tags, fun key value => ?_, fun key => isSome_get?_ofTags, ordered_toTags _,
      fun normal => isNormalForm_iff⟩
    exact @get?_ofTags_eq_some_iff tags ⟨key, value⟩
  · exact (pairwise_removedKeys latest desired).imp Text.Utf8.encode_lt_iff.mpr
  · rw [mem_removedKeys, ← Option.not_isSome_iff_eq_none, Bool.not_eq_true]
    rfl
  · exact insertAll_eraseAll_of_perm

/-- Bytes put a code point beyond the first plane last, where units of sixteen bits would not. -/
theorem lists_normalize_shuffled :
    let latest := ofTags [⟨"😀", "1"⟩, ⟨"～", "2"⟩, ⟨"😀", "3"⟩, ⟨"a", "4"⟩]
    let desired := ofTags [⟨"z", "5"⟩, ⟨"a", "6"⟩]
    latest.toTags = [⟨"a", "4"⟩, ⟨"～", "2"⟩, ⟨"😀", "3"⟩] ∧
      ["😀", "～"].Perm (latest.removedKeys desired) ∧
      [⟨"z", "5"⟩, ⟨"a", "6"⟩].Perm desired.toTags ∧
      (latest.eraseAll ["😀", "～"]).insertAll [⟨"z", "5"⟩, ⟨"a", "6"⟩] = desired := by
  intro latest desired
  have stale : ["😀", "～"].Perm (latest.removedKeys desired) := by decide
  have wanted : [⟨"z", "5"⟩, ⟨"a", "6"⟩].Perm desired.toTags := by decide
  obtain ⟨-, -, -, maps⟩ := lists_normalize
  obtain ⟨-, -, becomes⟩ := maps latest desired
  exact ⟨by decide, stale, wanted, becomes _ _ stale wanted⟩

end TagMap

end KeySteward
