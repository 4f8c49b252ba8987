import KeySteward.Tag

/-! Maps and tag maps made from lists. Of several entries under one key the last one counts, so a map
that is made from the list of a map is that map again; and taking off what is not wanted and putting
on what is makes any map the one that is wanted. -/

namespace KeySteward

variable {α β : Type}

namespace Entries

private theorem get?_append (key : String) (front back : List (String × α)) :
    get? key (front ++ back) = (get? key front).or (get? key back) := by
  induction front with
  | nil => rfl
  | cons entry rest ih =>
    simp only [List.cons_append, get?]
    split
    · rfl
    · exact ih

private theorem get?_foldl_insert (key : String) (added sorted : List (String × α)) :
    get? key (added.foldl (fun sorted entry => insert entry.1 entry.2 sorted) sorted) =
      (get? key added.reverse).or (get? key sorted) := by
  induction added generalizing sorted with
  | nil => rfl
  | cons entry rest ih =>
    rw [List.foldl_cons, ih, get?_insert, List.reverse_cons, get?_append, Option.or_assoc]
    congr 1
    simp only [get?]
    split <;> rfl

theorem get?_ofList (key : String) (entries : List (String × α)) :
    get? key (ofList entries) = get? key entries.reverse := by
  rw [ofList, get?_foldl_insert]
  simp [get?]

theorem get?_eq_some_iff {key : String} {value : α} {entries : List (String × α)}
    (distinct : (entries.map Prod.fst).Nodup) :
    get? key entries = some value ↔ (key, value) ∈ entries := by
  refine ⟨mem_of_get?, fun member => ?_⟩
  induction entries with
  | nil => cases member
  | cons entry rest ih =>
    obtain ⟨fresh, others⟩ := List.nodup_cons.mp distinct
    rcases List.mem_cons.mp member with rfl | inside
    · simp [get?]
    · have differ : entry.1 ≠ key := fun same =>
        fresh (List.mem_map.mpr ⟨_, inside, same.symm⟩)
      simp only [get?, differ, if_false]
      exact ih others inside

theorem isSome_get? {key : String} {entries : List (String × α)} :
    (get? key entries).isSome ↔ key ∈ entries.map Prod.fst := by
  induction entries with
  | nil => simp [get?]
  | cons entry rest ih =>
    simp only [get?, List.map_cons, List.mem_cons]
    split
    next same => simp [same]
    next differ => simp [ih, Ne.symm differ]

theorem get?_eq_none_iff {key : String} {entries : List (String × α)} :
    get? key entries = none ↔ key ∉ entries.map Prod.fst := by
  rw [← Option.not_isSome_iff_eq_none, isSome_get?]

theorem get?_reverse {entries : List (String × α)} (distinct : (entries.map Prod.fst).Nodup)
    (key : String) : get? key entries.reverse = get? key entries := by
  have distinct' : (entries.reverse.map Prod.fst).Nodup := by
    rw [List.map_reverse]
    exact (List.reverse_perm _).nodup_iff.mpr distinct
  refine Option.ext fun value => ?_
  rw [get?_eq_some_iff distinct', get?_eq_some_iff distinct, List.mem_reverse]

end Entries

theorem Entries.length_insert_le (key : String) (value : α) (entries : List (String × α)) :
    (insert key value entries).length ≤ entries.length + 1 := by
  induction entries with
  | nil => exact Nat.le_refl _
  | cons entry rest ih =>
    simp only [insert]
    split
    · exact Nat.le_refl _
    · split
      · exact Nat.le_succ _
      · exact Nat.succ_le_succ ih

theorem Ascending.distinct {entries : List (String × α)} (ascending : Ascending entries) :
    (entries.map Prod.fst).Nodup := by
  refine List.pairwise_map.mpr (ascending.imp fun {first second} less same => ?_)
  rw [same] at less
  exact String.lt_irrefl _ less

namespace SortedMap

theorem ofList_entries (map : SortedMap α) : ofList map.entries = map :=
  ext_get? fun key => by
    simp only [get?, ofList]
    rw [Entries.get?_ofList, Entries.get?_reverse map.ascending.distinct]

theorem map_values_insert {map : SortedMap α} {key : String} {old new : α} (f : α → β)
    (held : map.get? key = some old) (same : f new = f old) :
    (map.insert key new).values.map f = map.values.map f := by
  obtain ⟨entries, ascending⟩ := map
  change (Entries.get? key entries) = some old at held
  change ((Entries.insert key new entries).map (·.2)).map f = (entries.map (·.2)).map f
  induction entries with
  | nil => cases held
  | cons entry rest ih =>
    obtain ⟨k, v⟩ := entry
    have order := List.pairwise_cons.mp ascending
    simp only [Entries.insert]
    split
    next below =>
      have absent : Entries.get? key ((k, v) :: rest) = none := by
        refine Entries.get?_eq_none_of_below fun entry member => ?_
        rcases List.mem_cons.mp member with rfl | inside
        · exact below
        · exact String.lt_trans below (order.1 entry inside)
      rw [absent] at held
      cases held
    next =>
      simp only [Entries.get?] at held
      split
      next here =>
        rw [if_pos here] at held
        cases held
        simp only [List.map_cons, same]
      next apart =>
        rw [if_neg apart] at held
        simp only [List.map_cons, ih order.2 held]

private theorem mem_keys {map : SortedMap α} {key : String} : key ∈ map.keys ↔ (map.get? key).isSome :=
  Entries.isSome_get?.symm

theorem get?_eq_some_iff {map : SortedMap α} {key : String} {value : α} :
    map.get? key = some value ↔ (key, value) ∈ map.entries :=
  Entries.get?_eq_some_iff map.ascending.distinct

end SortedMap

namespace TagMap

@[simp] theorem length_toTags (tags : TagMap) : tags.toTags.length = tags.size := by
  simp [toTags, SortedMap.size]

theorem mem_toTags {tags : TagMap} {tag : Tag} :
    tag ∈ tags.toTags ↔ tags.get? tag.key = some tag.value := by
  rw [SortedMap.get?_eq_some_iff]
  constructor
  · intro listed
    obtain ⟨entry, inside, rfl⟩ := List.mem_map.mp listed
    exact inside
  · intro inside
    exact List.mem_map.mpr ⟨_, inside, rfl⟩

theorem ofTags_toTags (tags : TagMap) : ofTags tags.toTags = tags := by
  simp only [ofTags, toTags, List.map_map, Function.comp_def, List.map_id']
  exact tags.ofList_entries

theorem get?_ofTags (tags : List Tag) (key : String) :
    (ofTags tags).get? key = (tags.reverse.find? (·.key == key)).map Tag.value := by
  refine (Entries.get?_ofList key _).trans ?_
  rw [← List.map_reverse]
  induction tags.reverse with
  | nil => rfl
  | cons tag rest ih =>
    rw [List.map_cons, Entries.get?, ih]
    by_cases here : tag.key = key
    · rw [if_pos here, List.find?_cons_of_pos (by simpa using here), Option.map_some]
    · rw [if_neg here, List.find?_cons_of_neg (by simpa using here)]

theorem mem_of_get?_ofTags {tags : List Tag} {key value : String}
    (found : (ofTags tags).get? key = some value) : ⟨key, value⟩ ∈ tags := by
  rw [get?_ofTags] at found
  obtain ⟨tag, last, rfl⟩ := Option.map_eq_some_iff.mp found
  obtain rfl : tag.key = key := by simpa using List.find?_some last
  exact List.mem_reverse.mp (List.mem_of_find?_eq_some last)

theorem isSome_get?_ofTags {tags : List Tag} {key : String} :
    ((ofTags tags).get? key).isSome ↔ ∃ tag ∈ tags, tag.key = key := by
  simp [get?_ofTags]

theorem toTags_injective {a b : TagMap} (same : a.toTags = b.toTags) : a = b := by
  rw [← ofTags_toTags a, same, ofTags_toTags]

theorem get?_insertAll (tags : TagMap) (added : List Tag) (key : String) :
    (tags.insertAll added).get? key = ((ofTags added).get? key).or (tags.get? key) := by
  have read (added : List Tag) : (ofTags added).get? key =
      Entries.get? key (added.map fun tag => (tag.key, tag.value)).reverse :=
    Entries.get?_ofList key _
  rw [read]
  induction added generalizing tags with
  | nil => rfl
  | cons tag rest ih =>
    change (insertAll (tags.insert tag.key tag.value) rest).get? key = _
    rw [ih, SortedMap.get?_insert, List.map_cons, List.reverse_cons, Entries.get?_append,
      Option.or_assoc]
    congr 1
    simp only [Entries.get?]
    split <;> rfl

theorem get?_eraseAll (tags : TagMap) (keys : List String) (key : String) :
    (tags.eraseAll keys).get? key = if key ∈ keys then none else tags.get? key := by
  induction keys generalizing tags with
  | nil => rfl
  | cons first rest ih =>
    change (eraseAll (tags.erase first) rest).get? key = _
    rw [ih, SortedMap.get?_erase]
    by_cases gone : first = key
    · simp [gone]
    · simp [gone, Ne.symm gone]

theorem mem_removedKeys {latest desired : TagMap} {key : String} :
    key ∈ latest.removedKeys desired ↔
      (latest.get? key).isSome ∧ desired.get? key = none := by
  simp [removedKeys, SortedMap.mem_keys, SortedMap.contains]

theorem pairwise_removedKeys (latest desired : TagMap) :
    (latest.removedKeys desired).Pairwise (· < ·) :=
  (List.pairwise_map.mpr latest.ascending).filter _

theorem size_insertAll_le (tags : TagMap) (added : List Tag) :
    (tags.insertAll added).size ≤ tags.size + added.length := by
  induction added generalizing tags with
  | nil => exact Nat.le_refl _
  | cons tag rest ih =>
    have grown : (tags.insert tag.key tag.value).size ≤ tags.size + 1 :=
      Entries.length_insert_le tag.key tag.value tags.entries
    have others := ih (tags.insert tag.key tag.value)
    rw [List.length_cons]
    exact Nat.le_trans others (by omega)

theorem size_eraseAll_le (tags : TagMap) (keys : List String) :
    (tags.eraseAll keys).size ≤ tags.size := by
  induction keys generalizing tags with
  | nil => exact Nat.le_refl _
  | cons key rest ih => exact Nat.le_trans (ih (tags.erase key)) (List.length_filter_le _ _)

/-- Without the tags that are not wanted, a key has those of its tags that are under a wanted key. -/
theorem get?_eraseAll_removedKeys (latest desired : TagMap) (key : String) :
    (latest.eraseAll (latest.removedKeys desired)).get? key =
      if (desired.get? key).isSome then latest.get? key else none := by
  simp only [get?_eraseAll, mem_removedKeys]
  cases wanted : desired.get? key with
  | some value => simp
  | none => cases held : latest.get? key <;> simp

theorem eraseAll_removedKeys_ne {latest desired : TagMap}
    (stale : latest.removedKeys desired ≠ []) :
    latest ≠ latest.eraseAll (latest.removedKeys desired) := by
  obtain ⟨key, member⟩ := List.exists_mem_of_ne_nil _ stale
  intro same
  have gone : latest.get? key = none := by
    rw [same, get?_eraseAll, if_pos member]
  have there := (mem_removedKeys.mp member).1
  rw [gone] at there
  cases there

/-- Without the tags that are not wanted, and with those that are, a key has the tags that are. -/
theorem insertAll_eraseAll (latest desired : TagMap) :
    (latest.eraseAll (latest.removedKeys desired)).insertAll desired.toTags = desired := by
  refine SortedMap.ext_get? fun key => ?_
  rw [get?_insertAll, get?_eraseAll, ofTags_toTags]
  simp only [mem_removedKeys]
  cases wanted : desired.get? key with
  | some value => simp
  | none => cases held : latest.get? key <;> simp

end TagMap

end KeySteward
