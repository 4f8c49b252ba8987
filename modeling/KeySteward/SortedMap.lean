/-! Maps from texts, kept as a list of entries in strictly ascending order of the keys. Texts are
compared by code points, which is also the order of their UTF-8 bytes. The order makes the list a
normal form: `SortedMap.ext_get?` says that two maps with the same look-ups are equal. -/

namespace KeySteward

variable {α β : Type}

/-- Entries in strictly ascending order of their keys. -/
def Ascending (entries : List (String × α)) : Prop :=
  entries.Pairwise fun a b => a.1 < b.1

theorem Ascending.nil : Ascending ([] : List (String × α)) :=
  List.Pairwise.nil

namespace Entries

/-- The value of the first entry under a key. -/
def get? (key : String) : List (String × α) → Option α
  | [] => none
  | (k, v) :: rest => if k = key then some v else get? key rest

/-- Puts a value under a key, in the key's place, instead of the value that is there. -/
def insert (key : String) (value : α) : List (String × α) → List (String × α)
  | [] => [(key, value)]
  | (k, v) :: rest =>
    if key < k then (key, value) :: (k, v) :: rest
    else if k = key then (key, value) :: rest
    else (k, v) :: insert key value rest

def erase (key : String) (entries : List (String × α)) : List (String × α) :=
  entries.filter fun entry => entry.1 != key

/-- The entries in order; of several under one key the last stays. -/
def ofList (entries : List (String × α)) : List (String × α) :=
  entries.foldl (fun sorted entry => insert entry.1 entry.2 sorted) []

theorem get?_insert (key other : String) (value : α) (entries : List (String × α)) :
    get? other (insert key value entries) =
      if key = other then some value else get? other entries := by
  induction entries with
  | nil => simp [insert, get?]
  | cons entry rest ih =>
    obtain ⟨k, v⟩ := entry
    simp only [insert]
    split
    · simp [get?]
    · split
      · rename_i same
        subst same
        by_cases hit : k = other <;> simp [get?, hit]
      · rename_i differ
        by_cases hit : k = other
        · subst hit
          simp [get?, Ne.symm differ]
        · simp [get?, hit, ih]

theorem get?_erase (key other : String) (entries : List (String × α)) :
    get? other (erase key entries) = if key = other then none else get? other entries := by
  induction entries with
  | nil => simp [erase, get?]
  | cons entry rest ih =>
    obtain ⟨k, v⟩ := entry
    simp only [erase] at ih ⊢
    by_cases gone : k = key
    · subst gone
      rw [List.filter_cons_of_neg (by simp), ih, get?]
      split <;> rfl
    · rw [List.filter_cons_of_pos (by simpa using gone), get?, get?, ih]
      split
      · rename_i hit
        rw [if_neg fun same => gone (hit.trans same.symm)]
      · rfl

theorem mem_insert {key : String} {value : α} {entries : List (String × α)}
    {entry : String × α} (member : entry ∈ insert key value entries) :
    entry = (key, value) ∨ entry ∈ entries := by
  induction entries with
  | nil => simpa [insert] using member
  | cons head rest ih =>
    obtain ⟨k, v⟩ := head
    simp only [insert] at member
    split at member
    · simpa using member
    · split at member
      · rcases List.mem_cons.mp member with same | inside
        · exact .inl same
        · exact .inr (List.mem_cons_of_mem _ inside)
      · rcases List.mem_cons.mp member with same | inside
        · exact .inr (by simp [same])
        · exact (ih inside).imp_right (List.mem_cons_of_mem _)

theorem mem_of_get? {key : String} {value : α} {entries : List (String × α)}
    (found : get? key entries = some value) : (key, value) ∈ entries := by
  induction entries with
  | nil => simp [get?] at found
  | cons head rest ih =>
    obtain ⟨k, v⟩ := head
    simp only [get?] at found
    split at found
    · rename_i same
      cases found
      simp [same]
    · exact List.mem_cons_of_mem _ (ih found)

theorem ascending_insert (key : String) (value : α) {entries : List (String × α)}
    (ascending : Ascending entries) : Ascending (insert key value entries) := by
  induction entries with
  | nil => simp [insert, Ascending]
  | cons head rest ih =>
    obtain ⟨k, v⟩ := head
    have above := (List.pairwise_cons.mp ascending).1
    have tail := (List.pairwise_cons.mp ascending).2
    simp only [insert]
    split
    · rename_i less
      refine List.pairwise_cons.mpr ⟨?_, ascending⟩
      intro entry member
      rcases List.mem_cons.mp member with same | inside
      · simpa [same] using less
      · exact String.lt_trans less (above entry inside)
    · rename_i notLess
      split
      · rename_i same
        exact List.pairwise_cons.mpr ⟨fun entry inside => same ▸ above entry inside, tail⟩
      · rename_i differ
        refine List.pairwise_cons.mpr ⟨?_, ih tail⟩
        intro entry member
        rcases mem_insert member with same | inside
        · have le : k ≤ key := String.not_lt.mp notLess
          simp only [same]
          exact Decidable.byContradiction fun notGreater =>
            differ (String.le_antisymm le (String.not_lt.mp notGreater))
        · exact above entry inside

theorem ascending_erase (key : String) {entries : List (String × α)}
    (ascending : Ascending entries) : Ascending (erase key entries) :=
  ascending.sublist List.filter_sublist

theorem ascending_ofList (entries : List (String × α)) : Ascending (ofList entries) := by
  have grow : ∀ (entries sorted : List (String × α)), Ascending sorted →
      Ascending (entries.foldl (fun sorted entry => insert entry.1 entry.2 sorted) sorted) := by
    intro entries
    induction entries with
    | nil => exact fun _ ascending => ascending
    | cons entry rest ih =>
      exact fun sorted ascending => ih _ (ascending_insert entry.1 entry.2 ascending)
  exact grow entries [] List.Pairwise.nil

theorem get?_eq_none_of_below {key : String} {entries : List (String × α)}
    (below : ∀ entry ∈ entries, key < entry.1) : get? key entries = none := by
  induction entries with
  | nil => rfl
  | cons head rest ih =>
    have less := below head (by simp)
    have differ : head.1 ≠ key := fun same => String.lt_irrefl key (same ▸ less)
    simp only [get?, differ, if_false]
    exact ih fun entry member => below entry (List.mem_cons_of_mem _ member)

/-- Ascending entries with the same look-ups are the same list. -/
theorem eq_of_get? {left right : List (String × α)} (leftOrder : Ascending left)
    (rightOrder : Ascending right) (same : ∀ key, get? key left = get? key right) :
    left = right := by
  induction left generalizing right with
  | nil =>
    cases right with
    | nil => rfl
    | cons head rest => simpa [get?] using same head.1
  | cons head rest ih =>
    cases right with
    | nil => simpa [get?] using same head.1
    | cons other others =>
      obtain ⟨k, v⟩ := head
      obtain ⟨l, w⟩ := other
      have leftAbove := (List.pairwise_cons.mp leftOrder).1
      have rightAbove := (List.pairwise_cons.mp rightOrder).1
      have keys : k = l := by
        refine Decidable.byContradiction fun differ => ?_
        rcases String.le_total k l with le | le
        · have less : k < l := Decidable.byContradiction fun not =>
            differ (String.le_antisymm le (String.not_lt.mp not))
          have missing : get? k ((l, w) :: others) = none := get?_eq_none_of_below (by
            intro entry member
            rcases List.mem_cons.mp member with same | inside
            · simpa [same] using less
            · exact String.lt_trans less (rightAbove entry inside))
          have := same k
          simp [get?] at this missing
          simp [missing] at this
        · have less : l < k := Decidable.byContradiction fun not =>
            differ (String.le_antisymm (String.not_lt.mp not) le)
          have missing : get? l ((k, v) :: rest) = none := get?_eq_none_of_below (by
            intro entry member
            rcases List.mem_cons.mp member with same | inside
            · simpa [same] using less
            · exact String.lt_trans less (leftAbove entry inside))
          have := same l
          simp [get?] at this missing
          simp [missing] at this
      subst keys
      have values : v = w := by simpa [get?] using same k
      subst values
      congr 1
      refine ih (List.pairwise_cons.mp leftOrder).2 (List.pairwise_cons.mp rightOrder).2 ?_
      intro key
      have both := same key
      by_cases hit : k = key
      · subst hit
        rw [get?_eq_none_of_below leftAbove, get?_eq_none_of_below rightAbove]
      · simpa [get?, hit] using both

end Entries

/-- A map from texts to `α`. -/
structure SortedMap (α : Type) where
  entries : List (String × α) := []
  ascending : Ascending entries := by exact Ascending.nil

namespace SortedMap

instance : Inhabited (SortedMap α) := ⟨{}⟩

instance [DecidableEq α] : DecidableEq (SortedMap α) := fun a b =>
  if same : a.entries = b.entries then
    isTrue (by cases a; cases b; simp_all)
  else isFalse fun equal => same (congrArg entries equal)

def get? (map : SortedMap α) (key : String) : Option α :=
  Entries.get? key map.entries

def contains (map : SortedMap α) (key : String) : Bool :=
  (map.get? key).isSome

def insert (map : SortedMap α) (key : String) (value : α) : SortedMap α :=
  ⟨Entries.insert key value map.entries, Entries.ascending_insert key value map.ascending⟩

def erase (map : SortedMap α) (key : String) : SortedMap α :=
  ⟨Entries.erase key map.entries, Entries.ascending_erase key map.ascending⟩

/-- Changes the value under a key, if there is one. -/
def modify (map : SortedMap α) (key : String) (change : α → α) : SortedMap α :=
  match map.get? key with
  | some value => map.insert key (change value)
  | none => map

/-- Of several entries under one key the last stays. -/
def ofList (entries : List (String × α)) : SortedMap α :=
  ⟨Entries.ofList entries, Entries.ascending_ofList entries⟩

def toList (map : SortedMap α) : List (String × α) :=
  map.entries

def keys (map : SortedMap α) : List String :=
  map.entries.map (·.1)

def values (map : SortedMap α) : List α :=
  map.entries.map (·.2)

def size (map : SortedMap α) : Nat :=
  map.entries.length

def isEmpty (map : SortedMap α) : Bool :=
  map.entries.isEmpty

@[simp] theorem get?_insert (map : SortedMap α) (key other : String) (value : α) :
    (map.insert key value).get? other = if key = other then some value else map.get? other :=
  Entries.get?_insert key other value map.entries

@[simp] theorem get?_erase (map : SortedMap α) (key other : String) :
    (map.erase key).get? other = if key = other then none else map.get? other :=
  Entries.get?_erase key other map.entries

theorem get?_modify (map : SortedMap α) (key other : String) (change : α → α) :
    (map.modify key change).get? other =
      if key = other then (map.get? other).map change else map.get? other := by
  simp only [modify]
  split
  · rename_i value found
    rw [get?_insert]
    by_cases hit : key = other
    · simp [← hit, found]
    · simp [hit]
  · rename_i missing
    by_cases hit : key = other
    · simp [← hit, missing]
    · simp [hit]

/-- Maps with the same look-ups are equal. -/
theorem ext_get? {a b : SortedMap α} (same : ∀ key, a.get? key = b.get? key) : a = b := by
  have entries := Entries.eq_of_get? a.ascending b.ascending same
  cases a
  cases b
  simp_all

end SortedMap

end KeySteward
