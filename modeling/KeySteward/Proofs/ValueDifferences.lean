import KeySteward.Proofs.SpecDifferences
import Mathlib.Data.Finset.Card

/-! What a delta between any two JSON values says. It is empty exactly between values that are the same
to a comparison, which takes null for an object without members and a member that is null for one that
is missing. Taken the other way round it has the same paths in the same order, with the two values of
each difference exchanged; and between objects it has one difference for each name under which their
values differ. -/

namespace KeySteward

open Json

namespace Json

private theorem beq_symm (a b : Json) : (a == b) = (b == a) :=
  same_symm a b

/-- The value of a member, null where there is none. -/
def valueAt (members : List (String × Json)) (name : String) : Json :=
  (Entries.get? name members).getD null

private theorem valueAt_cons (first name : String) (value : Json) (rest : List (String × Json)) :
    valueAt ((first, value) :: rest) name = if first = name then value else valueAt rest name := by
  simp only [valueAt, Entries.get?]
  split <;> rfl

private theorem valueAt_below {members : List (String × Json)} {name : String}
    (below : ∀ member ∈ members, name < member.1) : valueAt members name = null := by
  rw [valueAt, Entries.get?_eq_none_of_below below]
  rfl

/-- What one object has in the first place and present, the other does not have only greater names than. -/
theorem not_below_of_alike {name : String} {value : Json} {rest others : List (String × Json)}
    (present : value.isNull = false)
    (alike : (valueAt ((name, value) :: rest) name == valueAt others name) = true) :
    ¬ ∀ member ∈ others, name < member.1 := by
  intro below
  rw [valueAt_cons, if_pos rfl, valueAt_below below, beq_null, present] at alike
  cases alike

private theorem below_of_lt_first {name first : String} {value : Json} {rest : List (String × Json)}
    (ascending : Ascending ((first, value) :: rest)) (less : name < first) :
    ∀ member ∈ (first, value) :: rest, name < member.1 := by
  intro member inside
  rcases List.mem_cons.mp inside with rfl | further
  · exact less
  · exact String.lt_trans less ((List.pairwise_cons.mp ascending).1 member further)

private theorem sameMembers_of_alike {a b : List (String × Json)} (left : Ascending a)
    (right : Ascending b)
    (leftPresent : ∀ member ∈ a, member.2.isNull = false)
    (rightPresent : ∀ member ∈ b, member.2.isNull = false)
    (alike : ∀ name, (valueAt a name == valueAt b name) = true) : sameMembers a b = true := by
  induction a generalizing b with
  | nil =>
    cases b with
    | nil => rfl
    | cons other others =>
      have first : other.2.isNull = false := rightPresent other List.mem_cons_self
      have found := alike other.1
      rw [beq_symm] at found
      exact (not_below_of_alike first found nofun).elim
  | cons member rest ih =>
    obtain ⟨k, v⟩ := member
    have first : v.isNull = false := leftPresent _ List.mem_cons_self
    cases b with
    | nil => exact (not_below_of_alike first (alike k) nofun).elim
    | cons other others =>
      obtain ⟨l, w⟩ := other
      have second : w.isNull = false := rightPresent _ List.mem_cons_self
      rcases Std.lt_trichotomy k l with less | rfl | greater
      · exact (not_below_of_alike first (alike k) (below_of_lt_first right less)).elim
      · obtain ⟨above, tail⟩ := List.pairwise_cons.mp left
        obtain ⟨beyond, remaining⟩ := List.pairwise_cons.mp right
        have values : (v == w) = true := by simpa [valueAt_cons] using alike k
        simp only [sameMembers, beq_self_eq_true, Bool.true_and, Bool.and_eq_true]
        refine ⟨values, ih tail remaining ?_ ?_ fun name => ?_⟩
        · exact fun entry inside => leftPresent entry (List.mem_cons_of_mem _ inside)
        · exact fun entry inside => rightPresent entry (List.mem_cons_of_mem _ inside)
        · by_cases same : k = name
          · subst same
            rw [valueAt_below above, valueAt_below beyond]
            rfl
          · simpa [valueAt_cons, same] using alike name
      · have found := alike l
        rw [beq_symm] at found
        exact (not_below_of_alike second found (below_of_lt_first left greater)).elim

private theorem valueAt_present {members : List (String × Json)} (ascending : Ascending members)
    (name : String) :
    valueAt (members.filter fun member => !member.2.isNull) name = valueAt members name := by
  induction members with
  | nil => rfl
  | cons member rest ih =>
    obtain ⟨first, value⟩ := member
    obtain ⟨above, tail⟩ := List.pairwise_cons.mp ascending
    rw [List.filter_cons, valueAt_cons, ← ih tail]
    cases isNull : value.isNull with
    | false => exact valueAt_cons ..
    | true =>
      change valueAt (rest.filter fun member => !member.2.isNull) name = _
      split
      next same =>
        subst same
        cases value <;> cases isNull
        exact valueAt_below fun entry inside => above entry (List.mem_of_mem_filter inside)
      next => rfl

end Json

namespace Difference

def swap (difference : Difference) : Difference :=
  { difference with desired := difference.latest, latest := difference.desired }

end Difference

namespace Delta

variable {desired latest : List (String × Json)}

/-- What a comparison sees of a value: null as an object without members, and an object without those
of its members that are null. -/
def compared : Json → Json
  | .null => .object []
  | .object members => .object (members.filter fun member => !member.2.isNull)
  | value => value

private theorem differenceAt_eq_none_iff {name : String} :
    differenceAt desired latest name = none ↔
      (valueAt desired name == valueAt latest name) = true := by
  simp only [differenceAt, valueAt]
  split
  next same => simp [same]
  next differs => simp [differs]

private theorem mem_names_of_differs {name : String}
    (differs : (valueAt desired name == valueAt latest name) = false) :
    name ∈ names desired latest := by
  rw [mem_names]
  by_contra neither
  simp only [not_or, Option.not_isSome_iff_eq_none] at neither
  rw [valueAt, valueAt, neither.1, neither.2] at differs
  cases differs

private theorem ofMembers_eq_nil_iff :
    ofMembers desired latest = [] ↔
      ∀ name, (valueAt desired name == valueAt latest name) = true := by
  simp only [ofMembers, List.filterMap_eq_nil_iff, differenceAt_eq_none_iff]
  refine ⟨fun alike name => ?_, fun alike name _ => alike name⟩
  by_contra differs
  exact differs (alike name (mem_names_of_differs (Bool.eq_false_iff.mpr differs)))

/-- Nothing differs between two objects when they are the same without their null members. -/
theorem ofMembers_eq_nil_iff_present (left : Ascending desired) (right : Ascending latest) :
    ofMembers desired latest = [] ↔ (compared (.object desired) == compared (.object latest)) = true := by
  have present {members : List (String × Json)} :
      ∀ member ∈ members.filter fun member => !member.2.isNull, member.2.isNull = false :=
    fun member inside => by simpa using List.of_mem_filter inside
  change _ ↔ same (.object _) (.object _) = true
  simp only [ofMembers_eq_nil_iff, same, ← valueAt_present left, ← valueAt_present right]
  exact ⟨sameMembers_of_alike (left.sublist List.filter_sublist) (right.sublist List.filter_sublist)
    present present, sameMembers_get?⟩

/-- The members of what is compared member by member. -/
def fields? : Json → Option (List (String × Json))
  | .null => some []
  | .object members => some members
  | _ => none

private theorem between_eq (a b : Json) :
    between a b = match fields? a, fields? b with
      | some desired, some latest => ofMembers desired latest
      | _, _ => if a == b then [] else [⟨Difference.root, a, b⟩] := by
  cases a <;> cases b <;> rfl

private theorem compared_fields {value : Json} {members : List (String × Json)}
    (found : fields? value = some members) : compared value = compared (.object members) := by
  cases value <;> cases found <;> rfl

private theorem compared_whole {value : Json} (whole : fields? value = none) :
    compared value = value := by
  cases value <;> first | rfl | cases whole

private theorem ascending_fields {value : Json} {members : List (String × Json)}
    (canonical : value.Canonical)
    (found : fields? value = some members) : Ascending members := by
  cases value <;> cases found
  · exact .nil
  · exact canonical.1

private theorem not_same_whole {value whole : Json} {members : List (String × Json)}
    (found : fields? value = some members) (other : fields? whole = none) :
    (value == whole) = false := by
  cases value <;> cases found <;> cases whole <;> first | rfl | cases other

private theorem between_eq_nil_iff {a b : Json} (left : a.Canonical) (right : b.Canonical) :
    between a b = [] ↔ (compared a == compared b) = true := by
  have whole_iff : (if a == b then [] else [Difference.mk Difference.root a b]) = [] ↔
      (a == b) = true := by
    split <;> simp [*]
  rw [between_eq]
  cases foundLeft : fields? a with
  | some desired =>
    rw [compared_fields foundLeft]
    cases foundRight : fields? b with
    | some latest =>
      rw [compared_fields foundRight]
      exact ofMembers_eq_nil_iff_present (ascending_fields left foundLeft)
        (ascending_fields right foundRight)
    | none =>
      have apart : (compared (.object desired) == b) = false := not_same_whole rfl foundRight
      rw [compared_whole foundRight, apart]
      exact whole_iff.trans (by rw [not_same_whole foundLeft foundRight])
  | none =>
    rw [compared_whole foundLeft]
    cases foundRight : fields? b with
    | some latest =>
      have apart : (compared (.object latest) == a) = false := not_same_whole rfl foundLeft
      rw [compared_fields foundRight, beq_symm a (compared _), apart]
      exact whole_iff.trans (by rw [beq_symm, not_same_whole foundRight foundLeft])
    | none =>
      rw [compared_whole foundRight]
      exact whole_iff

private theorem names_comm (desired latest : List (String × Json)) :
    names desired latest = names latest desired := by
  refine (names_ascending desired latest).eq_of_mem_iff (names_ascending latest desired) fun name => ?_
  rw [mem_names, mem_names, or_comm]

private theorem differenceAt_swap (name : String) :
    differenceAt latest desired name = (differenceAt desired latest name).map Difference.swap := by
  simp only [differenceAt]
  rw [beq_symm]
  split <;> rfl

private theorem ofMembers_swap (desired latest : List (String × Json)) :
    ofMembers latest desired = (ofMembers desired latest).map Difference.swap := by
  rw [ofMembers, ofMembers, List.map_filterMap, names_comm]
  exact List.filterMap_congr fun name _ => differenceAt_swap name

private theorem between_swap (a b : Json) : between b a = (between a b).map Difference.swap := by
  rw [between_eq, between_eq, beq_symm b a]
  cases fields? a with
  | none =>
    cases fields? b <;> dsimp only <;> split <;> rfl
  | some desired =>
    cases fields? b with
    | none => dsimp only; split <;> rfl
    | some latest => exact ofMembers_swap desired latest

private theorem length_ofMembers (desired latest : List (String × Json)) :
    (ofMembers desired latest).length =
      (((desired ++ latest).map Prod.fst).toFinset.filter fun name =>
        (valueAt desired name == valueAt latest name) = false).card := by
  have counted : (ofMembers desired latest).length =
      ((names desired latest).filter fun name => !(valueAt desired name == valueAt latest name)).length := by
    rw [ofMembers, List.length_filterMap_eq_countP, List.countP_eq_length_filter]
    congr 1
    refine List.filter_congr fun name _ => ?_
    simp only [differenceAt, valueAt]
    split
    next same => simp [same]
    next differs => simp [differs]
  have distinct := (names_ascending desired latest).nodup.filter
    fun name => !(valueAt desired name == valueAt latest name)
  rw [counted, ← List.toFinset_card_of_nodup distinct, List.toFinset_filter]
  congr 1
  ext name
  simp only [Finset.mem_filter, List.mem_toFinset, Bool.not_eq_true']
  refine and_congr_left fun _ => ?_
  rw [mem_names, Entries.isSome_get?, Entries.isSome_get?, List.map_append, List.mem_append]

/-- Nothing differs between two values exactly if they are the same to a comparison. In the other order
they have the same differences, each the other way round. Two objects differ once for each name under
which their values differ. -/
theorem between_values {a b : Json} (left : a.Canonical) (right : b.Canonical) :
    ((between a b).isEmpty = true ↔ (compared a == compared b) = true) ∧
      between b a = (between a b).map Difference.swap ∧
      ∀ desired latest, a = .object desired → b = .object latest →
        (between a b).length =
          (((desired ++ latest).map Prod.fst).toFinset.filter fun name =>
            (valueAt desired name == valueAt latest name) = false).card := by
  refine ⟨List.isEmpty_iff.trans (between_eq_nil_iff left right), between_swap a b, ?_⟩
  rintro desired latest rfl rfl
  exact length_ofMembers desired latest

/-- A null member makes no difference in the object itself, and one in an object inside it. -/
theorem between_values_nested :
    let a : Json := .object [("a", .null), ("b", .object [("c", .null)]), ("d", .ofInt 1)]
    let b : Json := .object [("b", .object []), ("d", .ofInt 1)]
    a.Canonical ∧ b.Canonical ∧ (between a b).paths = ["Spec.B"] ∧
      (compared a == compared b) = false ∧ (between b a).paths = ["Spec.B"] ∧
      ((["a", "b", "d", "b", "d"].toFinset).filter fun name =>
        ((a.get? name).getD .null == (b.get? name).getD .null) = false).card = 1 := by
  intro a b
  have left : a.Canonical := by
    simp only [a, Canonical, CanonicalMembers, Ascending, Json.ofInt]
    decide
  have right : b.Canonical := by
    simp only [b, Canonical, CanonicalMembers, Ascending, Json.ofInt]
    decide
  obtain ⟨empty, swapped, counted⟩ := between_values left right
  have paths : (between a b).paths = ["Spec.B"] := by decide +kernel
  refine ⟨left, right, paths, ?_, ?_, (counted _ _ rfl rfl).symm.trans ?_⟩
  · refine Bool.eq_false_iff.mpr fun same => ?_
    rw [List.isEmpty_iff.mp (empty.mpr same)] at paths
    cases paths
  · rw [swapped]
    decide +kernel
  · decide +kernel

end Delta

end KeySteward
