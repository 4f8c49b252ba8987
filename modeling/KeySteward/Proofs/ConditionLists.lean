import KeySteward.Proofs.StatusRecords
import Mathlib.Data.List.Induction

/-! Lists of conditions, whoever has written them. A list that writes a JSON value can always be read:
an element that is no condition is passed over, whatever else it is, and of several conditions of one
type the last one counts. What is read is written again with one entry for each type that has one, in
the order of the types. -/

namespace KeySteward

open Json

theorem Json.itemDocuments_eq (items : List Json) : itemDocuments items = items.map document := by
  induction items with
  | nil => rfl
  | cons item rest ih => rw [itemDocuments, ih, List.map_cons]

theorem Json.readable_documents (items : List Json) :
    ∀ item ∈ items.map document, item.value?.isSome := by
  intro part inside
  obtain ⟨item, -, rfl⟩ := List.mem_map.mp inside
  obtain ⟨same, read⟩ := value?_document item
  exact Option.isSome_of_mem read

namespace Conditions

variable {items : List Document} {type : ConditionType} {state : ConditionState}

theorem ofList_concat (list : List Condition) (condition : Condition) :
    ofList (list ++ [condition]) = (ofList list).put condition.type condition.state :=
  List.foldl_append ..

theorem mem_toList {conditions : Conditions} {condition : Condition} :
    condition ∈ conditions.toList ↔ conditions.get? condition.type = some condition.state := by
  have all : condition.type ∈ ConditionType.all := by
    cases condition.type <;> decide
  simp only [toList, List.mem_filterMap, Option.map_eq_some_iff]
  constructor
  · rintro ⟨type, -, state, found, rfl⟩
    exact found
  · intro found
    exact ⟨_, all, _, found, rfl⟩

private theorem types_toList_sublist (conditions : Conditions) :
    (conditions.toList.map Condition.type).Sublist [.terminal, .recoverable, .synced] := by
  obtain ⟨_ | _, _ | _, _ | _⟩ := conditions <;> simp [toList, ConditionType.all, get?]

/-! ### Reading -/

/-- What the element says as a condition of the type, if it is one. -/
def stateAs? (type : ConditionType) (item : Document) : Option ConditionState :=
  match Condition.decode item with
  | .ok condition => if condition.type = type then some condition.state else none
  | .error _ => none

private theorem stateAs?_eq_some_iff {item : Document} :
    stateAs? type item = some state ↔ Condition.decode item = .ok ⟨type, state⟩ := by
  unfold stateAs?
  cases Condition.decode item with
  | error error => simp
  | ok condition =>
    obtain ⟨own, said⟩ := condition
    simp

private theorem stateAs?_eq_none_iff {item : Document} :
    stateAs? type item = none ↔
      ∀ condition, Condition.decode item = .ok condition → condition.type ≠ type := by
  unfold stateAs?
  cases Condition.decode item with
  | error error => simp
  | ok condition => simp

/-- Under a type stands what the last element says that is a condition of the type. -/
theorem get?_ofList_read (items : List Document) (type : ConditionType) :
    (ofList (items.filterMap fun item => (Condition.decode item).toOption)).get? type =
      items.reverse.findSome? (stateAs? type) := by
  induction items using List.reverseRecOn with
  | nil => cases type <;> rfl
  | append_singleton earlier last ih =>
    rw [List.filterMap_append, List.reverse_concat, List.findSome?_cons, stateAs?, ← ih]
    cases read : Condition.decode last with
    | error error => simp [read, Except.toOption]
    | ok condition =>
      have alone : ([last].filterMap fun item => (Condition.decode item).toOption) = [condition] := by
        simp [read, Except.toOption]
      rw [alone, ofList_concat, get?_put]
      dsimp only
      split <;> rfl

theorem decode_documents (readable : ∀ item ∈ items, item.value?.isSome) :
    decode (.array items) =
      .ok (ofList (items.filterMap fun item => (Condition.decode item).toOption)) := by
  have entries : items.mapM entry? = .ok (items.map fun item => (Condition.decode item).toOption) := by
    induction items with
    | nil => rfl
    | cons first rest ih =>
      have present : first.value?.isNone = false := by
        simpa using readable first List.mem_cons_self
      have read : entry? first = .ok (Condition.decode first).toOption := by
        rw [ entry?, present]
        rfl
      rw [List.mapM_cons, read, ih fun item inside => readable item (List.mem_cons_of_mem _ inside)]
      rfl
  have listed : Decode.nullable (Decode.list entry?) (.array items) = .ok (some _) :=
    congrArg (Except.map some) entries
  rw [decode, listed]
  change Except.ok (ofList ((items.map _).filterMap id)) = _
  rw [List.filterMap_map]
  rfl

/-- The element that says the condition is followed by none that is a condition of the same type. -/
def IsLast (items : List Document) (condition : Condition) : Prop :=
  ∃ before item after, items = before ++ item :: after ∧ Condition.decode item = .ok condition ∧
    ∀ later ∈ after, ∀ other, Condition.decode later = .ok other → other.type ≠ condition.type

private theorem findSome?_stateAs?_eq_some_iff :
    items.reverse.findSome? (stateAs? type) = some state ↔ IsLast items ⟨type, state⟩ := by
  rw [List.findSome?_eq_some_iff]
  simp only [stateAs?_eq_some_iff, stateAs?_eq_none_iff]
  constructor
  · rintro ⟨after, item, before, split, said, others⟩
    refine ⟨before.reverse, item, after.reverse, ?_, said, fun later inside => ?_⟩
    · simpa using congrArg List.reverse split
    · exact others later (List.mem_reverse.mp inside)
  · rintro ⟨before, item, after, rfl, said, others⟩
    refine ⟨after.reverse, item, before.reverse, by simp, said, fun later inside => ?_⟩
    exact others later (List.mem_reverse.mp inside)

/-- The conditions are those that a list names, and are written as one. -/
structure AreRead (conditions : Conditions) (items : List Document) : Prop where
  /-- An entry is what the last element says that is a condition of the type under which it stands. -/
  last : ∀ type state, conditions.get? type = some state ↔ IsLast items ⟨type, state⟩
  /-- A type without an entry is one that no element is a condition of. -/
  absent : ∀ type, conditions.get? type = none ↔
    ∀ item ∈ items, ∀ condition, Condition.decode item = .ok condition → condition.type ≠ type
  /-- Every entry is written under the type under which it stands, in the order of the types. -/
  written : ∃ entries : List Condition, conditions.toJson = .array (entries.map Condition.toJson) ∧
    (∀ condition, condition ∈ entries ↔ conditions.get? condition.type = some condition.state) ∧
    (∀ condition ∈ entries, condition.toJson.get? "type" = some (.string condition.type.name)) ∧
    (entries.map Condition.type).Sublist [.terminal, .recoverable, .synced]

private theorem areRead_documents (readable : ∀ item ∈ items, item.value?.isSome) :
    ∃ conditions, decode (.array items) = .ok conditions ∧ conditions.AreRead items := by
  refine ⟨_, decode_documents readable, ?_, ?_, _, rfl, fun _ => mem_toList, fun condition _ => ?_,
    types_toList_sublist _⟩
  · intro type state
    rw [get?_ofList_read, findSome?_stateAs?_eq_some_iff]
  · intro type
    simp only [get?_ofList_read, List.findSome?_eq_none_iff, List.mem_reverse, stateAs?_eq_none_iff]
  · exact get?_record (by simp) "type"

/-- Every array of JSON values is read as a list of conditions, and so is every array as it stands in a
text, where a member may come twice, if its elements write values: under each type is kept what the last
element says that is a condition of it, and nothing else; and it is written in the order of the types. -/
theorem decode_lists :
    (∀ items : List Json, ∃ conditions, decode (document (.array items)) = .ok conditions ∧
      conditions.AreRead (items.map document)) ∧
    ∀ items : List Document, (∀ item ∈ items, item.value?.isSome) →
      ∃ conditions, decode (.array items) = .ok conditions ∧ conditions.AreRead items := by
  refine ⟨fun items => ?_, fun items => areRead_documents⟩
  rw [document, itemDocuments_eq]
  exact areRead_documents (readable_documents items)

/-- What is no condition does not stand in the way of one, before or behind it. -/
example :
    decode (document (.array [
      .ofMembers [("type", .string "Synced"), ("status", .string "False")],
      .ofMembers [("type", .string "Ready"), ("status", .string "True")],
      .ofMembers [("type", .string "Synced"), ("status", .string "True")],
      .ofMembers [("type", .string "Synced")], .array [.string "Synced"], .null])) =
    .ok { synced := some { status := .true } } := by
  rfl

end Conditions

end KeySteward
