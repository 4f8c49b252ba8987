import KeySteward.Double
import KeySteward.SortedMap

/-! JSON values. A value is canonical when the members of every object in it stand in strictly
ascending order of their names; `Json.ofMembers` and `Json.record` build objects in that order. -/

namespace KeySteward

/-- A number is whole, within the range of a signed or an unsigned word of 64 bits, or binary. The
two kinds are never equal. -/
inductive Json.Number where
  | whole (value : Int)
  | double (value : Double)
  deriving DecidableEq

inductive Json where
  | null
  | bool (value : Bool)
  | number (value : Json.Number)
  | string (value : String)
  | array (items : List Json)
  | object (members : List (String × Json))

namespace Json

instance : Inhabited Json := ⟨null⟩

def Number.same : Number → Number → Bool
  | whole a, whole b => a == b
  | double a, double b => a.same b
  | _, _ => false

mutual
/-- Equality of values: numbers are compared as numbers, all else by structure. -/
def same : Json → Json → Bool
  | null, null => true
  | bool a, bool b => a == b
  | number a, number b => a.same b
  | string a, string b => a == b
  | array a, array b => sameItems a b
  | object a, object b => sameMembers a b
  | _, _ => false
def sameItems : List Json → List Json → Bool
  | [], [] => true
  | a :: as, b :: bs => same a b && sameItems as bs
  | _, _ => false
def sameMembers : List (String × Json) → List (String × Json) → Bool
  | [], [] => true
  | (name, a) :: as, (other, b) :: bs => name == other && same a b && sameMembers as bs
  | _, _ => false
end

instance : BEq Json := ⟨same⟩

mutual
/-- Every object in the value lists its members in strictly ascending order of their names. -/
def Canonical : Json → Prop
  | array items => CanonicalItems items
  | object members => Ascending members ∧ CanonicalMembers members
  | _ => True
def CanonicalItems : List Json → Prop
  | [] => True
  | item :: rest => Canonical item ∧ CanonicalItems rest
def CanonicalMembers : List (String × Json) → Prop
  | [] => True
  | (_, value) :: rest => Canonical value ∧ CanonicalMembers rest
end

def isNull : Json → Bool
  | null => true
  | _ => false

def text? : Json → Option String
  | string text => some text
  | _ => none

def flag? : Json → Option Bool
  | bool flag => some flag
  | _ => none

def integer? : Json → Option Int
  | number (.whole value) => some value
  | _ => none

def items? : Json → Option (List Json)
  | array items => some items
  | _ => none

/-- The members of an object. -/
def members? : Json → Option (List (String × Json))
  | object members => some members
  | _ => none

/-- The member of an object under a name. -/
def get? (value : Json) (name : String) : Option Json :=
  value.members?.bind (Entries.get? name)

def ofInt (value : Int) : Json :=
  number (.whole value)

/-- Null for what is missing. -/
def ofOption {α : Type} (value : Option α) (toJson : α → Json) : Json :=
  value.elim null toJson

def ofStrings (texts : List String) : Json :=
  array (texts.map string)

/-- An object of texts. -/
def ofTexts (texts : SortedMap String) : Json :=
  object (texts.entries.map fun entry => (entry.1, string entry.2))

/-- The object with the given members; of several under one name the last stays. -/
def ofMembers (members : List (String × Json)) : Json :=
  object (Entries.ofList members)

/-- The object with those of the given members that are present. -/
def record (members : List (String × Option Json)) : Json :=
  ofMembers (members.filterMap fun member => member.2.map fun value => (member.1, value))

theorem Number.same_refl (a : Number) : same a a = true := by
  cases a <;> simp [same, Double.same_refl]

theorem Number.same_symm (a b : Number) : same a b = same b a := by
  cases a <;> cases b <;> simp [same, Double.same_symm, Bool.beq_comm]

theorem Number.same_trans {a b c : Number} (first : same a b = true) (second : same b c = true) :
    same a c = true := by
  cases a <;> cases b <;> cases c <;> simp_all [same]
  exact Double.same_trans first second

mutual
theorem same_refl : (value : Json) → same value value = true
  | null => rfl
  | bool value => by simp [same]
  | number value => by simp [same, Number.same_refl]
  | string value => by simp [same]
  | array items => by simp [same, sameItems_refl items]
  | object members => by simp [same, sameMembers_refl members]
theorem sameItems_refl : (items : List Json) → sameItems items items = true
  | [] => rfl
  | item :: rest => by simp [sameItems, same_refl item, sameItems_refl rest]
theorem sameMembers_refl : (members : List (String × Json)) → sameMembers members members = true
  | [] => rfl
  | (name, value) :: rest => by simp [sameMembers, same_refl value, sameMembers_refl rest]
end

mutual
theorem same_symm : (a b : Json) → same a b = same b a
  | .null, b => by cases b <;> rfl
  | .bool a, b => by cases b <;> simp [same, Bool.beq_comm]
  | .number a, b => by cases b <;> simp [same, Number.same_symm]
  | .string a, b => by cases b <;> simp [same, Bool.beq_comm]
  | .array as, b => by
    cases b with
    | array bs => simpa only [same] using sameItems_symm as bs
    | _ => rfl
  | .object as, b => by
    cases b with
    | object bs => simpa only [same] using sameMembers_symm as bs
    | _ => rfl
theorem sameItems_symm : (as bs : List Json) → sameItems as bs = sameItems bs as
  | [], bs => by cases bs <;> rfl
  | a :: as, [] => rfl
  | a :: as, b :: bs => by simp only [sameItems, same_symm a b, sameItems_symm as bs]
theorem sameMembers_symm : (as bs : List (String × Json)) → sameMembers as bs = sameMembers bs as
  | [], bs => by cases bs <;> rfl
  | a :: as, [] => rfl
  | (name, a) :: as, (other, b) :: bs => by
    simp only [sameMembers, same_symm a b, sameMembers_symm as bs, Bool.beq_comm (a := name)]
end

mutual
theorem same_trans : (a : Json) → {b c : Json} → same a b = true → same b c = true → same a c = true
  | .null, b, _, first, second => by
    cases b with
    | null => exact second
    | _ => cases first
  | .bool a, b, _, first, second => by
    cases b with
    | bool b =>
      obtain rfl : a = b := beq_iff_eq.mp first
      exact second
    | _ => cases first
  | .number a, b, c, first, second => by
    cases b with
    | number b =>
      cases c with
      | number c => exact Number.same_trans first second
      | _ => cases second
    | _ => cases first
  | .string a, b, _, first, second => by
    cases b with
    | string b =>
      obtain rfl : a = b := beq_iff_eq.mp first
      exact second
    | _ => cases first
  | .array as, b, c, first, second => by
    cases b with
    | array bs =>
      cases c with
      | array cs =>
        simp only [same] at first second ⊢
        exact sameItems_trans as first second
      | _ => cases second
    | _ => cases first
  | .object as, b, c, first, second => by
    cases b with
    | object bs =>
      cases c with
      | object cs =>
        simp only [same] at first second ⊢
        exact sameMembers_trans as first second
      | _ => cases second
    | _ => cases first
theorem sameItems_trans : (as : List Json) → {bs cs : List Json} → sameItems as bs = true →
    sameItems bs cs = true → sameItems as cs = true
  | [], bs, _, first, second => by
    cases bs with
    | nil => exact second
    | cons => cases first
  | a :: as, bs, cs, first, second => by
    cases bs with
    | nil => cases first
    | cons b bs =>
      cases cs with
      | nil => cases second
      | cons c cs =>
        simp only [sameItems, Bool.and_eq_true] at first second ⊢
        exact ⟨same_trans a first.1 second.1, sameItems_trans as first.2 second.2⟩
theorem sameMembers_trans : (as : List (String × Json)) → {bs cs : List (String × Json)} →
    sameMembers as bs = true → sameMembers bs cs = true → sameMembers as cs = true
  | [], bs, _, first, second => by
    cases bs with
    | nil => exact second
    | cons => cases first
  | (name, a) :: as, bs, cs, first, second => by
    cases bs with
    | nil => cases first
    | cons member bs =>
      cases cs with
      | nil => cases second
      | cons last cs =>
        obtain ⟨other, b⟩ := member
        obtain ⟨third, c⟩ := last
        simp only [sameMembers, Bool.and_eq_true, beq_iff_eq] at first second ⊢
        obtain ⟨⟨names, values⟩, members⟩ := first
        refine ⟨⟨names.trans second.1.1, ?_⟩, sameMembers_trans as members second.2⟩
        exact same_trans a values second.1.2
end

instance : EquivBEq Json where
  rfl := same_refl _
  symm first := (same_symm _ _).trans first
  trans := same_trans _

end Json

end KeySteward
