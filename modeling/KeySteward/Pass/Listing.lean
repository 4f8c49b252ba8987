import KeySteward.Pass.Program

/-! Listings, which the service hands out page by page. -/

namespace KeySteward.Pass

variable {α : Type}

/-- The items of a listing from a marker on, through the first page that is enough or else to the
end. At most so many pages are read. -/
def items (fetch : Option String → Pass (Page α)) (enough : List α → Bool) :
    (pages : Nat) → (marker : Option String) → Pass (List α)
  | 0, _ => unfinished
  | pages + 1, marker => do
    let page ← fetch marker
    if enough page.items then return page.items
    match page.next? with
    | none => return page.items
    | some next => return page.items ++ (← items fetch enough pages (some next))

/-- All items of a listing. -/
def all (fetch : Option String → Pass (Page α)) (pages : Nat) : Pass (List α) :=
  items fetch (fun _ => false) pages none

/-- The first item of a listing that satisfies a condition; no page is read behind it. -/
def find (fetch : Option String → Pass (Page α)) (condition : α → Bool) (pages : Nat) :
    Pass (Option α) := do
  return (← items fetch (fun items => items.any condition) pages none).find? condition

end KeySteward.Pass
