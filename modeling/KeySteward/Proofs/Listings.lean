import KeySteward.Pass.Listing
import KeySteward.Proofs.MemoryCalls

/-! Listings of the service in memory. A page ends behind the place where it starts, and its marker
is read as the place where it ends; so the pages that are read one after the other are the listing. A
reading may stop at a page that is enough for it, and finds in what it has read what it would have
found in the whole. -/

namespace KeySteward

/-- What a reading of a listing ends with: the whole, or what goes through a page that is enough. -/
inductive Pass.Through {α : Type} (enough : List α → Bool) : (listed items : List α) → Prop where
  | whole (listed : List α) : Through enough listed listed
  | stopped {page : List α} (full : enough page = true) (rest : List α) :
      Through enough (page ++ rest) page
  | onward (page : List α) {rest items : List α} (later : Through enough rest items) :
      Through enough (page ++ rest) (page ++ items)

namespace Pass.Through

variable {α : Type} {listed items : List α}

theorem eq_of_never (through : Through (fun _ => false) listed items) : items = listed := by
  induction through with
  | whole => rfl
  | stopped full => cases full
  | onward page later ih => rw [ih]

/-- Where a page is enough that has what is looked for, it is found as in the whole listing. -/
theorem find?_eq {condition : α → Bool}
    (through : Through (fun items => items.any condition) listed items) :
    items.find? condition = listed.find? condition := by
  induction through with
  | whole => rfl
  | stopped full rest =>
    obtain ⟨item, member, holds⟩ := List.any_eq_true.mp full
    obtain ⟨found, held⟩ := Option.isSome_iff_exists.mp
      (List.find?_isSome.mpr ⟨item, member, holds⟩)
    rw [List.find?_append, held, Option.some_or]
  | onward page later ih => rw [List.find?_append, List.find?_append, ih]

end Pass.Through

namespace Memory

variable {α : Type} {memory : Memory} {all : List α} {start : Nat} {marker : Option String}

def pageEnd (memory : Memory) (all : List α) (start : Nat) : Nat :=
  min (start + max memory.config.pageSize 1) all.length

/-- The markers that a reading comes upon, each with the place that it stands for. -/
inductive Marks : Option String → Nat → Prop where
  | first : Marks none 0
  | behind (start : Nat) : Marks (some (toString start)) start

namespace Marks

private theorem startOf_ok (marks : Marks marker start) (counted : start ≤ Text.greatestWord) :
    startOf marker = .ok start := by
  cases marks with
  | first => rfl
  | behind => simp only [startOf, marker?, Text.unsigned?_toString, if_pos counted]

private theorem eq_of_startOf (marks : Marks marker start) {place : Nat}
    (read : startOf marker = .ok place) :
    place = start := by
  cases marks with
  | first => exact (Except.ok.inj read).symm
  | behind =>
    by_cases counted : start ≤ Text.greatestWord
    · rw [(behind start).startOf_ok counted] at read
      exact (Except.ok.inj read).symm
    · simp only [startOf, marker?, Text.unsigned?_toString, if_neg counted] at read
      cases read

theorem lenient (marks : Marks marker start) (counted : start ≤ Text.greatestWord) :
    (marker.bind marker?).getD 0 = start := by
  cases marks with
  | first => rfl
  | behind =>
    simp only [Option.bind_some, marker?, Text.unsigned?_toString, if_pos counted, Option.getD_some]

end Marks

theorem page_next? (memory : Memory) (all : List α) (start : Nat) :
    (memory.page all start).next? =
      if memory.pageEnd all start < all.length then some (toString (memory.pageEnd all start))
      else none := by
  by_cases more : memory.pageEnd all start < all.length
  · simp only [page, Page.next?, ← pageEnd.eq_def, more, decide_true, if_true]
  · simp only [page, Page.next?, ← pageEnd.eq_def, more, decide_false, Bool.false_eq_true, if_false]

theorem ReadOnly.page {reached : Memory} (read : memory.ReadOnly reached) (all : List α)
    (start : Nat) : reached.page all start = memory.page all start := by
  simp only [Memory.page, read.continues.config]

private theorem le_pageEnd (inside : start ≤ all.length) : start ≤ memory.pageEnd all start := by
  simp only [pageEnd]
  omega

theorem page_items_append (inside : start ≤ all.length) :
    (memory.page all start).items ++ all.drop (memory.pageEnd all start) = all.drop start := by
  change (all.take (memory.pageEnd all start)).drop start ++ _ = _
  have behind : start ≤ memory.pageEnd all start := le_pageEnd inside
  generalize memory.pageEnd all start = stop at behind
  calc
    (all.take stop).drop start ++ all.drop stop
    _ = (all.take stop ++ all.drop stop).drop start := by
      rw [List.drop_append_of_le_length (by simp only [List.length_take]; omega)]
    _ = all.drop start := by rw [List.take_append_drop]

theorem page_items_last (last : ¬ memory.pageEnd all start < all.length) :
    (memory.page all start).items = all.drop start := by
  have whole : all.take (memory.pageEnd all start) = all := List.take_of_length_le (by omega)
  change (all.take (memory.pageEnd all start)).drop start = _
  rw [whole]

private theorem startOf_error {error : ServiceError}
    (refused : startOf marker = .error (.refused error)) : error.isNotFound = false := by
  unfold startOf at refused
  split at refused
  · cases refused
  · split at refused
    · cases refused
    · cases refused
      rfl

def listing (memory : Memory) (name : String) (marker : Option String)
    (listed : StoredKey → List α) : Except Fault (Page α × Memory) := do
  let (_, key) ← memory.lookup name
  return (memory.page (listed key) (← startOf marker), memory)

section Listing

variable {name keyId : String} {key : StoredKey} {listed : StoredKey → List α}
variable (found : memory.lookup name = .ok (keyId, key)) (marks : Marks marker start)

include found marks

theorem listing_sole {page : Page α} {after : Memory}
    (done : memory.listing name marker listed = .ok (page, after)) :
    page = memory.page (listed key) start := by
  simp only [listing, bind_eq_ok] at done
  obtain ⟨_, held, place, begins, same⟩ := done
  cases held.symm.trans found
  cases same
  rw [marks.eq_of_startOf begins]

theorem listing_ok (counted : start ≤ Text.greatestWord) :
    memory.listing name marker listed = .ok (memory.page (listed key) start, memory) := by
  simp only [listing, found, marks.startOf_ok counted]
  rfl

omit marks in
theorem listing_refused {error : ServiceError}
    (refused : memory.listing name marker listed = .error (.refused error)) :
    error.isNotFound = false := by
  simp only [listing, found] at refused
  change (startOf marker >>= _) = _ at refused
  cases begins : startOf marker with
  | ok start =>
    rw [begins] at refused
    cases refused
  | error fault =>
    rw [begins] at refused
    cases refused
    exact startOf_error begins

end Listing

private theorem le_foldr_of_mem (size : α → Nat) {items : List α} {item : α}
    (member : item ∈ items) : size item ≤ items.foldr (fun item total => size item + total) 0 := by
  induction items with
  | nil => cases member
  | cons first rest ih =>
    rw [List.foldr_cons]
    rcases List.mem_cons.mp member with rfl | inside
    · omega
    · have within := ih inside
      omega

/-- No key has as many tags as a listing may have pages. -/
theorem tags_lt_pageBound {keyId : String} {stored : StoredKey}
    (held : memory.key? keyId = some stored) : stored.tags.size < memory.pageBound := by
  have listed : stored ∈ memory.store.keys.values :=
    List.mem_map.mpr ⟨_, Entries.mem_of_get? held, rfl⟩
  have bound : stored.tags.size ≤
      memory.store.keys.values.foldr (fun key tags => key.tags.size + tags) 0 :=
    le_foldr_of_mem (fun key => key.tags.size) listed
  simp only [pageBound]
  omega

theorem aliases_lt_pageBound (memory : Memory) :
    memory.store.aliases.size < memory.pageBound := by
  simp only [pageBound]
  omega

theorem grants_lt_pageBound (memory : Memory) :
    memory.store.grants.length < memory.pageBound := by
  simp only [pageBound]
  omega

end Memory

end KeySteward
