import KeySteward.Proofs.ListingReadings
import KeySteward.Proofs.TagListings
import Mathlib.Algebra.Order.Floor.Div

/-! Listings of the service in memory by pages of any size. What is read of them is what is stored, so
the size of the pages only tells by how many calls the tags of a key are read. -/

namespace KeySteward

namespace Memory

def paged (memory : Memory) (size : Nat) : Memory :=
  { memory with config := { memory.config with pageSize := size } }

/-- The pages of so many items. The only page of a listing that is empty has no items. -/
def pageCount (size count : Nat) : Nat :=
  max 1 (count ⌈/⌉ max size 1)

private theorem pageCount_last {size count : Nat} (last : count ≤ max size 1) :
    pageCount size count = 1 := by
  have one : count ⌈/⌉ max size 1 ≤ 1 := (ceilDiv_le_iff_le_mul (by omega)).mpr (by simpa using last)
  exact Nat.max_eq_left one

private theorem pageCount_onward {size count : Nat} (more : max size 1 < count) :
    pageCount size count = pageCount size (count - max size 1) + 1 := by
  have positive : 0 < max size 1 := by omega
  simp only [pageCount, Nat.ceilDiv_eq_add_pred_div]
  generalize max size 1 = whole at more positive
  have first : count + whole - 1 = (count - whole + whole - 1) + whole := by omega
  have others : 1 ≤ (count - whole + whole - 1) / whole := Nat.div_pos (by omega) positive
  rw [first, Nat.add_div_right _ positive]
  omega

end Memory

namespace TagSet

variable {memory : Memory} {name keyId : String} {key : StoredKey}

/-- The tags from a place on are read by one call for each page. -/
theorem items_exchanges (unrefused : memory.refusals = [])
    (found : memory.lookup name = .ok (keyId, key)) (counted : key.tags.size ≤ Text.greatestWord)
    (pages : Nat) :
    ∀ {marker start} {run : Run Memory}, Memory.Marks marker start → start ≤ key.tags.size →
      key.tags.size - start < pages → memory.ReadOnly run.state → run.IsFree →
      let pass := (Pass.items (fun marker => .call (.listResourceTags name marker)) (fun _ => false)
        pages marker).run
      (pass.exchanges Memory.service .calm run).length =
        Memory.pageCount memory.config.pageSize (key.tags.size - start) := by
  have length : key.tags.toTags.length = key.tags.size := key.tags.length_toTags
  induction pages with
  | zero =>
    intro marker start run _ _ room
    exact absurd room (Nat.not_lt_zero _)
  | succ pages ih =>
    intro marker start run marks inside room read free pass
    have fetched : Memory.Reads True (Pass.call (.listResourceTags name marker)) _ memory :=
      Memory.listResourceTags_reads (fun _ => unrefused) found marks
        fun _ => Nat.le_trans inside counted
    obtain ⟨after, onward, yields⟩ := fetched.does trivial read
    obtain ⟨later, stays, rfl, course⟩ := Program.exchanges_answered free (Pass.yields_call.mp yields)
    change (Program.exchanges _ _ (.call (.listResourceTags name marker) _) _).length = _
    rw [course, List.length_cons]
    simp only [Program.bind, ExceptT.bindCont, Bool.false_eq_true, if_false]
    rw [Memory.page_next?, length]
    by_cases more : memory.pageEnd key.tags.toTags start < key.tags.size
    · have stop : memory.pageEnd key.tags.toTags start = start + max memory.config.pageSize 1 := by
        simp only [Memory.pageEnd, length] at more ⊢
        omega
      have fewer : key.tags.size - memory.pageEnd key.tags.toTags start < pages := by omega
      simp only [if_pos more]
      let rest : Pass (List Tag) := ((memory.page key.tags.toTags start).items ++ ·) <$>
        Pass.items (fun marker => .call (.listResourceTags name marker)) (fun _ => false) pages
          (some (toString (memory.pageEnd key.tags.toTags start)))
      change (rest.run.exchanges Memory.service .calm later).length + 1 = _
      have others := ih (.behind _) (Nat.le_of_lt more) fewer onward stays
      simp only [rest, ExceptT.run_map, Program.exchanges_map, others]
      have first : max memory.config.pageSize 1 < key.tags.size - start := by omega
      rw [stop, Memory.pageCount_onward first, Nat.sub_sub]
    · have last : key.tags.size - start ≤ max memory.config.pageSize 1 := by
        simp only [Memory.pageEnd, length] at more
        omega
      simp only [if_neg more]
      rw [Memory.pageCount_last last]
      rfl

private theorem list_exchanges (unrefused : memory.refusals = [])
    (found : memory.lookup name = .ok (keyId, key)) (counted : key.tags.size ≤ Text.greatestWord)
    {pages : Nat} (room : key.tags.size < pages) :
    ((list pages name).run.exchanges Memory.service .calm { state := memory }).length =
      Memory.pageCount memory.config.pageSize key.tags.size := by
  rw [list_run, Program.exchanges_map]
  exact items_exchanges unrefused found counted pages .first (Nat.zero_le _) room (.refl memory) ⟨rfl, rfl⟩

end TagSet

/-- Whatever the size of the pages, a listing of tags ends with those that are stored, the search for an
alias with the alias that is stored under the name, and the search for a grant with one that is stored
under the id for the key that is meant. The tags take a call for each page, and one call if there are
none. -/
theorem Memory.pages_hidden {memory : Memory} (unrefused : memory.refusals = []) :
    (∀ keyId stored, memory.key? keyId = some stored → stored.tags.size ≤ Text.greatestWord →
      ∀ size pages, stored.tags.size < pages →
        let pass := (TagSet.list pages keyId).run
        let run : Run Memory := { state := memory.paged size }
        (pass.run service .calm run).1 = .finished (.ok stored.tags) ∧
          (pass.exchanges service .calm run).length = max 1 (stored.tags.size ⌈/⌉ max size 1) ∧
          ∀ call ∈ pass.exchanges service .calm run,
            ∃ marker, call.request = .listResourceTags keyId marker) ∧
      (memory.store.aliases.size ≤ Text.greatestWord → ∀ aliasName size pages,
        memory.store.aliases.size < pages →
        ((Alias.search pages aliasName).run.run service .calm { state := memory.paged size }).1 =
          .finished (.ok
            ((memory.store.aliases.get? aliasName).map (memory.aliasEntry aliasName)))) ∧
      (∀ keyName keyId key, memory.lookup keyName = .ok (keyId, key) →
        memory.store.grants.length ≤ Text.greatestWord → ∀ grantId, ∃ found : Option GrantEntry,
          (∀ entry, found = some entry → entry ∈ memory.store.grants ∧
            entry.keyId = key.metadata.keyId ∧ entry.grantId = grantId) ∧
          (found = none ↔ ∀ entry ∈ memory.store.grants,
            entry.keyId = key.metadata.keyId → entry.grantId ≠ grantId) ∧
          ∀ size pages, memory.store.grants.length < pages →
            ((Grant.search pages keyName grantId).run.run service .calm
              { state := memory.paged size }).1 = .finished (.ok found)) ∧
      ∀ keyName fault, memory.lookup keyName = .error fault → ∀ grantId size pages, 0 < pages →
        ((Grant.search pages keyName grantId).run.run service .calm
          { state := memory.paged size }).1 = .finished (.error (.service
            (.api ServiceError.notFoundCode ("Key '" ++ keyName ++ "' does not exist")))) := by
  have unrefused' (size : Nat) : (memory.paged size).refusals = [] := unrefused
  have ends {α : Type} {size : Nat} {pass : Pass α} {value : α}
      (reads : Reads True pass value (memory.paged size)) :
      (pass.run.run service .calm { state := memory.paged size }).1 = .finished (.ok value) := by
    have free : ({ state := memory.paged size } : Run Memory).IsFree := ⟨rfl, rfl⟩
    obtain ⟨last, ends, -⟩ := reads.run trivial free
    rw [ends]
  refine ⟨fun keyId stored held counted size pages room => ?_,
    fun counted aliasName size pages room => ?_,
    fun keyName keyId key found counted grantId => ?_,
    fun keyName fault missing grantId size pages room => ?_⟩
  · have found : (memory.paged size).lookup keyId = .ok (keyId, stored) := lookup_of_key? held
    have uses : (TagSet.list pages keyId).run.Uses
        fun request => ∃ marker, request = .listResourceTags keyId marker :=
      TagSet.list_uses pages fun marker => ⟨marker, rfl⟩
    exact ⟨ends (TagSet.list_reads (fun _ => unrefused' size) found fun _ => ⟨counted, room⟩),
      TagSet.list_exchanges (unrefused' size) found counted room,
      fun call member => uses.exchanges member⟩
  · have reads : Reads True (Alias.search pages aliasName) _ (memory.paged size) :=
      Alias.search_reads (fun _ => unrefused' size) counted (fun _ => room) aliasName
    exact ends reads
  · refine ⟨(memory.store.grantsOf key.metadata.keyId).find? (fun entry => entry.grantId == grantId),
      fun entry => KeyStore.find?_grantsOf_eq_some, KeyStore.find?_grantsOf_eq_none,
      fun size pages room => ?_⟩
    have found' : (memory.paged size).lookup keyName = .ok (keyId, key) := found
    have reads : Reads True (Grant.search pages keyName grantId) _ (memory.paged size) :=
      Grant.search_reads (fun _ => unrefused' size) found' (fun _ => counted) (fun _ => room) grantId
    exact ends reads
  · have missing' : (memory.paged size).lookup keyName = .error fault := missing
    obtain ⟨last, fails, -⟩ := Program.run_calm_from
      (Grant.search_fails (unrefused' size) missing' room grantId)
    exact congrArg Prod.fst fails

/-- Two tags are read by one call each, or by a single call, and an alias and a grant are found on pages
of any size. -/
theorem Memory.pages_hidden_seeded :
    let tags : TagMap := .ofTags [⟨"a", "1"⟩, ⟨"b", "2"⟩]
    let memory := ((Memory.act { config := .numbered } (.seedKey "k1" tags)).act
      (.call (.createAlias "alias/pay" "k1"))).act
      (.call (.createGrant { keyId := "k1", granteePrincipal := "role", operations := ["Decrypt"] }))
    let pass := (TagSet.list 3 "k1").run
    (∃ stored, memory.key? "k1" = some stored) ∧ memory.refusals = [] ∧
      (∀ size, (pass.run service .calm { state := memory.paged size }).1 = .finished (.ok tags) ∧
        ∀ call ∈ pass.exchanges service .calm { state := memory.paged size },
          ∃ marker, call.request = .listResourceTags "k1" marker) ∧
      (pass.exchanges service .calm { state := memory.paged 1 }).length = 2 ∧
      (pass.exchanges service .calm { state := memory.paged 0 }).length = 2 ∧
      (pass.exchanges service .calm { state := memory.paged 2 }).length = 1 ∧
      (∃ entry, memory.store.aliases.get? "alias/pay" = some entry ∧ ∀ size,
        ((Alias.search 2 "alias/pay").run.run service .calm { state := memory.paged size }).1 =
          .finished (.ok (some (memory.aliasEntry "alias/pay" entry)))) ∧
      (∃ entry ∈ memory.store.grants, entry.keyId = "k1" ∧ entry.grantId = "grant-0" ∧ ∀ size,
        ((Grant.search 2 "alias/pay" "grant-0").run.run service .calm
          { state := memory.paged size }).1 = .finished (.ok (some entry))) ∧
      ∀ size, ((Grant.search 2 "k2" "grant-0").run.run service .calm
        { state := memory.paged size }).1 = .finished (.error (.service
          (.api ServiceError.notFoundCode "Key 'k2' does not exist"))) := by
  intro tags memory pass
  obtain ⟨stored, held, same⟩ := Option.map_eq_some_iff.mp
    (show (memory.key? "k1").map StoredKey.tags = some tags by decide +kernel)
  have unrefused : memory.refusals = [] := rfl
  obtain ⟨lists, aliases, grants, missing⟩ := Memory.pages_hidden unrefused
  have counted : stored.tags.size ≤ Text.greatestWord := by
    rw [same]
    decide
  have room : stored.tags.size < 3 := by
    rw [same]
    decide
  have sizes := fun size => lists "k1" stored held counted size 3 room
  rw [same] at sizes
  have two : tags.size = 2 := rfl
  simp only [two] at sizes
  refine ⟨⟨stored, held⟩, unrefused, fun size => ⟨(sizes size).1, (sizes size).2.2⟩, (sizes 1).2.1,
    (sizes 0).2.1, (sizes 2).2.1, ?_, ?_, ?_⟩
  · obtain ⟨entry, there⟩ := Option.isSome_iff_exists.mp
      (show (memory.store.aliases.get? "alias/pay").isSome = true by decide)
    refine ⟨entry, there, fun size => ?_⟩
    rw [aliases (by decide) "alias/pay" size 2 (by decide), there, Option.map_some]
  · obtain ⟨⟨keyId, key⟩, looked⟩ : ∃ held, memory.lookup "alias/pay" = .ok held := ⟨_, rfl⟩
    obtain ⟨found, only, none_iff, searches⟩ :=
      grants "alias/pay" keyId key looked (by decide) "grant-0"
    cases found with
    | none =>
      cases looked
      have there : ∃ entry ∈ memory.store.grants, entry.keyId = "k1" ∧ entry.grantId = "grant-0" := by
        decide
      obtain ⟨entry, live, own, id⟩ := there
      exact absurd id (none_iff.mp rfl entry live own)
    | some entry =>
      obtain ⟨live, own, id⟩ := only entry rfl
      cases looked
      exact ⟨entry, live, own, id, fun size => searches size 2 (by decide)⟩
  · exact fun size => missing "k2" _ rfl "grant-0" size 2 (by decide)

end KeySteward
