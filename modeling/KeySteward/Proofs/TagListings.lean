import KeySteward.Proofs.StrictPasses
import KeySteward.Proofs.TagMaps
import KeySteward.Service.Wire

/-! Listings of tags, over any service. A listing asks for page after page, each time for the one that
the page before has named, and is over with the first page that names none. It has the tags of all pages
that it has read, and has none where a page cannot be had. -/

namespace KeySteward

variable {σ α β : Type} {service : Service σ} {schedule : Schedule}

def Ending.map (f : α → β) : Ending α → Ending β
  | .finished value => .finished (f value)
  | .crashed => .crashed
  | .unfinished => .unfinished

namespace Program

theorem run_map (program : Program α) (f : α → β) (run : Run σ) :
    (f <$> program).run service schedule run =
      ((program.run service schedule run).1.map f, (program.run service schedule run).2) := by
  change (program.bind fun value => .done (f value)).run _ _ _ = _
  induction program generalizing run with
  | done value => rfl
  | unfinished => rfl
  | call request next ih =>
    simp only [Program.run, bind]
    rcases run.call service schedule request with ⟨_ | result, after⟩
    · rfl
    · exact ih result after

theorem exchanges_map (program : Program α) (f : α → β) (run : Run σ) :
    (f <$> program).exchanges service schedule run = program.exchanges service schedule run := by
  change (program.bind fun value => .done (f value)).exchanges _ _ _ = _
  induction program generalizing run with
  | done value => rfl
  | unfinished => rfl
  | call request next ih =>
    simp only [exchanges, bind]
    rcases run.call service schedule request with ⟨_ | result, after⟩
    · rfl
    · simp only [ih result after]

theorem exchanges_answered {request : Request}
    {next : Except Failure request.Answer → Program α} {run : Run σ} (free : run.IsFree)
    {answer : request.Answer} {after : σ} (handled : service.handle request run.state = (.ok answer, after)) :
    ∃ later : Run σ, later.IsFree ∧ later.state = after ∧
      (call request next).exchanges service .calm run =
        ⟨request, some (.ok answer)⟩ :: (next (.ok answer)).exchanges service .calm later := by
  obtain ⟨stays, called⟩ := free.call service request
  rw [handled] at called
  simp only [exchanges]
  generalize run.call service .calm request = outcome at stays called ⊢
  obtain ⟨result, later⟩ := outcome
  cases called
  exact ⟨later, stays, rfl, rfl⟩

end Program

namespace Page

theorem next?_eq_some {page : Page α} {next : String} :
    page.next? = some next ↔ page.truncated = true ∧ page.nextMarker = some next := by
  simp [next?]

private theorem isSome_next? {page : Page α} :
    page.next?.isSome ↔ page.truncated = true ∧ page.nextMarker.isSome := by
  cases more : page.truncated <;> simp [next?, more]

private theorem next?_eq_none {page : Page α} :
    page.next? = none ↔ page.truncated = false ∨ page.nextMarker = none := by
  cases more : page.truncated <;> simp [next?, more]

/-- The pages are a whole listing: each of them names another one, but for the last. -/
def AreAll (pages : List (Page α)) : Prop :=
  ∃ front final, pages = front ++ [final] ∧ (∀ page ∈ front, page.next?.isSome) ∧ final.next? = none

theorem AreAll.cons {page : Page α} {read : List (Page α)} (named : page.next?.isSome)
    (rest : AreAll read) : AreAll (page :: read) := by
  obtain ⟨front, final, rfl, onwards, sole⟩ := rest
  exact ⟨page :: front, final, rfl, List.forall_mem_cons.mpr ⟨named, onwards⟩, sole⟩

end Page

namespace TagSet

/-- Calls that came to these pages. The first asks for the page at a marker, and each other one for the
page that the one before names. -/
def fetched (keyId : String) : Option String → List (Page Tag) → List Exchange
  | _, [] => []
  | marker, page :: rest =>
    ⟨.listResourceTags keyId marker, some (.ok page)⟩ :: fetched keyId page.nextMarker rest

theorem mem_fetched {keyId : String} {exchange : Exchange} {marker : Option String}
    {pages : List (Page Tag)} (member : exchange ∈ fetched keyId marker pages) :
    ∃ marker, exchange.request = .listResourceTags keyId marker := by
  induction pages generalizing marker with
  | nil => cases member
  | cons page rest ih =>
    rcases List.mem_cons.mp member with rfl | inside
    · exact ⟨marker, rfl⟩
    · exact ih inside

/-- The calls of a listing from a marker on, with room for so many pages, and how it ends. -/
inductive Reading (keyId : String) :
    (pages : Nat) → Option String → List Exchange → Ending (Except Failure (List Tag)) → Prop where
  | exhausted {marker} : Reading keyId 0 marker [] .unfinished
  | crashed {pages marker} :
      Reading keyId (pages + 1) marker [⟨.listResourceTags keyId marker, none⟩] .crashed
  | failed {pages marker} (failure : Failure) :
      Reading keyId (pages + 1) marker [⟨.listResourceTags keyId marker, some (.error failure)⟩]
        (.finished (.error failure))
  | last {pages marker} {page : Page Tag} (sole : page.next? = none) :
      Reading keyId (pages + 1) marker [⟨.listResourceTags keyId marker, some (.ok page)⟩]
        (.finished (.ok page.items))
  | onward {pages marker} {page : Page Tag} {next calls ending} (named : page.next? = some next)
      (rest : Reading keyId pages (some next) calls ending) :
      Reading keyId (pages + 1) marker (⟨.listResourceTags keyId marker, some (.ok page)⟩ :: calls)
        (ending.map (Except.map (page.items ++ ·)))

private theorem items_reading (keyId : String) (pages : Nat) (marker : Option String) (run : Run σ) :
    let pass := (Pass.items (fun marker => .call (.listResourceTags keyId marker)) (fun _ => false)
      pages marker).run
    Reading keyId pages marker (pass.exchanges service schedule run)
      (pass.run service schedule run).1 := by
  induction pages generalizing marker run with
  | zero => exact .exhausted
  | succ pages ih =>
    intro pass
    change Reading _ _ _ (Program.exchanges _ _ (.call (.listResourceTags keyId marker) _) _)
      (Program.run _ _ (.call (.listResourceTags keyId marker) _) _).1
    simp only [Program.run, Program.exchanges]
    rcases run.call service schedule (.listResourceTags keyId marker) with
      ⟨_ | (failure | page), after⟩
    · exact .crashed
    · exact .failed failure
    · simp only [Program.bind, ExceptT.bindCont, Bool.false_eq_true, if_false]
      cases named : page.next? with
      | none => exact .last named
      | some next =>
        have others := ih (some next) after
        let rest : Pass (List Tag) := (page.items ++ ·) <$>
          Pass.items (fun marker => .call (.listResourceTags keyId marker)) (fun _ => false) pages
            (some next)
        change Reading _ _ _ (_ :: rest.run.exchanges service schedule after)
          (rest.run.run service schedule after).1
        simp only [rest, ExceptT.run_map, Program.run_map, Program.exchanges_map]
        exact .onward named others

namespace Reading

variable {keyId : String} {pages : Nat} {marker : Option String} {calls : List Exchange}

/-- A listing that has its tags has read to a page that names no other, and they are those of its pages. -/
theorem ok {tags : List Tag} (reading : Reading keyId pages marker calls (.finished (.ok tags))) :
    ∃ front final, calls = fetched keyId marker (front ++ [final]) ∧
      (∀ page ∈ front, page.next?.isSome) ∧ final.next? = none ∧
      tags = (front ++ [final]).flatMap Page.items := by
  generalize ends : Ending.finished (Except.ok tags) = ending at reading
  induction reading generalizing tags with
  | exhausted | crashed | failed => cases ends
  | last sole =>
    cases ends
    exact ⟨[], _, rfl, nofun, sole, by simp⟩
  | @onward _ _ page next _ ending named _ ih =>
    rcases ending with (_ | others) | _ | _ <;> cases ends
    obtain ⟨front, final, rfl, onwards, sole, rfl⟩ := ih rfl
    refine ⟨page :: front, final, ?_, ?_, sole, ?_⟩
    · rw [List.cons_append, fetched, (Page.next?_eq_some.mp named).2]
    · exact List.forall_mem_cons.mpr ⟨by rw [named]; rfl, onwards⟩
    · rw [List.cons_append, List.flatMap_cons]

/-- A listing that has failed has done so with the call behind the pages that it has read. -/
theorem error {failure : Failure}
    (reading : Reading keyId pages marker calls (.finished (.error failure))) :
    ∃ read last, calls = fetched keyId marker read ++
      [⟨.listResourceTags keyId last, some (.error failure)⟩] := by
  generalize ends : Ending.finished (Except.error failure) = ending at reading
  induction reading with
  | exhausted | crashed | last => cases ends
  | @failed _ marker _ =>
    cases ends
    exact ⟨[], marker, rfl⟩
  | @onward _ _ page next _ ending named _ ih =>
    rcases ending with (_ | _) | _ | _ <;> cases ends
    obtain ⟨read, last, rfl⟩ := ih rfl
    exact ⟨page :: read, last, by rw [fetched, (Page.next?_eq_some.mp named).2, List.cons_append]⟩

private theorem unfinished (reading : Reading keyId pages marker calls .unfinished) :
    calls.length = pages := by
  generalize ends : Ending.unfinished = ending at reading
  induction reading with
  | crashed | failed | last => cases ends
  | exhausted => rfl
  | onward named rest ih =>
    rename_i ending
    rcases ending with _ | _ | _ <;> cases ends
    rw [List.length_cons, ih rfl]

end Reading

theorem list_run (pages : Nat) (keyId : String) : (list pages keyId).run =
    Except.map .ofTags <$>
      (Pass.items (fun marker => .call (.listResourceTags keyId marker)) (fun _ => false) pages none).run :=
  ExceptT.run_map ..

private theorem list_reading (service : Service σ) (schedule : Schedule) (pages : Nat) (keyId : String)
    (run : Run σ) :
    ∃ read, Reading keyId pages none ((list pages keyId).run.exchanges service schedule run) read ∧
      ((list pages keyId).run.run service schedule run).1 = read.map (Except.map .ofTags) := by
  rw [list_run, Program.exchanges_map, Program.run_map]
  exact ⟨_, items_reading keyId pages none run, rfl⟩

/-- A listing that has its tags has read all pages, and they are those of the pages. -/
theorem list_all {pages : Nat} {keyId : String} {tags : TagMap} {run last : Run σ}
    (ends : (list pages keyId).run.run service schedule run = (.finished (.ok tags), last)) :
    ∃ read, (list pages keyId).run.exchanges service schedule run = fetched keyId none read ∧
      Page.AreAll read ∧ tags = .ofTags (read.flatMap Page.items) := by
  obtain ⟨others, reading, same⟩ := list_reading service schedule pages keyId run
  rw [ends] at same
  rcases others with (_ | _) | _ | _ <;> cases same
  obtain ⟨front, final, course, onwards, sole, rfl⟩ := reading.ok
  exact ⟨_, course, ⟨front, final, rfl, onwards, sole⟩, rfl⟩

theorem list_error {pages : Nat} {keyId : String} {failure : Failure} {run last : Run σ}
    (ends : (list pages keyId).run.run service schedule run = (.finished (.error failure), last)) :
    ∃ read marker, (list pages keyId).run.exchanges service schedule run = fetched keyId none read ++
      [⟨.listResourceTags keyId marker, some (.error failure)⟩] := by
  obtain ⟨others, reading, same⟩ := list_reading service schedule pages keyId run
  rw [ends] at same
  rcases others with (_ | _) | _ | _ <;> cases same
  exact reading.error

/-- A listing that gives tags has asked for each page by the marker of the page before, up to a page
that is not truncated or has no marker, and has of each key the value that came last; a call of it that
fails is what it fails with, and nothing else is. Room runs out only where it has read a page for each
that there was room for. -/
theorem list_follows_markers (service : Service σ) (schedule : Schedule) (pages : Nat)
    (keyId : String) (run : Run σ) :
    let ending := ((list pages keyId).run.run service schedule run).1
    let calls := (list pages keyId).run.exchanges service schedule run
    (∀ tags, ending = .finished (.ok tags) →
      ∃ front final, calls = fetched keyId none (front ++ [final]) ∧
        (∀ page ∈ front, page.truncated = true ∧ page.nextMarker.isSome) ∧
        (final.truncated = false ∨ final.nextMarker = none) ∧
        ∀ key, tags.get? key =
          (((front ++ [final]).flatMap Page.items).reverse.find? (·.key == key)).map Tag.value) ∧
      (∀ failure, ending = .finished (.error failure) ↔
        ∃ call ∈ calls, call.result = some (.error failure)) ∧
      (ending = .unfinished → calls.length = pages) := by
  intro ending calls
  obtain ⟨others, reading, same⟩ := list_reading service schedule pages keyId run
  refine ⟨fun tags ends => ?_, fun failure => ?_, fun ends => ?_⟩
  · rcases others with (_ | read) | _ | _ <;> cases same.symm.trans ends
    obtain ⟨front, final, course, onwards, sole, rfl⟩ := reading.ok
    refine ⟨front, final, course, fun page member => ?_, Page.next?_eq_none.mp sole,
      TagMap.get?_ofTags _⟩
    exact Page.isSome_next?.mp (onwards page member)
  · rw [← (list_strict pages keyId).failure_iff service schedule run failure]
    refine ⟨fun ends => ⟨_, Prod.ext ends rfl⟩, ?_⟩
    rintro ⟨after, ends⟩
    exact congrArg Prod.fst ends
  · rcases others with _ | _ | _ <;> cases same.symm.trans ends
    exact reading.unfinished

/-- A listing takes a page that is truncated for the last one if it has no marker. -/
theorem list_truncated_without_marker :
    let page : Page Tag := ⟨[⟨"a", "1"⟩], none, true⟩
    let reply : Wire.HttpResponse := ⟨200, Text.Utf8.encode
      "\x7b\"Tags\":[\x7b\"TagKey\":\"a\",\"TagValue\":\"1\"\x7d],\"Truncated\":true\x7d"⟩
    let service := Wire.Link.scripted.service
    let run : Run Wire.Script := { state := { responses := [some reply] } }
    let pass := (list 1 "k1").run
    (pass.run service .calm run).1 = .finished (.ok (.ofTags [⟨"a", "1"⟩])) ∧
      pass.exchanges service .calm run = fetched "k1" none [page] ∧
      ¬ page.truncated = false := by
  intro page reply service run pass
  have read : (Wire.answer (.listResourceTags "k1" none) reply).toOption = some page := by
    decide +kernel
  have answered : Wire.answer (.listResourceTags "k1" none) reply = .ok page := by
    revert read
    generalize Wire.answer (.listResourceTags "k1" none) reply = result
    intro read
    cases result with
    | ok given => exact congrArg Except.ok (Option.some.inj read)
    | error error => cases read
  have handled : service.handle (.listResourceTags "k1" none) run.state =
      (.ok page, ⟨[], [Wire.httpRequest (.listResourceTags "k1" none)]⟩) := by
    change ((Wire.answer (.listResourceTags "k1" none) reply).mapError Fault.refused, _) = _
    rw [answered]
    rfl
  have free : run.IsFree := ⟨rfl, rfl⟩
  refine ⟨?_, ?_, nofun⟩
  · have calm := pass.run_calm service free
    rw [congrArg Prod.fst calm]
    change (Program.eval service (.call (.listResourceTags "k1" none) _) run.state).1 = _
    rw [Program.eval, handled]
    rfl
  · obtain ⟨later, -, -, course⟩ := Program.exchanges_answered free handled
    exact course

end TagSet

end KeySteward
