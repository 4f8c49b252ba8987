import KeySteward.Proofs.StatusRecords
import KeySteward.Service.Wire

/-! What the client makes of a response that is no success. The code of the error stands behind the last
number sign of the type that the body gives, but only in a body that can be read as a whole: a message
that is no text, or one that is given twice, takes the code away, and the status stands for it. -/

namespace KeySteward

open Json

namespace Json

def Fields.named (names : List String) (members : List (Option String × Document)) : Fields :=
  members.filterMap fun member => (member.1.filter (· ∈ names)).map fun name => (name, member.2)

private theorem Fields.ofMembers_eq_ok {names : List String} {members : List (Option String × Document)}
    {fields : Fields} :
    Fields.ofMembers names members = .ok fields ↔
      (∀ member ∈ members, member.1.isSome = true) ∧ (fields.map Prod.fst).Nodup ∧
        fields = named names members := by
  induction members generalizing fields with
  | nil =>
    constructor
    · rintro ⟨⟩
      exact ⟨nofun, .nil, rfl⟩
    · rintro ⟨-, -, rfl⟩
      rfl
  | cons member rest ih =>
    obtain ⟨_ | name, part⟩ := member
    · simp [ofMembers]
    rw [ofMembers, bind_eq_ok]
    simp only [ih, List.forall_mem_cons, Option.isSome_some, true_and]
    by_cases known : name ∈ names
    · have step : named names ((some name, part) :: rest) = (name, part) :: named names rest := by
        simp [named, known]
      rw [step]
      constructor
      · rintro ⟨found, ⟨readable, distinct, rfl⟩, ends⟩
        rw [if_pos known] at ends
        split at ends
        · cases ends
        next fresh =>
          cases ends
          refine ⟨readable, ?_, rfl⟩
          rw [Entries.isSome_get?] at fresh
          exact List.nodup_cons.mpr ⟨fresh, distinct⟩
      · rintro ⟨readable, distinct, rfl⟩
        obtain ⟨fresh, distinct⟩ := List.nodup_cons.mp distinct
        refine ⟨_, ⟨readable, distinct, rfl⟩, ?_⟩
        rw [if_pos known, if_neg (by rwa [Entries.isSome_get?])]
        rfl
    · have step : named names ((some name, part) :: rest) = named names rest := by
        simp [named, known]
      rw [step]
      constructor
      · rintro ⟨found, ⟨readable, distinct, rfl⟩, ends⟩
        rw [if_neg known] at ends
        cases ends
        exact ⟨readable, distinct, rfl⟩
      · rintro ⟨readable, distinct, rfl⟩
        exact ⟨_, ⟨readable, distinct, rfl⟩, by rw [if_neg known]; rfl⟩

/-- A part of a document that is a text, or null in its place. -/
def Document.IsText (part : Document) : Prop :=
  part = .null ∨ ∃ text, part = .string text

private theorem Decode.nullable_text_iff {part : Document} :
    (∃ text, Decode.nullable Decode.text part = .ok text) ↔ part.IsText := by
  cases part <;> simp [Decode.nullable, Decode.text, Document.IsText, Except.map]

private theorem Fields.optional_text_iff {fields : Fields} (distinct : (fields.map Prod.fst).Nodup)
    (name : String) :
    (∃ text, fields.optional name Decode.text = .ok text) ↔
      ∀ part, (name, part) ∈ fields → part.IsText := by
  simp only [← Entries.get?_eq_some_iff distinct, optional, orElse]
  cases Entries.get? name fields with
  | none => simp
  | some part => simp [Decode.nullable_text_iff]

end Json

namespace Wire

/-- The field of an error that a member of its body gives. -/
def errorField? (name : Option String) : Option String :=
  if name = some "__type" then some "__type"
  else if name = some "message" ∨ name = some "Message" then some "message"
  else none

/-- The members of a body make up an error as a whole: all names can be read, no field of an error is
given twice, and what is given for the message is a text or null. -/
structure Legible (members : List (Option String × Document)) : Prop where
  readable : ∀ member ∈ members, member.1.isSome = true
  distinct : (members.filterMap fun member => errorField? member.1).Nodup
  type : ∀ member ∈ members, errorField? member.1 = some "__type" → member.2.IsText
  message : ∀ member ∈ members, errorField? member.1 = some "message" → member.2.IsText

/-- The fields of an error that the members of a body give. -/
def errorFields (members : List (Option String × Document)) : Fields :=
  members.filterMap fun member => (errorField? member.1).map fun name => (name, member.2)

private theorem mem_errorFields {members : List (Option String × Document)} {name : String}
    {part : Document} :
    (name, part) ∈ errorFields members ↔
      ∃ member ∈ members, errorField? member.1 = some name ∧ member.2 = part := by
  simp [errorFields]

theorem decodeErrorBody_object (members : List (Option String × Document)) :
    decodeErrorBody (.object members) = (do
      let fields ← Fields.ofMembers ["__type", "message"] (members.map fun member =>
        (if member.1 == some "Message" then some "message" else member.1, member.2))
      let type ← fields.optional "__type" Decode.text
      let message ← fields.optional "message" Decode.text
      return ⟨type, message⟩) :=
  rfl

private theorem named_spelled (members : List (Option String × Document)) :
    Fields.named ["__type", "message"] (members.map fun member =>
      (if member.1 == some "Message" then some "message" else member.1, member.2)) =
      errorFields members := by
  rw [Fields.named, errorFields, List.filterMap_map]
  refine List.filterMap_congr fun member _ => ?_
  obtain ⟨_ | name, part⟩ := member
  · rfl
  · simp only [Function.comp_apply, errorField?, beq_iff_eq, Option.some.injEq]
    by_cases capital : name = "Message"
    · simp [capital]
    · by_cases type : name = "__type"
      · simp [type]
      · by_cases message : name = "message" <;> simp [capital, type, message]

private theorem decodeErrorBody_eq_ok {members : List (Option String × Document)} {said : ErrorBody} :
    decodeErrorBody (.object members) = .ok said ↔
      (∀ member ∈ members, member.1.isSome = true) ∧
        ((errorFields members).map Prod.fst).Nodup ∧
        (errorFields members).optional "__type" Decode.text = .ok said.type ∧
        (errorFields members).optional "message" Decode.text = .ok said.message := by
  have named : (∀ member ∈ members.map fun member : Option String × Document =>
      (if member.1 == some "Message" then some "message" else member.1, member.2),
      member.1.isSome = true) ↔ ∀ member ∈ members, member.1.isSome = true := by
    rw [List.forall_mem_map]
    refine forall₂_congr fun member _ => ?_
    split
    next capital => simp [eq_of_beq capital]
    next => rfl
  obtain ⟨type, message⟩ := said
  simp only [decodeErrorBody_object, bind_eq_ok, Fields.ofMembers_eq_ok, named, named_spelled]
  constructor
  · rintro ⟨fields, ⟨readable, distinct, rfl⟩, _, typed, _, told, ends⟩
    cases ends
    exact ⟨readable, distinct, typed, told⟩
  · rintro ⟨readable, distinct, typed, told⟩
    exact ⟨_, ⟨readable, distinct, rfl⟩, _, typed, _, told, rfl⟩

/-- A body can be read exactly when it is legible. -/
theorem decodeErrorBody_iff {members : List (Option String × Document)} :
    (∃ said, decodeErrorBody (.object members) = .ok said) ↔ Legible members := by
  have names : (errorFields members).map Prod.fst =
      members.filterMap fun member => errorField? member.1 := by
    simp [errorFields, List.map_filterMap, Function.comp_def]
  have given (name : String) :
      (∀ part, (name, part) ∈ errorFields members → part.IsText) ↔
        ∀ member ∈ members, errorField? member.1 = some name → member.2.IsText := by
    simp only [mem_errorFields]
    exact ⟨fun texts member inside read => texts _ ⟨member, inside, read, rfl⟩,
      fun texts part ⟨member, inside, read, same⟩ => same ▸ texts member inside read⟩
  constructor
  · rintro ⟨said, read⟩
    obtain ⟨readable, distinct, typed, told⟩ := decodeErrorBody_eq_ok.mp read
    exact ⟨readable, names ▸ distinct,
      (given _).mp ((Fields.optional_text_iff distinct _).mp ⟨_, typed⟩),
      (given _).mp ((Fields.optional_text_iff distinct _).mp ⟨_, told⟩)⟩
  · intro legible
    have distinct := names ▸ legible.distinct
    obtain ⟨type, typed⟩ := (Fields.optional_text_iff distinct _).mpr ((given _).mpr legible.type)
    obtain ⟨message, told⟩ :=
      (Fields.optional_text_iff distinct _).mpr ((given _).mpr legible.message)
    exact ⟨⟨type, message⟩, decodeErrorBody_eq_ok.mpr ⟨legible.readable, distinct, typed, told⟩⟩

private theorem type_of_decodeErrorBody {members : List (Option String × Document)} {said : ErrorBody}
    (read : decodeErrorBody (.object members) = .ok said) {type : String}
    (typed : (some "__type", .string type) ∈ members) : said.type = some type := by
  obtain ⟨-, distinct, found, -⟩ := decodeErrorBody_eq_ok.mp read
  have inside : ("__type", .string type) ∈ errorFields members :=
    mem_errorFields.mpr ⟨_, typed, rfl, rfl⟩
  rw [Fields.optional, Fields.orElse, (Entries.get?_eq_some_iff distinct).mpr inside] at found
  exact (Except.ok.inj found).symm

/-- An error code is what stands behind the last number sign of a type. -/
theorem errorCode_spec (type : String) :
    ∃ before, type.toList = before ++ (errorCode type).toList ∧ '#' ∉ (errorCode type).toList ∧
      (before = [] ∨ before.getLast? = some '#') := by
  let reversed := type.toList.reverse
  refine ⟨(reversed.dropWhile (· != '#')).reverse, ?_, ?_, ?_⟩
  · rw [errorCode, String.toList_ofList, ← List.reverse_append, List.takeWhile_append_dropWhile,
      List.reverse_reverse]
  · rw [errorCode, String.toList_ofList, List.mem_reverse]
    intro inside
    simpa using List.all_eq_true.mp List.all_takeWhile _ inside
  · rw [List.reverse_eq_nil_iff, List.getLast?_reverse]
    cases rest : reversed.dropWhile (· != '#') with
    | nil => exact .inl rfl
    | cons first others =>
      have stopped := List.head_dropWhile_not (· != '#') (l := reversed) (by simp [rest])
      simp only [rest, List.head_cons, bne_eq_false_iff_eq] at stopped
      exact .inr (congrArg some stopped)

section Responses

variable {σ : Type} {link : Link σ} {request : Request} {state after : σ} {response : HttpResponse}

/-- What a response that is no success answers to a call. -/
theorem handle_unsuccessful (received : link.exchange (httpRequest request) state = (some response, after))
    (failed : isSuccess response.status = false) :
    link.service.handle request state = (.error (.refused (responseError response)), after) := by
  simp only [Link.service, received, answer, failed]
  rfl

private theorem responseError_object {members : List (Option String × Document)}
    (read : Document.ofBytes? response.body = some (.object members)) {type : String}
    (typed : (some "__type", .string type) ∈ members) :
    (Legible members → ∃ message, responseError response = .api (errorCode type) message) ∧
      (¬ Legible members → responseError response =
        .api ("Http" ++ toString response.status) (Text.Utf8.lossy response.body)) := by
  simp only [responseError, read, Option.bind_some]
  constructor
  · intro legible
    obtain ⟨said, given⟩ := decodeErrorBody_iff.mpr legible
    simp only [given, Except.toOption, Option.getD_some, type_of_decodeErrorBody given typed]
    exact ⟨_, rfl⟩
  · intro illegible
    cases given : decodeErrorBody (.object members) with
    | ok said => exact absurd (decodeErrorBody_iff.mp ⟨said, given⟩) illegible
    | error error => rfl

/-- A response that is no success is an error of the service. Its code is what stands behind the last
number sign of the type in a body that can be read as a whole; where the other members of the body
prevent that, and where the body is no JSON, it is the status of the response. -/
theorem unsuccessful_response
    (received : link.exchange (httpRequest request) state = (some response, after))
    (failed : isSuccess response.status = false) :
    let statusError := ServiceError.api ("Http" ++ toString response.status)
      (Text.Utf8.lossy response.body)
    (Document.ofBytes? response.body = none →
      link.service.handle request state = (.error (.refused statusError), after)) ∧
    ∀ members type, Document.ofBytes? response.body = some (.object members) →
      (some "__type", .string type) ∈ members →
      (∃ before, type.toList = before ++ (errorCode type).toList ∧
        '#' ∉ (errorCode type).toList ∧ (before = [] ∨ before.getLast? = some '#')) ∧
      (Legible members → ∃ message, link.service.handle request state =
        (.error (.refused (.api (errorCode type) message)), after)) ∧
      (¬ Legible members →
        link.service.handle request state = (.error (.refused statusError), after)) := by
  intro statusError
  rw [handle_unsuccessful received failed]
  refine ⟨fun unread => ?_, fun members type read typed => ⟨errorCode_spec type, ?_, ?_⟩⟩
  · simp only [responseError, unread]
    rfl
  · intro legible
    obtain ⟨message, said⟩ := (responseError_object read typed).1 legible
    exact ⟨message, by rw [said]⟩
  · intro illegible
    rw [(responseError_object read typed).2 illegible]

end Responses

/-- The names and texts of an object of two texts. -/
def twoTexts? : Document → Option (String × String × String × String)
  | .object [(some first, .string one), (some second, .string other)] =>
    some (first, one, second, other)
  | _ => none

private theorem twoTexts?_eq_some {part : Document} {first one second other : String}
    (found : twoTexts? part = some (first, one, second, other)) :
    part = .object [(some first, .string one), (some second, .string other)] := by
  unfold twoTexts? at found
  split at found
  · cases found
    rfl
  · cases found

/-- The namespace before the number sign is no part of the code. -/
theorem unsuccessful_response_reserved_tag :
    let response : HttpResponse := ⟨400, Text.Utf8.encode
      "\x7b\"__type\":\"com.amazonaws.kms#TagException\",\"message\":\"tag key is reserved\"\x7d"⟩
    let request := Request.tagResource "k1" [⟨"aws:x", "1"⟩]
    let script : Script := { responses := [some response] }
    let after : Script := { responses := [], requests := [httpRequest request] }
    Link.scripted.exchange (httpRequest request) script = (some response, after) ∧
      isSuccess response.status = false ∧
      ∃ message, Link.scripted.service.handle request script =
        (.error (.refused (.api "TagException" message)), after) := by
  intro response request script after
  have texts : (Document.ofBytes? response.body).bind twoTexts? =
      some ("__type", "com.amazonaws.kms#TagException", "message", "tag key is reserved") := by
    decide +kernel
  obtain ⟨part, read, found⟩ := Option.bind_eq_some_iff.mp texts
  obtain rfl := twoTexts?_eq_some found
  have legible : Legible [(some "__type", .string "com.amazonaws.kms#TagException"),
      (some "message", .string "tag key is reserved")] := by
    refine ⟨by simp, by decide, ?_, ?_⟩ <;> simp [Document.IsText]
  have received : Link.scripted.exchange (httpRequest request) script = (some response, after) := rfl
  have failed : isSuccess response.status = false := rfl
  obtain ⟨message, said⟩ :=
    ((unsuccessful_response received failed).2 _ _ read List.mem_cons_self).2.1 legible
  have code : errorCode "com.amazonaws.kms#TagException" = "TagException" := by
    decide +kernel
  exact ⟨received, rfl, message, code ▸ said⟩

/-- A number for the message takes the code away: a key that is not found is no longer told as such. -/
theorem numbered_message_hides_type :
    let response : HttpResponse := ⟨404, Text.Utf8.encode
      "\x7b\"__type\":\"NotFoundException\",\"message\":404\x7d"⟩
    let request := Request.describeKey "k1"
    isSuccess response.status = false ∧
      (Json.ofBytes? response.body).bind (fun value => (value.get? "__type").bind Json.text?) =
        some "NotFoundException" ∧
      errorCode "NotFoundException" = "NotFoundException" ∧
      (Link.scripted.service.handle request { responses := [some response] }).1 =
        .error (.refused (.api "Http404"
          "\x7b\"__type\":\"NotFoundException\",\"message\":404\x7d")) := by
  intro response request
  have said : responseError response = .api "Http404"
      "\x7b\"__type\":\"NotFoundException\",\"message\":404\x7d" := by
    decide +kernel
  refine ⟨rfl, by decide +kernel, by decide +kernel, ?_⟩
  have received : Link.scripted.exchange (httpRequest request) { responses := [some response] } =
      (some response, _) := rfl
  rw [← said]
  exact congrArg Prod.fst (handle_unsuccessful received rfl)

end Wire

end KeySteward
