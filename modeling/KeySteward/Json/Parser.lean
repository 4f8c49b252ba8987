import KeySteward.Json.Document
import KeySteward.Text.Integer
import KeySteward.Text.Utf8

/-! Reading documents from text. The grammar is that of JSON. Three things are grammatical and
yet unreadable: a string with a surrogate that is not one of a pair or with bytes that are no UTF-8,
a number beyond the range of the binary format, and an array or object inside 127 others. -/

namespace KeySteward.Json

/-- The characters of a text in which `none` stands for bytes that are no UTF-8. -/
abbrev Input := List (Option Char)

/-- The most arrays and objects that may stand inside one another. -/
def greatestDepth : Nat := 127

private def skipBlanks (input : Input) : Input :=
  input.dropWhile fun c => c == some ' ' || c == some '\n' || c == some '\r' || c == some '\t'

/-! ### Strings -/

/-- One character of a string as it is written. -/
private inductive Piece where
  | char (c : Char)
  | unit (surrogate : Nat)
  | broken

private def hexValue? (c : Char) : Option Nat :=
  if c.isDigit then some (c.toNat - '0'.toNat)
  else if 'a' ≤ c ∧ c ≤ 'f' then some (c.toNat - 'a'.toNat + 10)
  else if 'A' ≤ c ∧ c ≤ 'F' then some (c.toNat - 'A'.toNat + 10)
  else none

private def fourHex? (a b c d : Char) : Option Nat := do
  let high := 16 * (← hexValue? a) + (← hexValue? b)
  return 256 * high + 16 * (← hexValue? c) + (← hexValue? d)

private def escaped? : Char → Option Char
  | '"' => some '"'
  | '\\' => some '\\'
  | '/' => some '/'
  | 'b' => some (.ofNat 0x08)
  | 'f' => some (.ofNat 0x0C)
  | 'n' => some '\n'
  | 'r' => some '\r'
  | 't' => some '\t'
  | _ => none

/-- The pieces up to the closing quote, and the input behind it. -/
private def pieces? : Input → Option (List Piece × Input)
  | some '"' :: rest => some ([], rest)
  | some '\\' :: some 'u' :: some a :: some b :: some c :: some d :: rest => do
    let value ← fourHex? a b c d
    let piece := if 0xD800 ≤ value ∧ value < 0xE000 then Piece.unit value else .char (.ofNat value)
    let (pieces, rest) ← pieces? rest
    return (piece :: pieces, rest)
  | some '\\' :: some letter :: rest => do
    let c ← escaped? letter
    let (pieces, rest) ← pieces? rest
    return (.char c :: pieces, rest)
  | some c :: rest =>
    if c.toNat < 0x20 ∨ c = '\\' then none
    else do
      let (pieces, rest) ← pieces? rest
      return (.char c :: pieces, rest)
  | none :: rest => do
    let (pieces, rest) ← pieces? rest
    return (.broken :: pieces, rest)
  | [] => none

/-- The characters that pieces stand for: a leading surrogate joins the trailing one behind it. -/
private def joinPieces? : List Piece → Option (List Char)
  | [] => some []
  | .char c :: rest => (joinPieces? rest).map (c :: ·)
  | .unit high :: .unit low :: rest =>
    if high < 0xDC00 ∧ 0xDC00 ≤ low then
      (joinPieces? rest).map (.ofNat (0x10000 + 0x400 * (high - 0xD800) + (low - 0xDC00)) :: ·)
    else none
  | _ :: _ => none

/-- A string behind its opening quote: its text, if it has one, and the input behind it. -/
private def string? (input : Input) : Option (Option String × Input) :=
  (pieces? input).map fun read => ((joinPieces? read.1).map String.ofList, read.2)

/-! ### Numbers -/

/-- A number as it is written, the digits without their points and signs. -/
private structure Lexeme where
  negative : Bool
  whole : List Char
  fraction : Option (List Char)
  exponent : Option (Bool × List Char)

private def takeDigits (input : Input) : List Char × Input :=
  let run := input.takeWhile fun c => c.any Char.isDigit
  (run.filterMap id, input.drop run.length)

private def fraction? (input : Input) : Option (Option (List Char) × Input) :=
  match input with
  | some '.' :: rest =>
    let (digits, rest) := takeDigits rest
    if digits.isEmpty then none else some (some digits, rest)
  | rest => some (none, rest)

private def exponentDigits? (negative : Bool) (input : Input) :
    Option (Option (Bool × List Char) × Input) :=
  let (digits, rest) := takeDigits input
  if digits.isEmpty then none else some (some (negative, digits), rest)

private def exponent? (input : Input) : Option (Option (Bool × List Char) × Input) :=
  match input with
  | some c :: rest =>
    if c = 'e' ∨ c = 'E' then
      match rest with
      | some '-' :: rest => exponentDigits? true rest
      | some '+' :: rest => exponentDigits? false rest
      | rest => exponentDigits? false rest
    else some (none, input)
  | _ => some (none, input)

private def lexeme? (input : Input) : Option (Lexeme × Input) := do
  let (negative, input) := match input with
    | some '-' :: rest => (true, rest)
    | rest => (false, rest)
  let (whole, input) := takeDigits input
  if whole.isEmpty ∨ (whole.head? = some '0' ∧ 1 < whole.length) then none
  let (fraction, input) ← fraction? input
  let (exponent, input) ← exponent? input
  return (⟨negative, whole, fraction, exponent⟩, input)

/-- Appends digits to a significand while it fits a word; the number of digits left out. -/
private def appendDigits : Nat → List Char → Nat × Nat
  | significand, [] => (significand, 0)
  | significand, digit :: rest =>
    let longer := 10 * significand + (digit.toNat - '0'.toNat)
    if longer ≤ Text.greatestWord then appendDigits longer rest
    else (significand, rest.length + 1)

/-- The value of a number. Digits that no longer fit the significand only count for its power of
ten. A number with neither fraction nor exponent is whole if it fits a word and is no negative
zero. -/
private def Lexeme.number? (lexeme : Lexeme) : Option Number :=
  let (significand, dropped) := appendDigits 0 lexeme.whole
  let wholeOnly := lexeme.fraction.isNone && lexeme.exponent.isNone && dropped == 0
  if wholeOnly && !lexeme.negative then some (.whole significand)
  else if wholeOnly && 0 < significand && significand ≤ Nat.pow 2 63 then some (.whole (-significand))
  else
    let fraction := lexeme.fraction.getD []
    let (significand, unused) := appendDigits significand fraction
    let power : Int := dropped - (fraction.length - unused : Nat)
    let power := match lexeme.exponent with
      | some (negative, digits) =>
        let exponent : Int := (Text.digits? digits).getD 0
        if negative then power - exponent else power + exponent
      | none => power
    (Magnitude.ofDecimal? significand power).map fun magnitude =>
      .double ⟨lexeme.negative, magnitude⟩

/-! ### Documents -/

namespace Document

private def word? (word : String) (document : Document) (input : Input) :
    Option (Document × Input) :=
  if input.take word.length = word.toList.map some then some (document, input.drop word.length)
  else none

private def inDepth (room : Nat) (document : Document) : Document :=
  if room = 0 then unreadable else document

mutual
/-- The document at the start of the input, and the input behind it. -/
private def parse? : Nat → Nat → Input → Option (Document × Input)
  | 0, _, _ => none
  | fuel + 1, room, input =>
    match skipBlanks input with
    | some 'n' :: rest => word? "ull" null rest
    | some 't' :: rest => word? "rue" (bool true) rest
    | some 'f' :: rest => word? "alse" (bool false) rest
    | some '"' :: rest => (string? rest).map fun read => (read.1.elim unreadable string, read.2)
    | some '[' :: rest =>
      match skipBlanks rest with
      | some ']' :: rest => some (inDepth room (array []), rest)
      | rest => (parseItems? fuel (room - 1) rest).map fun read =>
        (inDepth room (array read.1), read.2)
    | some '\x7b' :: rest =>
      match skipBlanks rest with
      | some '\x7d' :: rest => some (inDepth room (object []), rest)
      | rest => (parseMembers? fuel (room - 1) rest).map fun read =>
        (inDepth room (object read.1), read.2)
    | input => (lexeme? input).map fun read => (read.1.number?.elim unreadable number, read.2)
private def parseItems? : Nat → Nat → Input → Option (List Document × Input)
  | 0, _, _ => none
  | fuel + 1, room, input => do
    let (item, rest) ← parse? fuel room input
    match skipBlanks rest with
    | some ',' :: rest =>
      let (items, rest) ← parseItems? fuel room rest
      return (item :: items, rest)
    | some ']' :: rest => return ([item], rest)
    | _ => none
private def parseMembers? : Nat → Nat → Input → Option (List (Option String × Document) × Input)
  | 0, _, _ => none
  | fuel + 1, room, input =>
    match skipBlanks input with
    | some '"' :: rest => do
      let (name, rest) ← string? rest
      match skipBlanks rest with
      | some ':' :: rest =>
        let (member, rest) ← parse? fuel room rest
        match skipBlanks rest with
        | some ',' :: rest =>
          let (members, rest) ← parseMembers? fuel room rest
          return ((name, member) :: members, rest)
        | some '\x7d' :: rest => return ([(name, member)], rest)
        | _ => none
      | _ => none
    | _ => none
end

/-- The document that the whole input writes. Each call of the parser takes a character from the
input before it makes two further calls one inside the other. -/
def ofInput? (input : Input) : Option Document := do
  let (document, rest) ← parse? (2 * input.length + 2) greatestDepth input
  if (skipBlanks rest).isEmpty then some document else none

def ofText? (text : String) : Option Document :=
  ofInput? (text.toList.map some)

def ofBytes? (bytes : List UInt8) : Option Document :=
  ofInput? (Text.Utf8.decode bytes)

end Document

/-- The value that a text writes. -/
def ofText? (text : String) : Option Json :=
  (Document.ofText? text).bind Document.value?

def ofBytes? (bytes : List UInt8) : Option Json :=
  (Document.ofBytes? bytes).bind Document.value?

end KeySteward.Json
