/-! Bytes read as UTF-8. `decode` keeps the place of every ill-formed stretch: a byte that starts
no character, or the longest beginning of one that the next byte breaks off, becomes one `none`. -/

namespace KeySteward.Text.Utf8

/-- The character that stands for an ill-formed stretch. -/
def replacement : Char := Char.ofNat 0xFFFD

private def tail (b : UInt8) : Bool := 0x80 ≤ b && b ≤ 0xBF

/-- Whether `b` may follow `a` as the second byte of one character: no overlong form, no surrogate
and nothing beyond the last code point begins like that. -/
def starts (a b : UInt8) : Bool :=
  if 0xC2 ≤ a && a ≤ 0xDF then tail b
  else if a == 0xE0 then 0xA0 ≤ b && b ≤ 0xBF
  else if a == 0xED then 0x80 ≤ b && b ≤ 0x9F
  else if 0xE1 ≤ a && a ≤ 0xEF then tail b
  else if a == 0xF0 then 0x90 ≤ b && b ≤ 0xBF
  else if 0xF1 ≤ a && a ≤ 0xF3 then tail b
  else if a == 0xF4 then 0x80 ≤ b && b ≤ 0x8F
  else false

/-- The code point of a lead byte that carries its lowest `bits` bits, and of the tails after it. -/
private def scalar (lead : UInt8) (bits : Nat) (tails : List UInt8) : Char :=
  .ofNat (tails.foldl (fun n b => 64 * n + b.toNat % 64) (lead.toNat % Nat.pow 2 bits))

/-- The characters of a byte sequence, with `none` in the place of each ill-formed stretch. -/
def decode : List UInt8 → List (Option Char)
  | [] => []
  | [a] => [if a < 0x80 then some (.ofNat a.toNat) else none]
  | a :: b :: rest =>
    if a < 0x80 then some (.ofNat a.toNat) :: decode (b :: rest)
    else if !starts a b then none :: decode (b :: rest)
    else if a < 0xE0 then some (scalar a 5 [b]) :: decode rest
    else match rest with
      | [] => [none]
      | c :: rest =>
        if !tail c then none :: decode (c :: rest)
        else if a < 0xF0 then some (scalar a 4 [b, c]) :: decode rest
        else match rest with
          | [] => [none]
          | d :: rest =>
            if !tail d then none :: decode (d :: rest)
            else some (scalar a 3 [b, c, d]) :: decode rest

/-- The text of a byte sequence, with every ill-formed stretch replaced. -/
def lossy (bytes : List UInt8) : String :=
  .ofList ((decode bytes).map fun c => c.getD replacement)

/-- The bytes of a text. -/
def encode (text : String) : List UInt8 :=
  text.toUTF8.toList

end KeySteward.Text.Utf8
