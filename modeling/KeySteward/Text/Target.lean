/-! The target of a request: a path, a query behind a question mark, and a fragment behind a number
sign, which is not sent. A path and a query hold only characters that need no escape. -/

namespace KeySteward.Text.Target

/-- The code points that may stand in a path, as inclusive ranges: all that are visible in ASCII,
apart from the number sign, the two angle brackets, the question mark and the grave accent. -/
def pathRanges : List (Nat × Nat) :=
  [(0x21, 0x22), (0x24, 0x3B), (0x3D, 0x3D), (0x40, 0x5F), (0x61, 0x7E)]

/-- The code points that may stand in a query: all that are visible in ASCII, apart from the
quotation mark, the number sign and the two angle brackets. -/
def queryRanges : List (Nat × Nat) :=
  [(0x21, 0x21), (0x24, 0x3B), (0x3D, 0x3D), (0x3F, 0x7E)]

private def among (ranges : List (Nat × Nat)) (c : Char) : Bool :=
  ranges.any fun range => range.1 ≤ c.toNat && c.toNat ≤ range.2

def isPathChar (c : Char) : Bool :=
  among pathRanges c

def isQueryChar (c : Char) : Bool :=
  among queryRanges c

def endsPath (c : Char) : Bool :=
  c == '?' || c == '#'

/-- The characters before the query and the fragment. -/
def pathOf (cs : List Char) : List Char :=
  cs.takeWhile fun c => !endsPath c

/-- The characters between the first question mark and the fragment. -/
def queryOf (cs : List Char) : List Char :=
  match cs.dropWhile fun c => !endsPath c with
  | '?' :: rest => rest.takeWhile (· != '#')
  | _ => []

/-- The number of bytes that a target may have. -/
def greatestSize : Nat := 65534

/-- The path of a target, if it is one. -/
def path? (target : String) : Option String :=
  let cs := target.toList
  if target.utf8ByteSize ≤ greatestSize ∧ (pathOf cs).all isPathChar ∧
      (queryOf cs).all isQueryChar then
    some (.ofList (pathOf cs))
  else none

end KeySteward.Text.Target
