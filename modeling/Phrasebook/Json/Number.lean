-- Numbers of JSON: their spelling, and whether they fit the range of
-- 64-bit floating point. The value of a number is never needed.

namespace Phrasebook.Json.Number

/-! ## Spelling -/

/-- The digits that a text starts with, and the rest. -/
def digits (cs : List Char) : List Char × List Char :=
  (cs.takeWhile Char.isDigit, cs.dropWhile Char.isDigit)

/-- The parts of a number. -/
structure Spelling where
  whole : List Char
  fraction : List Char
  exponent : Int
  deriving Repr

/-- A zero, or digits that start with no zero. -/
def wholePart (cs : List Char) : Option (List Char × List Char) :=
  match cs with
  | '0' :: rest => if (digits rest).1.isEmpty then some (['0'], rest) else none
  | _ => if (digits cs).1.isEmpty then none else some (digits cs)

/-- The digits after a point, if there is a point. -/
def fractionPart (cs : List Char) : Option (List Char × List Char) :=
  match cs with
  | '.' :: rest => if (digits rest).1.isEmpty then none else some (digits rest)
  | _ => some ([], cs)

def natOf (ds : List Char) : Nat := ds.foldl (fun n d => 10 * n + (d.toNat - 48)) 0

def signedDigits (cs : List Char) : Option (Int × List Char) :=
  let unsigned (rest : List Char) : Option (Nat × List Char) :=
    if (digits rest).1.isEmpty then none else some (natOf (digits rest).1, (digits rest).2)
  match cs with
  | '-' :: rest => (unsigned rest).map fun (n, rest) => (-(n : Int), rest)
  | '+' :: rest => (unsigned rest).map fun (n, rest) => ((n : Int), rest)
  | _ => (unsigned cs).map fun (n, rest) => ((n : Int), rest)

/-- The exponent, if there is one. -/
def exponentPart (cs : List Char) : Option (Int × List Char) :=
  match cs with
  | 'e' :: rest => signedDigits rest
  | 'E' :: rest => signedDigits rest
  | _ => some (0, cs)

/-- The number that a text starts with, without its sign, and the rest. -/
def unsigned (cs : List Char) : Option (Spelling × List Char) := do
  let (whole, cs) ← wholePart cs
  let (fraction, cs) ← fractionPart cs
  let (exponent, cs) ← exponentPart cs
  return (⟨whole, fraction, exponent⟩, cs)

def spelling (cs : List Char) : Option (Spelling × List Char) :=
  match cs with
  | '-' :: rest => unsigned rest
  | _ => unsigned cs

/-! ## Range -/

/-- The least number that rounds to no finite floating-point number. -/
def overflowLimit : Nat := Nat.pow 2 1024 - Nat.pow 2 970

/-- The number rounds to a finite floating-point number. Its digits, without
leading zeros, and the exponent tell its size, so the powers of ten are only
taken where it is near the limit. -/
def Spelling.inRange (n : Spelling) : Bool :=
  let significant := (n.whole ++ n.fraction).dropWhile (· == '0')
  let exponent := n.exponent - n.fraction.length
  let size := exponent + significant.length
  if significant.isEmpty || size < 309 then true
  else if size > 309 then false
  else if exponent < 0 then natOf significant < overflowLimit * Nat.pow 10 (-exponent).toNat
  else natOf significant * Nat.pow 10 exponent.toNat < overflowLimit

end Phrasebook.Json.Number
