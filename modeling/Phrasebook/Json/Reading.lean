-- Reading JSON. The text is read strictly from the left, and the document
-- is cut at the first character that no JSON text could have there.
import Phrasebook.Document
import Phrasebook.Json.Number

namespace Phrasebook.Json

/-! ## Strings -/

/-- What one character or escape of a string stands for. Two halves of a
surrogate pair make one character. -/
inductive StringPart where
  | char (c : Char)
  | half (unit : Nat)
  deriving Repr

def hexValue? (c : Char) : Option Nat :=
  if c.isDigit then some (c.toNat - 48)
  else if 'a' ≤ c ∧ c ≤ 'f' then some (c.toNat - 87)
  else if 'A' ≤ c ∧ c ≤ 'F' then some (c.toNat - 55)
  else none

/-- The number that four hexadecimal digits spell. -/
def unit? (a b c d : Char) : Option Nat := do
  return ((← hexValue? a) * 16 + (← hexValue? b)) * 256 + (← hexValue? c) * 16 + (← hexValue? d)

def isSurrogate (n : Nat) : Bool := 0xD800 ≤ n && n < 0xE000

def unitPart (n : Nat) : StringPart := if isSurrogate n then .half n else .char (Char.ofNat n)

/-- The character of an escape of two characters. -/
def shortEscape? (c : Char) : Option Char :=
  if c = '"' ∨ c = '\\' ∨ c = '/' then some c
  else if c = 'b' then some '\x08'
  else if c = 'f' then some '\x0c'
  else if c = 'n' then some '\n'
  else if c = 'r' then some '\r'
  else if c = 't' then some '\t'
  else none

/-- The parts of a string up to its closing quote, and what follows that. -/
def stringParts : List Char → Option (List StringPart × List Char)
  | [] => none
  | '"' :: rest => some ([], rest)
  | '\\' :: 'u' :: a :: b :: c :: d :: rest => do
    let n ← unit? a b c d
    let (parts, rest) ← stringParts rest
    return (unitPart n :: parts, rest)
  | '\\' :: e :: rest => do
    let c ← shortEscape? e
    let (parts, rest) ← stringParts rest
    return (.char c :: parts, rest)
  | c :: rest =>
    if c.toNat < 0x20 then none
    else do
      let (parts, rest) ← stringParts rest
      return (.char c :: parts, rest)

/-- The character of a surrogate pair. -/
def pairChar (high low : Nat) : Char :=
  Char.ofNat (0x10000 + (high - 0xD800) * 0x400 + (low - 0xDC00))

/-- The text of a string, if no half of a pair stands alone. -/
def joinParts : List StringPart → Option (List Char)
  | [] => some []
  | .char c :: rest => (joinParts rest).map (c :: ·)
  | .half high :: .half low :: rest =>
    if high < 0xDC00 && 0xDC00 ≤ low then (joinParts rest).map (pairChar high low :: ·) else none
  | .half _ :: _ => none

def stringNode (parts : List StringPart) : Node :=
  match joinParts parts with
  | some cs => .text (String.ofList cs)
  | none => .void

/-! ## Values -/

def isSpace (c : Char) : Bool := c == ' ' || c == '\t' || c == '\n' || c == '\r'

def skipSpace (cs : List Char) : List Char := cs.dropWhile isSpace

/-- A node, and the text after it. -/
abbrev Reading := Node × List Char

/-- Nothing is read after a cut. -/
def broken : Reading := (.cut, [])

/-- The string after its opening quote. -/
def readString (cs : List Char) : Reading :=
  match stringParts cs with
  | some (parts, rest) => (stringNode parts, rest)
  | none => broken

/-- A word that stands for a value of its own. -/
def readWord (word cs : List Char) : Reading :=
  if word.isPrefixOf cs then (.other, cs.drop word.length) else broken

def readNumber (cs : List Char) : Reading :=
  match Number.spelling cs with
  | some (n, rest) => (if n.inRange then .other else .void, rest)
  | none => broken

mutual

/-- One value. The number bounds the depth and the width, and a number above
the length of the text never ends a reading. -/
def readValue : Nat → List Char → Reading
  | 0, _ => broken
  | fuel + 1, cs =>
    match skipSpace cs with
    | [] => broken
    | c :: rest =>
      if c = '"' then readString rest
      else if c = '[' then
        match skipSpace rest with
        | ']' :: rest => (.list [], rest)
        | rest =>
          let (items, rest) := readItems fuel rest
          (.list items, rest)
      else if c = '\x7b' then
        match skipSpace rest with
        | '\x7d' :: rest => (.map [], rest)
        | rest =>
          let (members, rest) := readMembers fuel rest
          (.map members, rest)
      else if c = 'n' then readWord "null".toList (c :: rest)
      else if c = 't' then readWord "true".toList (c :: rest)
      else if c = 'f' then readWord "false".toList (c :: rest)
      else readNumber (c :: rest)

/-- The items of an array from one item on, up to the closing bracket. -/
def readItems : Nat → List Char → List Node × List Char
  | 0, _ => ([.cut], [])
  | fuel + 1, cs =>
    let (item, rest) := readValue fuel cs
    match skipSpace rest with
    | ',' :: rest =>
      let (items, rest) := readItems fuel rest
      (item :: items, rest)
    | ']' :: rest => ([item], rest)
    | _ => ([item, .cut], [])

/-- The members of an object from one member on, up to the closing brace. -/
def readMembers : Nat → List Char → List (Node × Node) × List Char
  | 0, _ => ([(.cut, .cut)], [])
  | fuel + 1, cs =>
    match skipSpace cs with
    | '"' :: rest =>
      let (key, rest) := readString rest
      match skipSpace rest with
      | ':' :: rest =>
        let (value, rest) := readValue fuel rest
        match skipSpace rest with
        | ',' :: rest =>
          let (members, rest) := readMembers fuel rest
          ((key, value) :: members, rest)
        | '\x7d' :: rest => ([(key, value)], rest)
        | _ => ([(key, value), (.cut, .cut)], [])
      | _ => ([(key, .cut)], [])
    | _ => ([(.cut, .cut)], [])

end

/-- The document that a JSON text says. -/
def read (s : String) : Document :=
  let (root, rest) := readValue (2 * s.length + 2) s.toList
  ⟨root, [], .exact, (skipSpace rest).isEmpty⟩

end Phrasebook.Json
