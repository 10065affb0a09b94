-- The values of TOML that are neither strings nor collections: booleans,
-- numbers, dates and times. Each is one word, but for a date and a time
-- that a blank parts.
import Phrasebook.Json.Reading

namespace Phrasebook.Toml.Scalar

/-! ## Words -/

def isWordChar (c : Char) : Bool :=
  c.isAlphanum || c == '_' || c == '+' || c == '-' || c == '.' || c == ':'

def isSign (c : Char) : Bool := c == '+' || c == '-'

/-- Digits of a base, where an underscore may stand between two of them. -/
def isDigitRun (isDigit : Char → Bool) : List Char → Bool
  | [] => false
  | [c] => isDigit c
  | c :: '_' :: rest => isDigit c && isDigitRun isDigit rest
  | c :: rest => isDigit c && isDigitRun isDigit rest

def dropUnderscores (cs : List Char) : List Char := cs.filter (· != '_')

def dropSign : List Char → List Char
  | c :: rest => if isSign c then rest else c :: rest
  | [] => []

/-! ## Integers -/

/-- Decimal digits that start with no zero, or one zero. -/
def isDecimal (cs : List Char) : Bool :=
  cs == ['0'] || (isDigitRun Char.isDigit cs && cs.head? != some '0')

def natOfBase (base : Nat) (cs : List Char) : Nat :=
  cs.foldl (fun n c => n * base + (Json.hexValue? c).getD 0) 0

def isHexDigit (c : Char) : Bool := (Json.hexValue? c).isSome

def isOctalDigit (c : Char) : Bool := '0' ≤ c && c ≤ '7'

def isBinaryDigit (c : Char) : Bool := c == '0' || c == '1'

/-- The size of the least integer of 64 bits, and one more than the greatest. -/
def integerLimit : Nat := 0x8000000000000000

/-- Digits of a base whose number fits 63 bits. -/
def isBased (base : Nat) (isDigit : Char → Bool) (cs : List Char) : Bool :=
  isDigitRun isDigit cs && natOfBase base (dropUnderscores cs) < integerLimit

/-- An integer of 64 bits. -/
def isInteger : List Char → Bool
  | '0' :: 'x' :: rest => isBased 16 isHexDigit rest
  | '0' :: 'o' :: rest => isBased 8 isOctalDigit rest
  | '0' :: 'b' :: rest => isBased 2 isBinaryDigit rest
  | '-' :: rest => isDecimal rest && natOfBase 10 (dropUnderscores rest) ≤ integerLimit
  | cs => isDecimal (dropSign cs) && natOfBase 10 (dropUnderscores (dropSign cs)) < integerLimit

/-! ## Floating-point numbers -/

def isExponentMark (c : Char) : Bool := c == 'e' || c == 'E'

/-- The parts of a number with a point or an exponent, without its sign. -/
def floatSpelling? (cs : List Char) : Option Json.Number.Spelling := do
  let mantissa := cs.takeWhile (!isExponentMark ·)
  let power := cs.drop mantissa.length
  let whole := mantissa.takeWhile (· != '.')
  let fraction := mantissa.drop whole.length
  guard (isDecimal whole && !(fraction.isEmpty && power.isEmpty))
  guard (fraction.isEmpty || isDigitRun Char.isDigit (fraction.drop 1))
  guard (power.isEmpty || isDigitRun Char.isDigit (dropSign (power.drop 1)))
  let size := Json.Number.natOf (dropUnderscores (dropSign (power.drop 1)))
  let exponent := if (power.drop 1).head? == some '-' then -(size : Int) else size
  return ⟨dropUnderscores whole, dropUnderscores (fraction.drop 1), exponent⟩

/-- A number with a point or an exponent, an infinity or no number. One that
is written in digits must not be so large as to count as plus infinity. -/
def isFloat (cs : List Char) : Bool :=
  let unsigned := dropSign cs
  unsigned == "inf".toList || unsigned == "nan".toList ||
    match floatSpelling? unsigned with
    | some n => cs.head? == some '-' || n.inRange
    | none => false

/-! ## Dates and times -/

/-- The number of exactly so many digits, and the rest. -/
def fixedDigits? (count : Nat) (cs : List Char) : Option (Nat × List Char) :=
  let digits := cs.take count
  if digits.length == count && digits.all Char.isDigit then
    some (natOfBase 10 digits, cs.drop count)
  else none

def expect? (c : Char) : List Char → Option (List Char)
  | d :: rest => if d = c then some rest else none
  | [] => none

def daysInMonth (year month : Nat) : Nat :=
  if month = 2 then
    if year % 4 = 0 ∧ (year % 100 ≠ 0 ∨ year % 400 = 0) then 29 else 28
  else if month = 4 ∨ month = 6 ∨ month = 9 ∨ month = 11 then 30
  else 31

/-- A number in decimal digits, with zeros in front up to a width. -/
def padded (width n : Nat) : List Char :=
  let digits := Nat.toDigits 10 n
  List.replicate (width - digits.length) '0' ++ digits

/-- A date, in its usual spelling. -/
def date? (cs : List Char) : Option (List Char × List Char) := do
  let (year, cs) ← fixedDigits? 4 cs
  let (month, cs) ← fixedDigits? 2 (← expect? '-' cs)
  let (day, cs) ← fixedDigits? 2 (← expect? '-' cs)
  guard (1 ≤ month && month ≤ 12 && 1 ≤ day && day ≤ daysInMonth year month)
  return (padded 4 year ++ '-' :: padded 2 month ++ '-' :: padded 2 day, cs)

/-- The digits after the point of the seconds: nine at most, and no zeros at
the end. -/
def secondFraction (digits : List Char) : List Char :=
  match ((digits.take 9).reverse.dropWhile (· == '0')).reverse with
  | [] => []
  | digits => '.' :: digits

def time? (cs : List Char) : Option (List Char × List Char) := do
  let (hour, cs) ← fixedDigits? 2 cs
  let (minute, cs) ← fixedDigits? 2 (← expect? ':' cs)
  let (second, cs) ← fixedDigits? 2 (← expect? ':' cs)
  guard (hour ≤ 23 && minute ≤ 59 && second ≤ 60)
  let time := padded 2 hour ++ ':' :: padded 2 minute ++ ':' :: padded 2 second
  match cs with
  | '.' :: cs =>
    let digits := cs.takeWhile Char.isDigit
    guard (!digits.isEmpty)
    return (time ++ secondFraction digits, cs.drop digits.length)
  | cs => return (time, cs)

/-- The distance to universal time, up to the end of the text. -/
def offset? : List Char → Option (List Char)
  | [] => some []
  | ['Z'] => some ['Z']
  | ['z'] => some ['Z']
  | c :: cs => do
    guard (isSign c)
    let (hour, cs) ← fixedDigits? 2 cs
    let (minute, cs) ← fixedDigits? 2 (← expect? ':' cs)
    guard (hour ≤ 23 && minute ≤ 59 && cs.isEmpty)
    let sign := if hour = 0 ∧ minute = 0 then '+' else c
    return sign :: padded 2 hour ++ ':' :: padded 2 minute

/-- A time and an offset, up to the end of the text. -/
def timeAndOffset? (cs : List Char) : Option (List Char) := do
  let (time, cs) ← time? cs
  return time ++ (← offset? cs)

/-- A date, a time, or both of them in one word, in the usual spelling. -/
def dateTime? (cs : List Char) : Option (List Char) :=
  match date? cs with
  | some (date, []) => some date
  | some (date, mark :: rest) => do
    guard (mark == 'T' || mark == 't')
    return date ++ 'T' :: (← timeAndOffset? rest)
  | none => do
    let (time, rest) ← time? cs
    guard rest.isEmpty
    return time

/-! ## All scalars -/

/-- A date or a time is a map with one text under a name of its own. -/
def dateTimeNode (text : List Char) : Node :=
  .map [(.text "$__toml_private_datetime", .text (String.ofList text))]

def isDateWord (cs : List Char) : Bool :=
  match date? cs with
  | some (_, []) => true
  | _ => false

def wordNode? (word : List Char) : Option Node :=
  if word == "true".toList || word == "false".toList || isInteger word || isFloat word then
    some .other
  else (dateTime? word).map dateTimeNode

/-- The scalar that starts here, and the text after it. -/
def read? (cs : List Char) : Option (Node × List Char) :=
  let word := cs.takeWhile isWordChar
  let rest := cs.drop word.length
  match rest with
  | ' ' :: c :: more =>
    if isDateWord word && c.isDigit then do
      let time := (c :: more).takeWhile isWordChar
      let node ← wordNode? (word ++ 'T' :: time)
      return (node, (c :: more).drop time.length)
    else (wordNode? word).map (·, rest)
  | _ => (wordNode? word).map (·, rest)

end Phrasebook.Toml.Scalar
