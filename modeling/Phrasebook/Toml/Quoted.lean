-- The strings of TOML: basic ones with escapes, literal ones without, and
-- of each kind one that goes over several lines. All of them are read from
-- the character after the opening quote or quotes.
import Phrasebook.Json.Reading
import Phrasebook.Toml.Layout

namespace Phrasebook.Toml.Quoted

/-- The characters of a string, and the text after the closing quote. -/
abbrev Reading := Option (List Char × List Char)

def prepend (c : Char) : Reading → Reading
  | some (cs, rest) => some (c :: cs, rest)
  | none => none

/-! ## Escapes -/

def shortEscape? (c : Char) : Option Char :=
  if c = '"' ∨ c = '\\' then some c
  else if c = 'b' then some '\x08'
  else if c = 'f' then some '\x0c'
  else if c = 'n' then some '\n'
  else if c = 'r' then some '\r'
  else if c = 't' then some '\t'
  else none

/-- The character with a code point. -/
def char? (n : Nat) : Option Char := if n.isValidChar then some (Char.ofNat n) else none

/-! ## Strings of one line -/

def basic : List Char → Reading
  | [] => none
  | '"' :: rest => some ([], rest)
  | '\\' :: 'u' :: a :: b :: c :: d :: rest => do
    let char ← char? (← Json.unit? a b c d)
    prepend char (basic rest)
  | '\\' :: 'U' :: a :: b :: c :: d :: e :: f :: g :: h :: rest => do
    let char ← char? ((← Json.unit? a b c d) * 0x10000 + (← Json.unit? e f g h))
    prepend char (basic rest)
  | '\\' :: e :: rest => do
    let char ← shortEscape? e
    prepend char (basic rest)
  | c :: rest => if isCommentChar c then prepend c (basic rest) else none

def literal : List Char → Reading
  | [] => none
  | c :: rest =>
    if c = '\'' then some ([], rest)
    else if isCommentChar c then prepend c (literal rest)
    else none

/-! ## Strings of several lines -/

/-- After three closing quotes: one or two more of them belong to the string. -/
def closing (quote : Char) : List Char → List Char × List Char
  | a :: b :: rest =>
    if a = quote ∧ b = quote then ([quote, quote], rest)
    else if a = quote then ([quote], b :: rest)
    else ([], a :: b :: rest)
  | [a] => if a = quote then ([quote], []) else ([], [a])
  | [] => ([], [])

/-- A line feed right after the opening quotes does not count. -/
def dropFirstFeed (cs : List Char) : List Char := (lineFeed? cs).getD cs

/-- A backslash at the end of a line takes away all blanks and line feeds up
to the next other character. -/
def isLineJoin (afterBackslash : List Char) : Bool := (lineFeed? (skipWhite afterBackslash)).isSome

/-- The string, with a flag that holds while a joined line is skipped. -/
def basicLines (joining : Bool) : List Char → Reading
  | [] => none
  | '"' :: '"' :: '"' :: rest => some (closing '"' rest)
  | '\\' :: 'u' :: a :: b :: c :: d :: rest => do
    let char ← char? (← Json.unit? a b c d)
    prepend char (basicLines false rest)
  | '\\' :: 'U' :: a :: b :: c :: d :: e :: f :: g :: h :: rest => do
    let char ← char? ((← Json.unit? a b c d) * 0x10000 + (← Json.unit? e f g h))
    prepend char (basicLines false rest)
  | '\\' :: c :: rest =>
    if isLineJoin (c :: rest) then basicLines true (c :: rest)
    else do
      let char ← shortEscape? c
      prepend char (basicLines false rest)
  | '\r' :: '\n' :: rest =>
    if joining then basicLines true rest else prepend '\n' (basicLines false rest)
  | c :: rest =>
    if joining && (isWhite c || c == '\n') then basicLines true rest
    else if c == '\n' || isCommentChar c then prepend c (basicLines false rest)
    else none

def literalLines : List Char → Reading
  | [] => none
  | '\'' :: '\'' :: '\'' :: rest => some (closing '\'' rest)
  | '\r' :: '\n' :: rest => prepend '\n' (literalLines rest)
  | c :: rest => if c == '\n' || isCommentChar c then prepend c (literalLines rest) else none

/-! ## All strings -/

/-- The string that starts here with its opening quotes. -/
def string : List Char → Reading
  | '"' :: '"' :: '"' :: rest => basicLines false (dropFirstFeed rest)
  | '"' :: rest => basic rest
  | '\'' :: '\'' :: '\'' :: rest => literalLines (dropFirstFeed rest)
  | '\'' :: rest => literal rest
  | _ => none

end Phrasebook.Toml.Quoted
