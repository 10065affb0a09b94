-- JSON values as this library writes them, in one line or in indented
-- lines. A string escapes what JSON asks to escape and nothing else.

namespace Phrasebook

inductive Json where
  | string (s : String)
  | array (items : List Json)
  | object (members : List (String × Json))

namespace Json

/-! ## Strings -/

/-- A hexadecimal digit, in lowercase. -/
def hexDigit (n : Nat) : Char := Nat.digitChar n

def escapeChar (c : Char) : List Char :=
  if c = '"' then ['\\', '"']
  else if c = '\\' then ['\\', '\\']
  else if c = '\x08' then ['\\', 'b']
  else if c = '\x0c' then ['\\', 'f']
  else if c = '\n' then ['\\', 'n']
  else if c = '\r' then ['\\', 'r']
  else if c = '\t' then ['\\', 't']
  else if c.toNat < 0x20 then
    ['\\', 'u', '0', '0', hexDigit (c.toNat / 16), hexDigit (c.toNat % 16)]
  else [c]

def stringChars (s : String) : List Char := '"' :: s.toList.flatMap escapeChar ++ ['"']

/-! ## In one line -/

mutual

def compactChars : Json → List Char
  | string s => stringChars s
  | array [] => ['[', ']']
  | array (item :: rest) => '[' :: compactChars item ++ compactItems rest
  | object [] => ['\x7b', '\x7d']
  | object ((key, value) :: rest) =>
    '\x7b' :: stringChars key ++ ':' :: compactChars value ++ compactMembers rest

/-- The items after the first one, and the bracket that closes the array. -/
def compactItems : List Json → List Char
  | [] => [']']
  | item :: rest => ',' :: compactChars item ++ compactItems rest

def compactMembers : List (String × Json) → List Char
  | [] => ['\x7d']
  | (key, value) :: rest =>
    ',' :: stringChars key ++ ':' :: compactChars value ++ compactMembers rest

end

/-- The value without any blanks. -/
def compact (j : Json) : String := String.ofList (compactChars j)

/-! ## In indented lines -/

/-- A line feed, and two blanks for each level. -/
def newLine (depth : Nat) : List Char := '\n' :: List.replicate (2 * depth) ' '

mutual

def prettyChars (depth : Nat) : Json → List Char
  | string s => stringChars s
  | array [] => ['[', ']']
  | array (item :: rest) =>
    '[' :: newLine (depth + 1) ++ prettyChars (depth + 1) item ++ prettyItems depth rest
  | object [] => ['\x7b', '\x7d']
  | object ((key, value) :: rest) =>
    '\x7b' :: newLine (depth + 1) ++ stringChars key ++ ':' :: ' ' ::
      prettyChars (depth + 1) value ++ prettyMembers depth rest

def prettyItems (depth : Nat) : List Json → List Char
  | [] => newLine depth ++ [']']
  | item :: rest =>
    ',' :: newLine (depth + 1) ++ prettyChars (depth + 1) item ++ prettyItems depth rest

def prettyMembers (depth : Nat) : List (String × Json) → List Char
  | [] => newLine depth ++ ['\x7d']
  | (key, value) :: rest =>
    ',' :: newLine (depth + 1) ++ stringChars key ++ ':' :: ' ' ::
      prettyChars (depth + 1) value ++ prettyMembers depth rest

end

/-- The value with one item or member in a line. -/
def pretty (j : Json) : String := String.ofList (prettyChars 0 j)

end Json

end Phrasebook
