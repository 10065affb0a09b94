-- Reading TOML, line by line: comments, headers, and keys with their
-- values. A text that breaks the rules anywhere says nothing at all.
import Phrasebook.Toml.Quoted
import Phrasebook.Toml.Scalar
import Phrasebook.Toml.Table

namespace Phrasebook.Toml

/-! ## Keys -/

/-- Collections, and the parts of a key, may go this deep and no deeper. -/
def depthLimit : Nat := 80

def isBareKeyChar (c : Char) : Bool := c.isAlphanum || c == '_' || c == '-'

/-- One part of a key: a string of one line, or a bare word. -/
def simpleKey? : List Char → Option (String × List Char)
  | '"' :: rest => (Quoted.basic rest).map fun (cs, rest) => (String.ofList cs, rest)
  | '\'' :: rest => (Quoted.literal rest).map fun (cs, rest) => (String.ofList cs, rest)
  | cs =>
    let word := cs.takeWhile isBareKeyChar
    if word.isEmpty then none else some (String.ofList word, cs.drop word.length)

/-- The parts of a key with dots between them. The number bounds the parts. -/
def keyParts? : Nat → List Char → Option (List String × List Char)
  | 0, _ => none
  | fuel + 1, cs => do
    let (part, rest) ← simpleKey? (skipWhite cs)
    match skipWhite rest with
    | '.' :: rest =>
      let (parts, rest) ← keyParts? fuel rest
      return (part :: parts, rest)
    | rest => return ([part], rest)

def key? (cs : List Char) : Option (List String × List Char) := keyParts? (depthLimit - 1) cs

/-! ## Values -/

mutual

/-- One value, at a depth of collections. The number bounds the steps, and one
above twice the length of the text never ends a reading. -/
def value? (depth : Nat) : Nat → List Char → Option (Node × List Char)
  | 0, _ => none
  | fuel + 1, cs =>
    match cs with
    | '[' :: rest =>
      if depth + 1 < depthLimit then do
        let (items, rest) ← items? (depth + 1) fuel rest
        return (.list items, rest)
      else none
    | '\x7b' :: rest =>
      if depth + 1 < depthLimit then
        match skipWhite rest with
        | '\x7d' :: rest => some (.map [], rest)
        | rest => do
          let (members, rest) ← inlineMembers? (depth + 1) fuel [] rest
          return (.map (Item.memberNodes members), rest)
      else none
    | c :: _ =>
      if c = '"' ∨ c = '\'' then
        (Quoted.string cs).map fun (text, rest) => (.text (String.ofList text), rest)
      else Scalar.read? cs
    | [] => none

/-- The items of an array up to the closing bracket. A comma may follow the
last one. -/
def items? (depth : Nat) : Nat → List Char → Option (List Node × List Char)
  | 0, _ => none
  | fuel + 1, cs =>
    match skipLayout false cs with
    | ']' :: rest => some ([], rest)
    | cs => do
      let (item, rest) ← value? depth fuel cs
      match skipLayout false rest with
      | ']' :: rest => return ([item], rest)
      | ',' :: rest =>
        let (items, rest) ← items? depth fuel rest
        return (item :: items, rest)
      | _ => none

/-- The members of an inline table up to the closing brace, added to the ones
before them. -/
def inlineMembers? (depth : Nat) : Nat → Members → List Char → Option (Members × List Char)
  | 0, _, _ => none
  | fuel + 1, members, cs => do
    let (key, rest) ← key? cs
    let rest ← Scalar.expect? '=' rest
    let (node, rest) ← value? depth fuel (skipWhite rest)
    let name ← key.getLast?
    let members ← members.addDotted name (.value node) key.dropLast
    match skipWhite rest with
    | '\x7d' :: rest => return (members, rest)
    | ',' :: rest => inlineMembers? depth fuel members rest
    | _ => none

end

/-! ## Lines -/

/-- A key with its value, up to the end of the line. -/
def keyValueLine? (t : Tables) (cs : List Char) : Option (Tables × List Char) := do
  let (key, rest) ← key? cs
  let rest ← Scalar.expect? '=' rest
  let cs := skipWhite rest
  let (node, rest) ← value? 0 (2 * cs.length + 2) cs
  let rest ← lineEnd? rest
  return (← t.keyValue key node, rest)

/-- A header, up to the end of the line. -/
def headerLine? (t : Tables) : List Char → Option (Tables × List Char)
  | '[' :: '[' :: rest => do
    let (path, rest) ← key? rest
    let rest ← lineEnd? (← Scalar.expect? ']' (← Scalar.expect? ']' rest))
    return (← t.arrayHeader path, rest)
  | '[' :: rest => do
    let (path, rest) ← key? rest
    let rest ← lineEnd? (← Scalar.expect? ']' rest)
    return (← t.header path, rest)
  | _ => none

def line? (t : Tables) (cs : List Char) : Option (Tables × List Char) :=
  match cs with
  | '[' :: _ => headerLine? t cs
  | '#' :: _ | '\n' :: _ | '\r' :: _ => (lineEnd? cs).map (t, ·)
  | _ => keyValueLine? t cs

/-- All lines. The number bounds them, and the length of the text is never too
small. -/
def lines? : Nat → Tables → List Char → Option Tables
  | fuel, t, cs =>
    match skipWhite cs with
    | [] => some t
    | cs =>
      match fuel with
      | 0 => none
      | fuel + 1 => do
        let (t, rest) ← line? t cs
        lines? fuel t rest

def byteOrderMark : Char := '\ufeff'

/-- The text without one byte order mark at its start. -/
def withoutMark : List Char → List Char
  | c :: rest => if c = byteOrderMark then rest else c :: rest
  | [] => []

def root? (cs : List Char) : Option Members := do
  let tables ← lines? (cs.length + 1) .empty (withoutMark cs)
  tables.close

/-- The document that a TOML text says. -/
def read (s : String) : Document :=
  match root? s.toList with
  | some members => ⟨.map (Item.memberNodes members), [], .surplus, true⟩
  | none => ⟨.cut, [], .surplus, true⟩

end Phrasebook.Toml
