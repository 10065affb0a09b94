-- The scalars of YAML: plain, quoted, and blocks of lines. Each reads its
-- text and folds its line breaks. The number that a loop takes bounds its
-- steps; the length of the text is never too small for it.
import Phrasebook.Json.Reading
import Phrasebook.Yaml.Cursor

namespace Phrasebook.Yaml.Scalar

/-- The text of a scalar, and the place after it. -/
abbrev Reading := Option (List Char × Cursor)

/-! ## Folding -/

/-- The gap between two words of a scalar: the blanks of one line, or line
breaks. -/
structure Gap where
  blanks : List Char
  /-- The first line break, if there is one. -/
  first : List Char
  /-- The line breaks after the first. -/
  others : List Char
  broken : Bool

def Gap.none : Gap := ⟨[], [], [], false⟩

/-- Reads a gap. Blanks after a line break do not count. -/
def gap : Nat → Gap → Cursor → Gap × Cursor
  | 0, g, c => (g, c)
  | fuel + 1, g, c =>
    if isWhite c.head then
      gap fuel (if g.broken then g else { g with blanks := g.blanks ++ [c.head] }) c.next
    else if isBreak c.head then
      let (feed, c) := c.lineBreak
      gap fuel
        (if g.broken then { g with others := g.others ++ feed }
          else { g with blanks := [], first := feed, broken := true })
        c
    else (g, c)

/-- What a gap counts as: its blanks, one blank for a single line feed, or the
line breaks without the first line feed. -/
def Gap.text (g : Gap) : List Char :=
  if !g.broken then g.blanks
  else if g.first == ['\n'] then if g.others.isEmpty then [' '] else g.others
  else g.first ++ g.others

/-! ## Quoted scalars -/

/-- Characters up to the next blank, line break or closing single quote. -/
def singleWord : List Char → Cursor → List Char × Cursor
  | [], c => ([], c)
  | '\'' :: '\'' :: rest, c =>
    let (word, c) := singleWord rest (c.advance 2)
    ('\'' :: word, c)
  | a :: rest, c =>
    if a == '\'' || isGap a then ([], c)
    else
      let (word, c) := singleWord rest c.next
      (a :: word, c)

def single : Nat → List Char → Cursor → Reading
  | 0, _, _ => none
  | fuel + 1, read, c =>
    if c.atDocumentMark || c.atEnd then none
    else
      let (word, c) := singleWord c.rest c
      if c.head == '\'' then some (read ++ word, c.next)
      else
        let (g, c) := gap fuel .none c
        single fuel (read ++ word ++ g.text) c

/-- The character of an escape of two characters. -/
def shortEscape? (c : Char) : Option Char :=
  if c == '0' then some '\x00'
  else if c == 'a' then some '\x07'
  else if c == 'b' then some '\x08'
  else if c == 't' || c == '\t' then some '\t'
  else if c == 'n' then some '\n'
  else if c == 'v' then some '\x0b'
  else if c == 'f' then some '\x0c'
  else if c == 'r' then some '\r'
  else if c == 'e' then some '\x1b'
  else if c == ' ' || c == '"' || c == '/' || c == '\\' then some c
  else if c == 'N' then some '\u0085'
  else if c == '_' then some '\u00a0'
  else if c == 'L' then some '\u2028'
  else if c == 'P' then some '\u2029'
  else none

/-- The number of hexadecimal digits after the letter of an escape. -/
def hexEscapeLength? (c : Char) : Option Nat :=
  if c == 'x' then some 2
  else if c == 'u' then some 4
  else if c == 'U' then some 8
  else none

def hexChar? (digits : List Char) : Option Char := do
  let values ← digits.mapM Json.hexValue?
  let n := values.foldl (fun n d => n * 16 + d) 0
  if n.isValidChar then some (Char.ofNat n) else none

/-- The character of the escape after a backslash, and the number of its
characters, backslash included. -/
def escape? (c : Cursor) : Option (Char × Nat) :=
  match hexEscapeLength? (c.ahead 1) with
  | some count =>
    let digits := (c.rest.drop 2).take count
    if digits.length == count then (hexChar? digits).map (·, count + 2) else none
  | none => (shortEscape? (c.ahead 1)).map (·, 2)

/-- Characters up to the next blank, line break or closing double quote. A
backslash before a line break ends the word too, and the flag tells of it. -/
def doubleWord : Nat → Cursor → Option (List Char × Bool × Cursor)
  | 0, _ => none
  | fuel + 1, c =>
    if c.head == '"' || isGap c.head then some ([], false, c)
    else if c.head == '\\' && isBreak (c.ahead 1) then some ([], true, c.next.lineBreak.2)
    else do
      let (char, count) ← if c.head == '\\' then escape? c else some (c.head, 1)
      let (word, joined, c) ← doubleWord fuel (c.advance count)
      return (char :: word, joined, c)

def double : Nat → List Char → Cursor → Reading
  | 0, _, _ => none
  | fuel + 1, read, c =>
    if c.atDocumentMark || c.atEnd then none
    else do
      let (word, joined, c) ← doubleWord fuel c
      if c.head == '"' then return (read ++ word, c.next)
      let (g, c) := gap fuel { Gap.none with broken := joined } c
      double fuel (read ++ word ++ g.text) c

/-- The quoted scalar that starts here. -/
def quoted (isSingle : Bool) (fuel : Nat) (c : Cursor) : Reading :=
  if isSingle then single fuel [] c.next else double fuel [] c.next

/-! ## Plain scalars -/

def isFlowMark (c : Char) : Bool := c == ',' || c == '[' || c == ']' || c == '\x7b' || c == '\x7d'

/-- Characters up to the next gap or mark. In a collection with brackets a
colon may not stand before a mark of the collection. -/
def plainWord (inFlow : Bool) : List Char → Cursor → Reading
  | [], c => some ([], c)
  | a :: rest, c =>
    let following := rest.headD endMark
    if isGap a then some ([], c)
    else if inFlow && a == ':' && (isFlowMark following || following == '?') then none
    else if (a == ':' && isGap following) || (inFlow && isFlowMark a) then some ([], c)
    else do
      let (word, c) ← plainWord inFlow rest c.next
      return (a :: word, c)

/-- A tab before the indentation of a scalar that goes on in a further line. -/
def hasTabIndent (indent : Nat) : Nat → Bool → Cursor → Bool
  | 0, _, _ => false
  | fuel + 1, broken, c =>
    if isWhite c.head then
      (broken && c.column < indent && c.head == '\t') || hasTabIndent indent fuel broken c.next
    else if isBreak c.head then hasTabIndent indent fuel true c.lineBreak.2
    else false

/-- A plain scalar, with the text so far and the gap that goes before a further
word. The flag tells whether the scalar ends on a later line than its text. -/
def plain (inFlow : Bool) (indent : Nat) :
    Nat → List Char → Gap → Cursor → Option (List Char × Bool × Cursor)
  | 0, _, _, _ => none
  | fuel + 1, read, g, c =>
    if c.atDocumentMark || c.head == '#' then some (read, g.broken, c)
    else do
      let (word, c) ← plainWord inFlow c.rest c
      let read := if word.isEmpty then read else read ++ g.text ++ word
      let g := if word.isEmpty then g else .none
      if !(isWhite c.head || isBreak c.head) then return (read, g.broken, c)
      if hasTabIndent indent fuel g.broken c then none
      let (g, c) := gap fuel g c
      if !inFlow && c.column < indent then return (read, g.broken, c)
      plain inFlow indent fuel read g c

/-! ## Blocks of lines -/

/-- What a block does with the line breaks at its end. -/
inductive Chomping where
  | clip
  | strip
  | keep
  deriving DecidableEq, Repr

/-- The header of a block: its chomping, and how far it is indented. -/
structure BlockHeader where
  chomping : Chomping
  increment : Nat

def chomping? (c : Char) : Option Chomping :=
  if c == '+' then some .keep else if c == '-' then some .strip else none

/-- The two indicators of a header, in either order. A zero is none. -/
def blockHeader? (c : Cursor) : Option (BlockHeader × Cursor) :=
  let digit (c : Char) : Nat := c.toNat - 48
  match chomping? c.head with
  | some chomping =>
    let c := c.next
    if c.head == '0' then none
    else if c.head.isDigit then some (⟨chomping, digit c.head⟩, c.next)
    else some (⟨chomping, 0⟩, c)
  | none =>
    if c.head == '0' then none
    else if c.head.isDigit then
      match chomping? (c.ahead 1) with
      | some chomping => some (⟨chomping, digit c.head⟩, c.advance 2)
      | none => some (⟨.clip, digit c.head⟩, c.next)
    else some (⟨.clip, 0⟩, c)

/-- Skips the indentation of lines that hold nothing else, and collects their
line breaks. An indentation of 0 is not known yet; the widest one is told. A
tab may not stand in the indentation. -/
def blockBreaks (indent : Nat) :
    Nat → Nat → List Char → Cursor → Option (Nat × List Char × Cursor)
  | 0, _, _, _ => none
  | fuel + 1, widest, feeds, c =>
    let blanks := (c.rest.takeWhile (· == ' ')).length
    let c := c.advance (if indent == 0 then blanks else min blanks (indent - c.column))
    let widest := max widest c.column
    if (indent == 0 || c.column < indent) && c.head == '\t' then none
    else if isBreak c.head then
      let (feed, c) := c.lineBreak
      blockBreaks indent fuel widest (feeds ++ feed) c
    else some (widest, feeds, c)

/-- The lines of a block: the text so far, the line break after its last line,
the empty lines after that, and whether the last line started with a blank. -/
structure BlockLines where
  read : List Char
  last : List Char
  empty : List Char
  blank : Bool

/-- The text of a block up to the start of a next line. Only between two lines
that start with no blank is a line feed folded. -/
def BlockLines.joined (b : BlockLines) (isLiteral blank : Bool) : List Char :=
  if !isLiteral && b.last == ['\n'] && !b.blank && !blank then
    b.read ++ (if b.empty.isEmpty then [' '] else []) ++ b.empty
  else b.read ++ b.last ++ b.empty

def blockLines (isLiteral : Bool) (indent : Nat) :
    Nat → BlockLines → Cursor → Option (BlockLines × Cursor)
  | 0, _, _ => none
  | fuel + 1, b, c =>
    if c.column == indent && !c.atEnd then do
      let blank := isWhite c.head
      let (line, c) := c.span (!isBreak ·)
      let read := b.joined isLiteral blank ++ line
      let (last, c) := c.lineBreak
      let (_, empty, c) ← blockBreaks indent fuel 0 [] c
      blockLines isLiteral indent fuel ⟨read, last, empty, blank⟩ c
    else some (b, c)

/-- The block scalar that starts here, inside a collection at an indentation,
which is -1 at the top. -/
def block (isLiteral : Bool) (parent : Int) (fuel : Nat) (c : Cursor) : Reading := do
  let (header, c) ← blockHeader? c.next
  let c := (c.skipWhile isWhite).skipComment
  if !isLineEnd c.head then none
  let c := c.lineBreak.2
  let known := if header.increment == 0 then 0 else (max parent 0).toNat + header.increment
  let (widest, empty, c) ← blockBreaks known fuel 0 [] c
  let indent := if known == 0 then max widest (max (parent + 1).toNat 1) else known
  let (b, c) ← blockLines isLiteral indent fuel ⟨[], [], empty, false⟩ c
  match header.chomping with
  | .strip => return (b.read, c)
  | .clip => return (b.read ++ b.last, c)
  | .keep => return (b.read ++ b.last ++ b.empty, c)

end Phrasebook.Yaml.Scalar
