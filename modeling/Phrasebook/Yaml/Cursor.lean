-- Places in a YAML text: what is left of it, and the line and column that
-- the next character stands in. Layout carries meaning here, so every step
-- keeps count.

namespace Phrasebook.Yaml

/-! ## Characters -/

/-- Whether a text may hold the character at all: most controls and the
non-characters are ruled out. -/
def isAllowed (c : Char) : Bool :=
  let n := c.toNat
  n == 0x9 || n == 0xA || n == 0xD || (0x20 ≤ n && n ≤ 0x7E) || n == 0x85 ||
    (0xA0 ≤ n && n ≤ 0xD7FF) || (0xE000 ≤ n && n ≤ 0xFFFD) || 0x10000 ≤ n

def isBreak (c : Char) : Bool :=
  c == '\n' || c == '\r' || c == '\u0085' || c == '\u2028' || c == '\u2029'

def isWhite (c : Char) : Bool := c == ' ' || c == '\t'

/-- The mark for the end of the text, which no text may hold. -/
def endMark : Char := '\x00'

/-- A line break or the end of the text. -/
def isLineEnd (c : Char) : Bool := isBreak c || c == endMark

/-- A blank, a line break or the end of the text. -/
def isGap (c : Char) : Bool := isWhite c || isLineEnd c

/-- A character of names: of anchors, directives and tag handles. -/
def isNameChar (c : Char) : Bool := c.isAlphanum || c == '_' || c == '-'

/-! ## Cursors -/

structure Cursor where
  rest : List Char
  index : Nat
  line : Nat
  column : Nat
  deriving Repr

namespace Cursor

def start (cs : List Char) : Cursor := ⟨cs, 0, 0, 0⟩

/-- The next character. -/
def head (c : Cursor) : Char := c.rest.headD endMark

/-- The character so many places further on. -/
def ahead (c : Cursor) (n : Nat) : Char := (c.rest.drop n).headD endMark

def atEnd (c : Cursor) : Bool := c.rest.isEmpty

/-- Goes over characters that are no line breaks. -/
def advance (c : Cursor) (n : Nat) : Cursor :=
  { c with rest := c.rest.drop n, index := c.index + n, column := c.column + n }

def next (c : Cursor) : Cursor := c.advance 1

def span (p : Char → Bool) (c : Cursor) : List Char × Cursor :=
  let cs := c.rest.takeWhile p
  (cs, c.advance cs.length)

def skipWhile (p : Char → Bool) (c : Cursor) : Cursor := (c.span p).2

/-- Goes over a comment up to the end of its line. -/
def skipComment (c : Cursor) : Cursor :=
  if c.head == '#' then c.skipWhile (!isBreak ·) else c

/-- Goes over a line break and gives the text that it counts as: a line feed,
or one of the two separators of Unicode as it is. -/
def lineBreak (c : Cursor) : List Char × Cursor :=
  let after (n : Nat) (rest : List Char) : Cursor := ⟨rest, c.index + n, c.line + 1, 0⟩
  match c.rest with
  | '\r' :: '\n' :: rest => (['\n'], after 2 rest)
  | b :: rest =>
    if b == '\u2028' || b == '\u2029' then ([b], after 1 rest)
    else if isBreak b then (['\n'], after 1 rest)
    else ([], c)
  | [] => ([], c)

/-- Three dots or hyphens on their own at the start of a line. -/
def atDocumentMark (c : Cursor) : Bool :=
  c.column == 0 && isGap (c.ahead 3) &&
    (c.rest.take 3 == ['-', '-', '-'] || c.rest.take 3 == ['.', '.', '.'])

end Cursor

end Phrasebook.Yaml
