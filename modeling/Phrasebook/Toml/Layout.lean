-- The layout of a TOML text: blanks, comments and the ends of lines.

namespace Phrasebook.Toml

def isWhite (c : Char) : Bool := c == ' ' || c == '\t'

def skipWhite (cs : List Char) : List Char := cs.dropWhile isWhite

/-- A character that a comment may hold: a tab, or none of the controls. -/
def isCommentChar (c : Char) : Bool := c == '\t' || (0x20 ≤ c.toNat && c.toNat != 0x7F)

/-- What follows the line feed, or the carriage return and the line feed. -/
def lineFeed? : List Char → Option (List Char)
  | '\n' :: rest => some rest
  | '\r' :: '\n' :: rest => some rest
  | _ => none

/-- Skips a comment that starts here. -/
def skipComment : List Char → List Char
  | '#' :: rest => rest.dropWhile isCommentChar
  | cs => cs

/-- The next line, after nothing but blanks and a comment. -/
def lineEnd? (cs : List Char) : Option (List Char) :=
  match skipComment (skipWhite cs) with
  | [] => some []
  | rest => lineFeed? rest

/-- Skips blanks, ends of lines and comments. -/
def skipLayout (inComment : Bool) : List Char → List Char
  | [] => []
  | c :: rest =>
    if inComment && isCommentChar c then skipLayout true rest
    else if isWhite c || c == '\n' || (c == '\r' && rest.head? == some '\n') then
      skipLayout false rest
    else if c == '#' then skipLayout true rest
    else c :: rest

end Phrasebook.Toml
