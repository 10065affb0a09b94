-- Blank characters: the ones that trimming takes off the ends of a text,
-- and the lines that a text falls into.

namespace Phrasebook.Text

/-! ## Blanks -/

/-- The characters with the Unicode property `White_Space`. -/
def isBlank (c : Char) : Bool :=
  let n := c.toNat
  (0x9 ≤ n && n ≤ 0xD) || n == 0x20 || n == 0x85 || n == 0xA0 || n == 0x1680 ||
    (0x2000 ≤ n && n ≤ 0x200A) || n == 0x2028 || n == 0x2029 || n == 0x202F || n == 0x205F ||
    n == 0x3000

def trimChars (cs : List Char) : List Char :=
  ((cs.dropWhile isBlank).reverse.dropWhile isBlank).reverse

/-- The text without the blanks at its two ends. -/
def trim (s : String) : String := String.ofList (trimChars s.toList)

/-- No character but blanks. -/
def isBlankText (s : String) : Bool := s.toList.all isBlank

/-! ## Lines -/

/-- Drops one carriage return from the end. -/
def dropReturn (line : List Char) : List Char :=
  if line.getLast? = some '\r' then line.dropLast else line

/-- The lines of a list of pieces that line feeds separate. The last piece
counts only when it holds something, and keeps its carriage return. -/
def linesOf : List (List Char) → List (List Char)
  | [] => []
  | [last] => if last.isEmpty then [] else [last]
  | line :: rest => dropReturn line :: linesOf rest

/-- The lines of a text. A line ends at a line feed, or at a carriage
return and a line feed; a carriage return alone stays in its line. -/
def lines (cs : List Char) : List (List Char) := linesOf (cs.splitOn '\n')

end Phrasebook.Text
