-- Identifiers, and the dotted paths that entry keys are. The letters and
-- digits are the ASCII ones only, so that an identifier is one in the
-- generated source as well.

namespace Phrasebook

/-- A letter or an underscore. -/
def isIdentifierStart (c : Char) : Bool := c.isAlpha || c == '_'

def isIdentifierPart (c : Char) : Bool := c.isAlphanum || c == '_'

def isIdentifierChars : List Char → Bool
  | [] => false
  | c :: rest => isIdentifierStart c && rest.all isIdentifierPart

/-- One letter or underscore, then letters, digits and underscores. -/
def isIdentifier (s : String) : Bool := isIdentifierChars s.toList

/-- The parts of a key between its dots. -/
def segments (key : String) : List String :=
  (key.toList.splitOn '.').map String.ofList

/-- One or more identifiers joined by dots. -/
def isIdentifierPath (s : String) : Bool := (segments s).all isIdentifier

end Phrasebook
