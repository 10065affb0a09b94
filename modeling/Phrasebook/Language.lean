-- Language codes such as `en`, `pt-BR` or `zh_Hans_CN`: a language, then
-- at most one script, then at most one region, then any variants. Case is
-- free, and a hyphen and an underscore both part two subtags.

namespace Phrasebook.Language

/-! ## Subtags -/

/-- Two, three, or five to eight letters. -/
def isLanguage (tag : List Char) : Bool :=
  tag.all Char.isAlpha &&
    (tag.length == 2 || tag.length == 3 || (5 ≤ tag.length && tag.length ≤ 8))

/-- Four letters. -/
def isScript (tag : List Char) : Bool := tag.all Char.isAlpha && tag.length == 4

/-- Two letters or three digits. -/
def isRegion (tag : List Char) : Bool :=
  (tag.all Char.isAlpha && tag.length == 2) || (tag.all Char.isDigit && tag.length == 3)

def isAsciiGraph (c : Char) : Bool := c.toNat != 0 && c.toNat < 128

/-- Five to eight letters and digits, or four ASCII characters. Of the four,
either the first is a digit and the others are free, or the first is free and
the others are letters and digits. -/
def isVariant (tag : List Char) : Bool :=
  (tag.all Char.isAlphanum && 5 ≤ tag.length && tag.length ≤ 8) ||
    match tag with
    | [a, b, c, d] =>
      tag.all isAsciiGraph && (a.isDigit || (b.isAlphanum && c.isAlphanum && d.isAlphanum))
    | _ => false

/-! ## Codes -/

def areVariants (tags : List (List Char)) : Bool := tags.all isVariant

/-- What may follow the script: a region and variants. -/
def isRegionTail : List (List Char) → Bool
  | [] => true
  | tag :: rest => (isRegion tag || isVariant tag) && areVariants rest

/-- What may follow the language: a script, a region and variants. -/
def isLanguageTail : List (List Char) → Bool
  | [] => true
  | tag :: rest => if isScript tag then isRegionTail rest else isRegionTail (tag :: rest)

def isSubtagMark (c : Char) : Bool := c == '-' || c == '_'

/-- A language and what may follow it. -/
def isLanguageIdentifier (code : String) : Bool :=
  match code.toList.splitOnP isSubtagMark with
  | [] => false
  | tag :: rest => isLanguage tag && isLanguageTail rest

/-- The code of the base resources, which belong to no language. -/
def base : String := "Base"

/-- `Base`, or a language identifier. -/
def isCode (code : String) : Bool := code == base || isLanguageIdentifier code

end Phrasebook.Language
