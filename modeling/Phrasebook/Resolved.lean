-- Catalogs that passed every check. The types of the arguments are known,
-- and every placeholder is bound to the argument it names, so that no
-- lookup can fail from here on.
import Phrasebook.Catalog
import Phrasebook.Template

namespace Phrasebook

structure TypedArgument where
  name : String
  type : ArgumentType
  deriving DecidableEq, Repr

/-- A part of a resolved template. A placeholder knows the argument it stands
for and the place of that argument, counted from 0. -/
inductive ResolvedPiece where
  | literal (c : Char)
  | argument (place : Nat) (declared : TypedArgument)
  deriving DecidableEq, Repr

namespace ResolvedPiece

/-- The piece of the template that was resolved. -/
def unresolved : ResolvedPiece → Piece
  | literal c => .literal c
  | argument _ declared => .reference declared.name.toList

/-- Plain text stays as it is, and a placeholder becomes the positional
specifier of its argument. -/
def output : ResolvedPiece → List Char
  | literal c => [c]
  | argument place declared => (declared.type.positionalSpecifier (place + 1)).toList

end ResolvedPiece

/-! ## Templates -/

structure ResolvedTemplate where
  language : String
  source : String
  pieces : List ResolvedPiece
  deriving DecidableEq, Repr

/-- A placeholder as it stands in a template: the UTF-8 offsets of its two
ends and the place of its argument, counted from 0. -/
structure BoundPlaceholder where
  start : Nat
  stop : Nat
  place : Nat
  deriving DecidableEq, Repr

namespace ResolvedTemplate

def locate : Nat → List ResolvedPiece → List BoundPlaceholder
  | _, [] => []
  | offset, .literal c :: rest => locate (offset + (Piece.literal c).width) rest
  | offset, .argument place declared :: rest =>
    let stop := offset + (ResolvedPiece.argument place declared).unresolved.width
    ⟨offset, stop, place⟩ :: locate stop rest

/-- The placeholders of a template, from left to right. -/
def placeholders (t : ResolvedTemplate) : List BoundPlaceholder := locate 0 t.pieces

/-- The value of the resource table. -/
def value (t : ResolvedTemplate) : String :=
  String.ofList (t.pieces.flatMap ResolvedPiece.output)

end ResolvedTemplate

/-! ## Entries -/

/-- An entry with one template for each declared language, in the declared
order. -/
structure ResolvedEntry where
  key : String
  arguments : List TypedArgument
  templates : List ResolvedTemplate
  deriving DecidableEq, Repr

namespace ResolvedEntry

def template? (e : ResolvedEntry) (language : String) : Option ResolvedTemplate :=
  e.templates.find? (·.language == language)

/-- The value of the entry in the table of a language, if the language is
declared. -/
def value? (e : ResolvedEntry) (language : String) : Option String :=
  (e.template? language).map ResolvedTemplate.value

/-- The key of the entry in every table: the key of the catalog and the bare
specifiers of the arguments, with single blanks between them. -/
def resourceKey (e : ResolvedEntry) : String :=
  " ".intercalate (e.key :: e.arguments.map (·.type.bareSpecifier))

/-- The names of the arguments in brackets, each passed through a function. -/
def argumentListWith (render : String → String) (e : ResolvedEntry) : String :=
  "[" ++ ", ".intercalate (e.arguments.map (render ·.name)) ++ "]"

def argumentList (e : ResolvedEntry) : String := e.argumentListWith id

end ResolvedEntry

/-! ## Catalogs -/

structure ResolvedCatalog where
  languages : List String
  entries : List ResolvedEntry
  deriving DecidableEq, Repr

end Phrasebook
