-- The Swift file of accessors. The accessors are grouped into namespaces by
-- their keys, and each group is an enum in the place of its first accessor.
import Phrasebook.Accessor
import Phrasebook.StringsTable
import Phrasebook.Text.Blank

namespace Phrasebook

/-! ## Namespaces -/

/-- What a namespace declares: an accessor, or another namespace. -/
inductive Item where
  | accessor (a : Accessor)
  | nested (name : String) (items : List Item)

namespace Item

/-- Changes the first nested namespace with a name, or adds an empty one at
the end and changes that. -/
def updateNested (name : String) (change : List Item → List Item) : List Item → List Item
  | [] => [nested name (change [])]
  | accessor a :: rest => accessor a :: updateNested name change rest
  | nested other items :: rest =>
    if other = name then nested other (change items) :: rest
    else nested other items :: updateNested name change rest

/-- Puts an accessor at the end of the namespace that a path leads to. -/
def insert (a : Accessor) : List String → List Item → List Item
  | [], items => items ++ [accessor a]
  | name :: path, items => updateNested name (insert a path) items

/-- The items of the top namespace, for accessors in the order given. -/
def group (accessors : List Accessor) : List Item :=
  accessors.foldl (fun items a => insert a (namespacePath a.entryKey) items) []

end Item

/-! ## Lines -/

/-- A line of the file: an empty one, or code at a depth. -/
inductive SourceLine where
  | blank
  | code (depth : Nat) (text : String)
  deriving DecidableEq, Repr

namespace SourceLine

/-- Four blanks for each level. -/
def indent (depth : Nat) : String := String.ofList (List.replicate (4 * depth) ' ')

def render : SourceLine → String
  | blank => "\n"
  | code depth text => indent depth ++ text ++ "\n"

end SourceLine

/-! ## Accessors as source -/

/-- A character of a Swift string literal. -/
def escapeLiteralChar (c : Char) : List Char :=
  if c = '\\' then ['\\', '\\'] else if c = '"' then ['\\', '"'] else [c]

/-- A Swift string literal: a backslash goes before each backslash and each
double quote. -/
def stringLiteral (s : String) : String :=
  "\"" ++ String.ofList (s.toList.flatMap escapeLiteralChar) ++ "\""

namespace Accessor

/-- The lines of the documentation on one line. -/
def docLine (a : Accessor) : String :=
  Text.trim (" ".intercalate ((Text.lines a.doc.toList).map String.ofList))

def lookup (table : String) (a : Accessor) : String :=
  "NSLocalizedString(" ++ stringLiteral a.resourceKey ++ ", tableName: " ++ stringLiteral table ++
    ", comment: \"\")"

def parameter (p : String × ArgumentType) : String := escapeKeyword p.1 ++ ": " ++ p.2.name

/-- The line that opens the accessor: a property without arguments, and a
function with them. -/
def signature (a : Accessor) : String :=
  let name := escapeKeyword (memberName a.entryKey)
  if a.arguments.isEmpty then "public static var " ++ name ++ ": String \x7b"
  else
    "public static func " ++ name ++ "(" ++ ", ".intercalate (a.arguments.map parameter) ++
      ") -> String \x7b"

def body (table : String) (a : Accessor) : String :=
  if a.arguments.isEmpty then a.lookup table
  else "String(format: " ++ a.lookup table ++ ", arguments: " ++ a.argumentList ++ ")"

def docLines (depth : Nat) (a : Accessor) : List SourceLine :=
  if a.docLine = "" then [] else [.code depth ("/// " ++ a.docLine)]

def sourceLines (table : String) (depth : Nat) (a : Accessor) : List SourceLine :=
  a.docLines depth ++
    [.code depth a.signature, .code (depth + 1) (a.body table), .code depth "\x7d"]

end Accessor

/-! ## The module -/

namespace Item

/-- The line that opens a namespace. -/
def opening (name : String) : String := "public enum " ++ escapeKeyword name ++ " \x7b"

mutual

def sourceLines (table : String) (depth : Nat) : Item → List SourceLine
  | accessor a => a.sourceLines table depth
  | nested name items =>
    .code depth (opening name) :: bodyLines table (depth + 1) items ++ [.code depth "\x7d"]

/-- The items of a namespace, with an empty line between two of them. -/
def bodyLines (table : String) (depth : Nat) : List Item → List SourceLine
  | [] => []
  | [item] => sourceLines table depth item
  | item :: rest => sourceLines table depth item ++ .blank :: bodyLines table depth rest

end

end Item

/-- The Swift file that declares the accessors. -/
structure AccessorModule where
  /-- The name of the enum around all accessors. -/
  typeName : String
  /-- The name of the tables that the accessors look into. -/
  tableName : String
  accessors : List Accessor
  deriving DecidableEq, Repr

namespace AccessorModule

def header : String := generatedNotice ++ "\nimport Foundation\n\n"

def root (m : AccessorModule) : Item := .nested m.typeName (Item.group m.accessors)

def sourceLines (m : AccessorModule) : List SourceLine := m.root.sourceLines m.tableName 0

def render (m : AccessorModule) : String :=
  header ++ String.join (m.sourceLines.map SourceLine.render)

end AccessorModule

end Phrasebook
