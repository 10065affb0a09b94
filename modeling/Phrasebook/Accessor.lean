-- Accessors of the generated Swift module: one for each entry, under the
-- namespaces that the dots of its key name.
import Phrasebook.ArgumentType
import Phrasebook.Identifier
import Phrasebook.Text.Uppercase

namespace Phrasebook

/-! ## Names -/

/-- Words of Swift that are no identifiers unless backticks enclose them. -/
def swiftKeywords : List String :=
  ["Any", "Protocol", "Self", "Type", "as", "associatedtype", "break", "case", "catch", "class",
  "continue", "default", "defer", "deinit", "do", "else", "enum", "extension", "fallthrough",
  "false", "fileprivate", "for", "func", "guard", "if", "import", "in", "init", "inout",
  "internal", "is", "let", "nil", "open", "operator", "private", "protocol", "public", "repeat",
  "rethrows", "return", "self", "static", "struct", "subscript", "super", "switch", "throw",
  "throws", "true", "try", "typealias", "var", "where", "while"]

/-- The name as Swift declares it: a keyword in backticks, and any other name
as it is. -/
def escapeKeyword (name : String) : String :=
  if swiftKeywords.contains name then "`" ++ name ++ "`" else name

/-- The name of the namespace of a segment, such as `Home` for `home`. -/
def namespaceName (segment : String) : String := Text.capitalize segment

/-- The names of the namespaces that a key stands in, from the outermost. -/
def namespacePath (key : String) : List String := (segments key).dropLast.map namespaceName

/-- The last segment of a key, which is the name of its accessor. -/
def memberName (key : String) : String := (segments key).getLastD key

/-! ## Accessors -/

/-- What the generated source of one accessor is made of. -/
structure Accessor where
  entryKey : String
  resourceKey : String
  arguments : List (String × ArgumentType)
  /-- The names of the arguments in brackets, as the call passes them on. -/
  argumentList : String
  /-- The text that documents the accessor. -/
  doc : String
  deriving DecidableEq, Repr

end Phrasebook
