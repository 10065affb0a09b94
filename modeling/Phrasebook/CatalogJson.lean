-- Catalogs as JSON: the document that reads back as the same catalog.
import Phrasebook.Catalog
import Phrasebook.Json

namespace Phrasebook

def Argument.toJson (a : Argument) : Json :=
  .object [("name", .string a.name), ("type", .string a.type)]

def Localizations.toJson (ls : Localizations) : Json :=
  .object (ls.toList.map fun p => (p.1, .string p.2))

/-- An entry without arguments has no field for them. -/
def Entry.toJson (e : Entry) : Json :=
  .object ([("key", .string e.key), ("localizations", e.localizations.toJson)] ++
    if e.arguments.isEmpty then [] else [("arguments", .array (e.arguments.map Argument.toJson))])

def Catalog.toJson (c : Catalog) : Json :=
  .object [("languages", .array (c.languages.map .string)),
    ("items", .array (c.entries.map Entry.toJson))]

end Phrasebook
