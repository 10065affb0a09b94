-- Tables of Apple `.strings` files: for each language the resource keys
-- with their values. Keys and values are written as they are, so escaping
-- is up to the author of the catalog.
import Phrasebook.Text.Quoted

namespace Phrasebook

structure StringsPair where
  key : String
  value : String
  deriving DecidableEq, Repr

/-- A pair as it stands in the file. -/
def StringsPair.line (p : StringsPair) : String :=
  Text.inQuotes p.key ++ " = " ++ Text.inQuotes p.value ++ ";"

structure StringsTable where
  language : String
  pairs : List StringsPair
  deriving DecidableEq, Repr

/-- The two lines that open every generated file. -/
def generatedNotice : String :=
  "// This file is automatically generated by langgen.\n" ++
    "// Do not edit it manually, as your changes will be overwritten.\n"

namespace StringsTable

/-- The first pair with a key. -/
def findPair? (t : StringsTable) (key : String) : Option StringsPair :=
  t.pairs.find? (·.key == key)

def header (language : String) : String :=
  generatedNotice ++ "//\n//: Language: " ++ language ++ "\n//\n\n"

/-- The whole file: the header, then one pair after the other. -/
def render (t : StringsTable) : String :=
  header t.language ++ String.join (t.pairs.map (·.line ++ "\n"))

end StringsTable

end Phrasebook
