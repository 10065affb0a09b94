-- Formats: the notations that a catalog may be written in.
import Phrasebook.CatalogDocument
import Phrasebook.Json.Reading
import Phrasebook.Text.Blank
import Phrasebook.Toml.Reading
import Phrasebook.Yaml.Reading

namespace Phrasebook

inductive Format where
  | yaml
  | json
  | toml
  deriving DecidableEq, Repr

namespace Format

def name : Format → String
  | yaml => "yaml"
  | json => "json"
  | toml => "toml"

/-- The name of a format as it is compared: without the blanks around it, and
with the ASCII letters in lower case. -/
def plainName (s : String) : String :=
  String.ofList ((Text.trimChars s.toList).map Char.toLower)

/-- The format that a plain name stands for. -/
def ofPlainName? (s : String) : Option Format :=
  if s = "yaml" ∨ s = "yml" then some yaml
  else if s = "json" then some json
  else if s = "toml" then some toml
  else none

def ofName? (s : String) : Option Format := ofPlainName? (plainName s)

/-- What a text says in a format. -/
def document : Format → String → Document
  | yaml => Yaml.read
  | json => Json.read
  | toml => Toml.read

/-- The catalog that a text holds. -/
def catalog (format : Format) (text : String) : Except DecodeError Catalog :=
  Catalog.ofDocument (format.document text)

end Format

end Phrasebook
