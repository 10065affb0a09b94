-- Names of the generated files: a table for each language in a directory of
-- its own, and one Swift file.
import Phrasebook.Path

namespace Phrasebook

structure Naming where
  /-- The name of the tables, which the accessors look into as well. -/
  tableName : String := "Localizable"
  /-- The name of the enum around all accessors. -/
  typeName : String := "Localization"
  deriving DecidableEq, Repr

namespace Naming

/-- The path of a table, such as `out/en.lproj/Localizable.strings`. -/
def tablePath (n : Naming) (directory language : String) : String :=
  Path.join (Path.join directory (language ++ ".lproj")) (n.tableName ++ ".strings")

/-- The path of the Swift file, such as `out/Localization.swift`. -/
def modulePath (n : Naming) (directory : String) : String :=
  Path.join directory (n.typeName ++ ".swift")

end Naming

end Phrasebook
