-- Generation: the tables and the accessors of a resolved catalog. Nothing
-- can fail here, and the order is that of the catalog throughout.
import Phrasebook.AccessorModule
import Phrasebook.Error
import Phrasebook.Naming
import Phrasebook.Validation

namespace Phrasebook

/-! ## Entries -/

/-- The accessor of an entry. Its documentation is the template of the first
language. -/
def ResolvedEntry.accessor (e : ResolvedEntry) : Accessor where
  entryKey := e.key
  resourceKey := e.resourceKey
  arguments := e.arguments.map fun a => (a.name, a.type)
  argumentList := e.argumentListWith escapeKeyword
  doc := (e.templates.head?.map (·.source)).getD ""

/-- The row of an entry in the table of a language. -/
def ResolvedEntry.row? (language : String) (e : ResolvedEntry) : Option StringsPair :=
  (e.value? language).map (⟨e.resourceKey, ·⟩)

namespace ResolvedCatalog

/-! ## Tables -/

/-- The rows of a language, one for each entry. There are none if an entry
lacks the language. -/
def rows? (c : ResolvedCatalog) (language : String) : Option (List StringsPair) :=
  c.entries.mapM (·.row? language)

/-- The table of a language, if the language is declared. -/
def table? (c : ResolvedCatalog) (language : String) : Option StringsTable :=
  if c.languages.contains language then (c.rows? language).map (⟨language, ·⟩) else none

def tables (c : ResolvedCatalog) : List StringsTable := c.languages.filterMap c.table?

/-! ## Accessors -/

def accessors (c : ResolvedCatalog) : List Accessor := c.entries.map ResolvedEntry.accessor

def accessorModule (c : ResolvedCatalog) (n : Naming) : AccessorModule :=
  ⟨n.typeName, n.tableName, c.accessors⟩

end ResolvedCatalog

/-! ## Everything -/

structure Artifacts where
  tables : List StringsTable
  accessorModule : AccessorModule
  deriving DecidableEq, Repr

def ResolvedCatalog.artifacts (c : ResolvedCatalog) (n : Naming) : Artifacts :=
  ⟨c.tables, c.accessorModule n⟩

/-- Checks a catalog before anything is generated from it. -/
def Catalog.prepare (c : Catalog) : Except Error ResolvedCatalog := c.resolve.mapError .validation

/-- Checks a catalog and generates everything from it. -/
def Catalog.generate (c : Catalog) (n : Naming) : Except Violation Artifacts :=
  c.resolve.map (·.artifacts n)

/-! ## Files -/

/-- A generated file. -/
structure Output where
  path : String
  text : String
  deriving DecidableEq, Repr

namespace ResolvedCatalog

/-- The tables with the paths that they go to, language by language. -/
def tableFiles (c : ResolvedCatalog) (n : Naming) (directory : String) :
    List (String × StringsTable) :=
  c.languages.filterMap fun language =>
    (c.table? language).map fun t => (n.tablePath directory language, t)

/-- The files of a catalog: the tables in the order of the languages, and the
Swift file after them. -/
def outputs (c : ResolvedCatalog) (n : Naming) (stringsDirectory swiftDirectory : String) :
    List Output :=
  (c.tableFiles n stringsDirectory).map (fun file => ⟨file.1, file.2.render⟩) ++
    [⟨n.modulePath swiftDirectory, (c.accessorModule n).render⟩]

end ResolvedCatalog

end Phrasebook
