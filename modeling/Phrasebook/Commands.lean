-- The commands: check a catalog, list its keys, and write what is generated
-- from it or compare that with the files there are. Each gives the text
-- that it prints.
import Phrasebook.CatalogFile
import Phrasebook.Generation
import Phrasebook.Json
import Phrasebook.Settings

namespace Phrasebook

variable {m : Type → Type} [Monad m] [FileStore m]

/-- What a command does in a store, up to the first failure. -/
abbrev CommandM (m : Type → Type) := ExceptT CommandError m

namespace CommandM

/-- Goes on if the first of two things did not fail. -/
def check (result : Except CommandError α) : CommandM m α := ExceptT.mk (pure result)

/-- Does something in the store, and says what its failure means here. -/
def perform (action : m (Except ε α)) (meaning : ε → CommandError) : CommandM m α :=
  ExceptT.mk do return (← action).mapError meaning

end CommandM

open CommandM

/-! ## Loading -/

/-- The catalog has to be a file that exists. -/
def checkCatalogPath (path : String) : CommandM m Unit := do
  match ← (FileStore.kind? path : m (Option FileKind)) with
  | none => throw (.missingFile path)
  | some .file => return ()
  | some _ => throw (.notFile path)

/-- A directory to write to may be missing, but nothing else may be in its
place. -/
def checkOutputDirectory (path : String) : CommandM m Unit := do
  if Text.isBlankText path then throw .blankDirectory
  match ← (FileStore.kind? path : m (Option FileKind)) with
  | none => return ()
  | some .directory => return ()
  | some _ => throw (.notDirectory path)

/-- Where a catalog is, and the name of its format if that does not follow
from the extension. -/
structure CatalogSource where
  path : String := "langgen.yml"
  format : Option String := none
  deriving DecidableEq, Repr

namespace CatalogSource

/-- Reads the catalog. -/
def load (s : CatalogSource) : CommandM m Catalog := do
  checkCatalogPath s.path
  let format ← check (s.format.mapM Settings.format)
  perform (Catalog.readFrom s.path format) (.unreadableCatalog s.path)

/-! ## Checking a catalog -/

def validate (s : CatalogSource) : CommandM m String := do
  let catalog ← s.load
  let c ← check (catalog.resolve.mapError .invalidCatalog)
  return "✅ " ++ s.path ++ " is valid: " ++ toString c.languages.length ++ " language(s), " ++
    toString c.entries.length ++ " entries\n"

end CatalogSource

/-! ## Listing keys -/

namespace ResolvedEntry

/-- The key, the resource key in quotes and the arguments, with tabs between
them. -/
def keyLine (e : ResolvedEntry) : String :=
  e.key ++ "\t" ++ Text.inQuotes e.resourceKey ++ "\t" ++ e.argumentList ++ "\n"

def keyJson (e : ResolvedEntry) : Json :=
  .object [("key", .string e.key), ("resource_key", .string e.resourceKey),
    ("arguments", .string e.argumentList)]

end ResolvedEntry

/-- The keys of a catalog, one on a line or as JSON. -/
def ResolvedCatalog.keyList (json : Bool) (c : ResolvedCatalog) : String :=
  if json then (Json.array (c.entries.map (·.keyJson))).pretty ++ "\n"
  else String.join (c.entries.map (·.keyLine))

def CatalogSource.keys (s : CatalogSource) (json : Bool) : CommandM m String := do
  let catalog ← s.load
  let c ← check (catalog.resolve.mapError .invalidCatalog)
  return c.keyList json

/-! ## Generating -/

structure GenerateOptions where
  source : CatalogSource := {}
  stringsDirectory : String := "."
  swiftDirectory : String := "."
  naming : Naming := {}
  /-- Compares the files there are, and writes none. -/
  check : Bool := false
  deriving DecidableEq, Repr

/-- Writes the outputs one after the other, up to the first that fails. -/
def writeOutputs : List Output → CommandM m Unit
  | [] => return ()
  | o :: rest => do
    perform (FileStore.writeText o.path o.text) (.unwritable o.path)
    writeOutputs rest

/-- The paths of the outputs that a store does not hold. -/
def staleOutputs : List Output → CommandM m (List String)
  | [] => return []
  | o :: rest => do
    let upToDate ← perform (FileStore.holdsText o.path o.text) (.unreadable o.path)
    let stale ← staleOutputs rest
    return if upToDate then stale else o.path :: stale

namespace GenerateOptions

/-- The directories and the names have to be fit to write to. -/
def checkTargets (o : GenerateOptions) : CommandM m Unit := do
  checkOutputDirectory o.stringsDirectory
  checkOutputDirectory o.swiftDirectory
  CommandM.check (Settings.checkTableName o.naming.tableName)
  CommandM.check (Settings.checkTypeName o.naming.typeName)

def tableFiles (o : GenerateOptions) (c : ResolvedCatalog) : List (String × StringsTable) :=
  c.tableFiles o.naming o.stringsDirectory

def outputs (o : GenerateOptions) (c : ResolvedCatalog) : List Output :=
  c.outputs o.naming o.stringsDirectory o.swiftDirectory

/-- What is printed when everything is written. -/
def report (o : GenerateOptions) (c : ResolvedCatalog) : String :=
  "Generated " ++ toString (o.tableFiles c).length ++ " strings table(s) and " ++
    o.naming.modulePath o.swiftDirectory ++ " (" ++
    toString (c.accessorModule o.naming).accessors.length ++ " entries)\n"

def generate (o : GenerateOptions) : CommandM m String := do
  o.checkTargets
  let catalog ← o.source.load
  let c ← CommandM.check (catalog.prepare.mapError .refusedCatalog)
  if o.check then
    let stale ← staleOutputs (o.outputs c)
    if stale.isEmpty then return "All generated files are up to date\n"
    else throw (.outOfDate stale)
  else
    writeOutputs (o.outputs c)
    return o.report c

end GenerateOptions

end Phrasebook
