-- Catalogs as documents say them. The fields of a record may come in any
-- order, no field may come twice, and unknown fields do not count. The
-- first fault in the order of the document is the one reported.
import Phrasebook.Catalog
import Phrasebook.Document

namespace Phrasebook

/-! ## Fields -/

/-- The value of a field that must be there. -/
def requireField (name : String) : Option α → Except DecodeError α
  | some value => .ok value
  | none => .error (.missingField name)

/-- Reads the value of a field that has not come before. -/
def onceField (name : String) (before : Option α) (read : Except DecodeError α) :
    Except DecodeError (Option α) :=
  if before.isSome then .error (.duplicateField name) else read.map some

/-- Runs through the members of a record in their order. -/
def readMembers (d : Document) (step : σ → String → Node → Except DecodeError σ) :
    σ → List (Node × Node) → Except DecodeError σ
  | read, [] => .ok read
  | read, (key, value) :: rest => do
    let name ← d.text key
    let read ← step read name value
    readMembers d step read rest

/-! ## Arguments -/

structure ArgumentFields where
  name : Option String
  type : Option String

namespace Argument

def readField (d : Document) (read : ArgumentFields) (field : String) (value : Node) :
    Except DecodeError ArgumentFields :=
  if field = "name" then do
    return { read with name := ← onceField "name" read.name (d.text value) }
  else if field = "type" then do
    return { read with type := ← onceField "type" read.type (d.text value) }
  else do
    Document.skip value
    return read

def ofValues (d : Document) : List Node → Except DecodeError Argument
  | name :: rest => do
    let name ← d.text name
    match rest with
    | type :: rest => do
      let type ← d.text type
      d.excess rest
      return ⟨name, type⟩
    | [] => .error .invalidLength
  | [] => .error .invalidLength

def ofNode (d : Document) (node : Node) : Except DecodeError Argument := do
  match ← d.recordForm node with
  | .values items => ofValues d items
  | .fields members =>
    let read ← readMembers d (readField d) ⟨none, none⟩ members
    return ⟨← requireField "name" read.name, ← requireField "type" read.type⟩

end Argument

/-! ## Entries -/

/-- A map of texts by language. Of two texts with one language the later one
holds. -/
def Localizations.ofMembers (d : Document) (ls : Localizations) :
    List (Node × Node) → Except DecodeError Localizations
  | [] => .ok ls
  | (key, value) :: rest => do
    let language ← d.text key
    let text ← d.text value
    ofMembers d (ls.insert language text) rest

def Localizations.ofNode (d : Document) (node : Node) : Except DecodeError Localizations := do
  ofMembers d empty (← d.members node)

structure EntryFields where
  key : Option String
  localizations : Option Localizations
  arguments : Option (List Argument)

namespace Entry

def argumentsOfNode (d : Document) (node : Node) : Except DecodeError (List Argument) := do
  (← d.items node).mapM (Argument.ofNode d)

def readField (d : Document) (read : EntryFields) (field : String) (value : Node) :
    Except DecodeError EntryFields :=
  if field = "key" then do
    return { read with key := ← onceField "key" read.key (d.text value) }
  else if field = "localizations" then do
    let localizations ←
      onceField "localizations" read.localizations (Localizations.ofNode d value)
    return { read with localizations }
  else if field = "arguments" then do
    return { read with
      arguments := ← onceField "arguments" read.arguments (argumentsOfNode d value) }
  else do
    Document.skip value
    return read

def ofValues (d : Document) : List Node → Except DecodeError Entry
  | key :: rest => do
    let key ← d.text key
    match rest with
    | localizations :: rest => do
      let localizations ← Localizations.ofNode d localizations
      match rest with
      | arguments :: rest => do
        let arguments ← argumentsOfNode d arguments
        d.excess rest
        return ⟨key, localizations, arguments⟩
      | [] => return ⟨key, localizations, []⟩
    | [] => .error .invalidLength
  | [] => .error .invalidLength

def ofNode (d : Document) (node : Node) : Except DecodeError Entry := do
  match ← d.recordForm node with
  | .values items => ofValues d items
  | .fields members =>
    let read ← readMembers d (readField d) ⟨none, none, none⟩ members
    let key ← requireField "key" read.key
    let localizations ← requireField "localizations" read.localizations
    return ⟨key, localizations, read.arguments.getD []⟩

end Entry

/-! ## Catalogs -/

structure CatalogFields where
  languages : Option (List String)
  entries : Option (List Entry)

namespace Catalog

def languagesOfNode (d : Document) (node : Node) : Except DecodeError (List String) := do
  (← d.items node).mapM d.text

def entriesOfNode (d : Document) (node : Node) : Except DecodeError (List Entry) := do
  (← d.items node).mapM (Entry.ofNode d)

def readField (d : Document) (read : CatalogFields) (field : String) (value : Node) :
    Except DecodeError CatalogFields :=
  if field = "languages" then do
    return { read with
      languages := ← onceField "languages" read.languages (languagesOfNode d value) }
  else if field = "items" then do
    return { read with entries := ← onceField "items" read.entries (entriesOfNode d value) }
  else do
    Document.skip value
    return read

def ofValues (d : Document) : List Node → Except DecodeError Catalog
  | languages :: rest => do
    let languages ← languagesOfNode d languages
    match rest with
    | entries :: rest => do
      let entries ← entriesOfNode d entries
      d.excess rest
      return ⟨languages, entries⟩
    | [] => return ⟨languages, []⟩
  | [] => .error .invalidLength

def ofNode (d : Document) (node : Node) : Except DecodeError Catalog := do
  match ← d.recordForm node with
  | .values items => ofValues d items
  | .fields members =>
    let read ← readMembers d (readField d) ⟨none, none⟩ members
    let languages ← requireField "languages" read.languages
    return ⟨languages, read.entries.getD []⟩

/-- The catalog that a document says. What follows the root counts last. -/
def ofDocument (d : Document) : Except DecodeError Catalog := do
  let catalog ← ofNode d d.root
  if d.complete then .ok catalog else .error .malformed

end Catalog

end Phrasebook
