-- Tables of TOML while they are built. The rules say which table a key or
-- a header may still add to: a table that a header or braces defined is
-- closed to dotted keys, and one that dotted keys defined is closed to
-- headers.
import Phrasebook.Document

namespace Phrasebook.Toml

/-- How a table came to be. -/
inductive TableOrigin where
  /-- By its own header. -/
  | header
  /-- As a part of the path in a longer header. -/
  | path
  /-- As a part of a dotted key. -/
  | dotted
  deriving DecidableEq, Repr

/-- What stands under a key of a table. -/
inductive Item where
  | value (node : Node)
  | table (origin : TableOrigin) (members : List (String × Item))
  /-- An array of tables, one for each double header. -/
  | tables (elements : List (List (String × Item)))

/-- The members of a table in the order they came in. -/
abbrev Members := List (String × Item)

/-! ## What a table says -/

namespace Item

mutual

def node : Item → Node
  | value n => n
  | table _ members => .map (memberNodes members)
  | tables elements => .list (elementNodes elements)

def memberNodes : List (String × Item) → List (Node × Node)
  | [] => []
  | (key, item) :: rest => (.text key, node item) :: memberNodes rest

def elementNodes : List (List (String × Item)) → List Node
  | [] => []
  | members :: rest => .map (memberNodes members) :: elementNodes rest

end

end Item

namespace Members

def replace (members : Members) (key : String) (item : Item) : Members :=
  members.map fun (k, old) => if k = key then (k, item) else (k, old)

def append (members : Members) (key : String) (item : Item) : Members := members ++ [(key, item)]

/-- Changes the last table of an array. -/
def updateLast (change : Members → Option Members) (elements : List Members) :
    Option (List Members) :=
  match elements.getLast? with
  | some last => (change last).map fun last => elements.dropLast ++ [last]
  | none => none

/-! ## Dotted keys -/

/-- Adds a value under a key that no member has yet. -/
def addValue (key : String) (item : Item) (members : Members) : Option Members :=
  if (members.lookup key).isSome then none else some (members.append key item)

/-- Adds a value under a dotted key: the path before the last dot leads through
tables that only dotted keys defined. -/
def addDotted (key : String) (item : Item) : List String → Members → Option Members
  | [], members => addValue key item members
  | name :: path, members =>
    match members.lookup name with
    | none => (addDotted key item path []).map fun inner =>
      members.append name (.table .dotted inner)
    | some (.table origin inner) =>
      if origin = .header || (path.isEmpty && origin ≠ .dotted) then none
      else (addDotted key item path inner).map fun inner =>
        members.replace name (.table origin inner)
    | some (.tables elements) =>
      if path.isEmpty then none
      else (updateLast (addDotted key item path) elements).map fun elements =>
        members.replace name (.tables elements)
    | some (.value _) => none

/-! ## Headers -/

/-- Changes the table that the path of a header leads to. -/
def atPath (change : Members → Option Members) : List String → Members → Option Members
  | [], members => change members
  | name :: path, members =>
    match members.lookup name with
    | none => (atPath change path []).map fun inner => members.append name (.table .path inner)
    | some (.table origin inner) => (atPath change path inner).map fun inner =>
      members.replace name (.table origin inner)
    | some (.tables elements) => (updateLast (atPath change path) elements).map fun elements =>
      members.replace name (.tables elements)
    | some (.value _) => none

/-- A table may have a header if it is new, or if only longer headers named
it so far. Such a table moves to the end of its parent. -/
def openTable (name : String) (members : Members) : Option (Members × Members) :=
  match members.lookup name with
  | none => some ([], members)
  | some (.table .path inner) => some (inner, members.filter (·.1 ≠ name))
  | some _ => none

/-- An array of tables may have one more header. -/
def openArray (name : String) (members : Members) : Option Members :=
  match members.lookup name with
  | none => some (members.append name (.tables []))
  | some (.tables _) => some members
  | some _ => none

/-- Adds a table at the end of an array of tables. -/
def pushTable (members : Members) (name : String) (table : Members) : Option Members :=
  match members.lookup name with
  | some (.tables elements) => some (members.replace name (.tables (elements ++ [table])))
  | _ => none

end Members

/-! ## The whole text -/

/-- What the text read so far says: the tables that are complete, and the one
that the last header opened. -/
structure Tables where
  root : Members
  /-- The path of the last header, which is empty before the first one. -/
  path : List String
  isArray : Bool
  current : Members

namespace Tables

def empty : Tables := ⟨[], [], false, []⟩

/-- Puts the open table into its place. -/
def close (t : Tables) : Option Members :=
  match t.path.getLast? with
  | none => some t.current
  | some name =>
    let put (parent : Members) : Option Members :=
      if t.isArray then parent.pushTable name t.current
      else some (parent.append name (.table .header t.current))
    t.root.atPath put t.path.dropLast

/-- The members that a table had before its header. -/
def earlier (name : String) (path : List String) (root : Members) : Option Members :=
  match path with
  | [] => (root.openTable name).map (·.1)
  | next :: path =>
    match root.lookup next with
    | none => some []
    | some (.table _ inner) => earlier name path inner
    | some (.tables elements) => elements.getLast?.bind (earlier name path)
    | some (.value _) => none

/-- A header in single brackets. -/
def header (t : Tables) (path : List String) : Option Tables := do
  let root ← t.close
  let name ← path.getLast?
  let current ← earlier name path.dropLast root
  let root ← root.atPath (fun parent => (parent.openTable name).map (·.2)) path.dropLast
  return ⟨root, path, false, current⟩

/-- A header in double brackets. -/
def arrayHeader (t : Tables) (path : List String) : Option Tables := do
  let root ← t.close
  let name ← path.getLast?
  let root ← root.atPath (·.openArray name) path.dropLast
  return ⟨root, path, true, []⟩

/-- A key and its value. -/
def keyValue (t : Tables) (key : List String) (node : Node) : Option Tables := do
  let name ← key.getLast?
  let current ← t.current.addDotted name (.value node) key.dropLast
  return { t with current }

end Tables

end Phrasebook.Toml
