-- File trees: files and directories in memory, with a directory that
-- relative paths start from. A tree is a file store in which every step
-- can be reasoned about.
import Phrasebook.FileStore
import Phrasebook.Text.Encoding

namespace Phrasebook

/-- Where something is: the names of the directories from the root down, and
its own name. -/
abbrev Place := List String

inductive FileNode where
  | file (content : ByteArray)
  | directory

def FileNode.kind : FileNode → FileKind
  | file _ => .file
  | directory => .directory

structure FileTree where
  /-- Everything that there is, apart from the root. -/
  nodes : List (Place × FileNode)
  /-- The directory that relative paths start from. -/
  working : Place

namespace FileTree

/-! ## Places -/

/-- What is at a place. -/
def node? (t : FileTree) : Place → Option FileNode
  | [] => some .directory
  | place => t.nodes.lookup place

/-- Puts a node over the one that is at a place, or at the end. -/
def setNode (place : Place) (node : FileNode) :
    List (Place × FileNode) → List (Place × FileNode)
  | [] => [(place, node)]
  | (other, old) :: rest =>
    if other = place then (place, node) :: rest else (other, old) :: setNode place node rest

def set (t : FileTree) (place : Place) (node : FileNode) : FileTree :=
  { t with nodes := setNode place node t.nodes }

/-! ## Walking -/

/-- A name has room for 255 bytes. -/
def longestName : Nat := 255

/-- A path has room for 4095 bytes. -/
def longestPath : Nat := 4095

/-- Takes steps from a place. Every step needs a directory to start from;
what is at the end need not exist. -/
def walk (t : FileTree) : Place → List String → Except FileError Place
  | place, [] => .ok place
  | place, step :: rest =>
    match t.node? place with
    | none => .error .notFound
    | some (.file _) => .error .notDirectory
    | some .directory =>
      if step = "." then walk t place rest
      else if step = ".." then walk t place.dropLast rest
      else if step.utf8ByteSize > longestName then .error .nameTooLong
      else walk t (place ++ [step]) rest

/-- The place that a path starts from. -/
def origin (t : FileTree) (path : String) : Place :=
  if Path.isAbsolute path then [] else t.working

/-- A path that says nothing, holds a NUL character or is too long leads
nowhere. -/
def checkPath (path : String) : Except FileError Unit :=
  if path.toList.contains (Char.ofNat 0) then .error .invalidPath
  else if path = "" then .error .notFound
  else if path.utf8ByteSize > longestPath then .error .nameTooLong
  else .ok ()

/-- A path that ends in a slash names a directory. -/
def endsInSlash (path : String) : Bool := path.toList.getLast? == some '/'

/-- The place that a path leads to. -/
def locate (t : FileTree) (path : String) : Except FileError Place := do
  checkPath path
  t.walk (t.origin path) (Path.rawSteps path ++ if endsInSlash path then ["."] else [])

/-- The place that a path would name, with the directory it is in; none if the
path ends in a dot step and so names a directory that is there already. -/
def target (t : FileTree) (path : String) : Except FileError (Option (Place × String)) := do
  checkPath path
  let steps := Path.rawSteps path
  let directory ← t.walk (t.origin path) (steps.dropLast ++ ["."])
  match steps.getLast? with
  | none => return none
  | some name => return if name = "." ∨ name = ".." then none else some (directory, name)

/-! ## The store -/

def kind? (t : FileTree) (path : String) : Option FileKind :=
  match t.locate path with
  | .error _ => none
  | .ok place => (t.node? place).map FileNode.kind

def read (t : FileTree) (path : String) : Except FileError ByteArray := do
  match t.node? (← t.locate path) with
  | none => throw .notFound
  | some .directory => throw .isDirectory
  | some (.file content) => return content

def write (t : FileTree) (path : String) (content : ByteArray) : Except FileError FileTree := do
  match ← t.target path with
  | none => throw .isDirectory
  | some (directory, name) =>
    if endsInSlash path then throw .isDirectory
    if name.utf8ByteSize > longestName then throw .nameTooLong
    let place := directory ++ [name]
    if (t.node? place).map FileNode.kind = some .directory then throw .isDirectory
    return t.set place (.file content)

def makeDirectory (t : FileTree) (path : String) : Except FileError FileTree := do
  match ← t.target path with
  | none => throw .alreadyExists
  | some (directory, name) =>
    if name.utf8ByteSize > longestName then throw .nameTooLong
    let place := directory ++ [name]
    if (t.node? place).isSome then throw .alreadyExists
    return t.set place .directory

/-- Keeps the changed tree, if there is one. -/
def commit (change : FileTree → Except FileError FileTree) :
    StateM FileTree (Except FileError Unit) := fun t =>
  match change t with
  | .ok changed => (.ok (), changed)
  | .error e => (.error e, t)

instance : FileStore (StateM FileTree) where
  kind? path := fun t => (t.kind? path, t)
  read path := fun t => (t.read path, t)
  write path content := commit (·.write path content)
  makeDirectory path := commit (·.makeDirectory path)

/-! ## Whole trees -/

/-- The tree with nothing but a working directory. -/
def empty : FileTree := ⟨[(["tmp"], .directory), (["tmp", "work"], .directory)], ["tmp", "work"]⟩

/-- The tree without what is at a path, and without all below it. -/
def remove (t : FileTree) (path : String) : FileTree :=
  match t.locate path with
  | .error _ => t
  | .ok place => { t with nodes := t.nodes.filter (!place.isPrefixOf ·.1) }

/-- What is below the working directory, by the path that leads there: the
text of a file, or none for a directory, whose path ends in a slash. -/
def listing (t : FileTree) : List (String × Option String) :=
  t.nodes.filterMap fun (place, node) =>
    let path := Path.ofSteps false (place.drop t.working.length)
    if !t.working.isPrefixOf place || place == t.working then none
    else match node with
      | .file content => some (path, some (Text.ofUtf8 content))
      | .directory => some (path ++ "/", none)

end FileTree

end Phrasebook
