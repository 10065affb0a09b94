-- Paths of files: texts whose steps are parted by slashes.

namespace Phrasebook.Path

/-! ## Steps -/

/-- A path that starts at the root. -/
def isAbsolute (path : String) : Bool := path.toList.head? == some '/'

/-- What stands between the slashes, as far as there is something. -/
def rawSteps (path : String) : List String :=
  ((path.toList.splitOn '/').filter (!·.isEmpty)).map String.ofList

/-- The steps from left to right. A single dot is no step, except as the
first one of a path that is not absolute. -/
def steps (path : String) : List String :=
  match rawSteps path with
  | [] => []
  | first :: rest =>
    (if first = "." ∧ isAbsolute path then [] else [first]) ++ rest.filter (· ≠ ".")

/-- The path of some steps. -/
def ofSteps (absolute : Bool) (steps : List String) : String :=
  (if absolute then "/" else "") ++ "/".intercalate steps

/-- The paths of the directories above, from the nearest to the outermost.
The directory that a relative path starts from has no path of its own. -/
def parents (path : String) : List String :=
  let all := steps path
  ((List.range all.length).reverse.map fun n => ofSteps (isAbsolute path) (all.take n)).filter
    (· ≠ "")

/-! ## Joining -/

/-- A path seen from a directory. An absolute path stands for itself, and
otherwise one slash parts the two; nothing goes before the path when the
directory is empty. -/
def join (directory path : String) : String :=
  if isAbsolute path then path
  else if directory = "" ∨ directory.toList.getLast? = some '/' then directory ++ path
  else directory ++ "/" ++ path

/-! ## Extensions -/

/-- The text after the last dot of a name. A dot that opens the name does not
count. -/
def nameExtension? (name : String) : Option String :=
  let parts := name.toList.splitOn '.'
  match parts.dropLast with
  | [] => none
  | [[]] => none
  | _ => parts.getLast?.map String.ofList

/-- The extension of the last step, if that is the name of a file. -/
def extension? (path : String) : Option String :=
  match (steps path).getLast? with
  | none => none
  | some name => if name = "." ∨ name = ".." then none else nameExtension? name

end Phrasebook.Path
