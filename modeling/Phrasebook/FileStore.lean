-- File stores: the few things that the commands ask of a file system. The
-- store is a parameter of every command, so that the same command runs on
-- a disk and on a tree of files in memory.
import Phrasebook.FileError
import Phrasebook.Path

namespace Phrasebook

inductive FileKind where
  | file
  | directory
  /-- A device, a socket and the like. -/
  | special
  deriving DecidableEq, Repr

/-- A file system, by what can be done at a path. -/
class FileStore (m : Type → Type) where
  /-- What is there, if anything is. -/
  kind? : String → m (Option FileKind)
  read : String → m (Except FileError ByteArray)
  /-- Puts a file there, over a file that is there already. -/
  write : String → ByteArray → m (Except FileError Unit)
  /-- Makes one directory, in a directory that exists. -/
  makeDirectory : String → m (Except FileError Unit)

namespace FileStore

variable {m : Type → Type} [Monad m] [FileStore m]

def isDirectory (path : String) : m Bool := do
  return (← kind? path) == some .directory

/-- Makes a directory, or leaves it if it is there. -/
def ensureDirectory (path : String) : m (Except FileError Unit) := do
  match ← makeDirectory path with
  | .ok () => return .ok ()
  | .error e => return if ← isDirectory path then .ok () else .error e

/-- Makes the first directory of a list, given from the innermost to the
outermost, and whichever of the outer ones are missing. -/
def ensureDirectories : List String → m (Except FileError Unit)
  | [] => return .ok ()
  | path :: outer => do
    match ← makeDirectory path with
    | .ok () => return .ok ()
    | .error .notFound =>
      match ← ensureDirectories outer with
      | .ok () => ensureDirectory path
      | .error e => return .error e
    | .error e => return if ← isDirectory path then .ok () else .error e

/-- Puts a text into a file, and makes the directories above it first. -/
def writeText (path text : String) : m (Except FileError Unit) := do
  match ← ensureDirectories (Path.parents path) with
  | .ok () => write path text.toUTF8
  | .error e => return .error e

/-- Whether a file holds a text. A file that is missing does not, and bytes
that are no text are an error. -/
def holdsText (path text : String) : m (Except FileError Bool) := do
  match ← read path with
  | .error .notFound => return .ok false
  | .error e => return .error e
  | .ok bytes =>
    match String.fromUTF8? bytes with
    | none => return .error .invalidText
    | some found => return .ok (found == text)

end FileStore

end Phrasebook
