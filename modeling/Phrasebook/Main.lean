-- The program: the commands on the files of the computer.
import Phrasebook.CommandLine

namespace Phrasebook

/-- The report of the operating system behind a failure. -/
def FileError.ofSystem : IO.Error → FileError
  | .noFileOrDirectory .. => .notFound
  | .alreadyExists .. => .alreadyExists
  | .inappropriateType _ code report =>
    if code = 20 then .notDirectory else if code = 21 then .isDirectory
    else .other (numbered report code.toNat)
  | .invalidArgument _ code report =>
    if code = 36 then .nameTooLong else .other (numbered report code.toNat)
  | .permissionDenied _ code report => .other (numbered report code.toNat)
  | e => .other (toString e)

/-- The kind of a file of the computer. -/
def FileKind.ofSystem : IO.FS.FileType → FileKind
  | .file => .file
  | .dir => .directory
  | _ => .special

/-- Does something with files, and gives its failure as a value. -/
def attempt (action : IO α) : IO (Except FileError α) := do
  return (← action.toBaseIO).mapError FileError.ofSystem

instance : FileStore IO where
  kind? path := do
    let found ← attempt do return (← (← IO.FS.realPath path).metadata).type
    return found.toOption.map FileKind.ofSystem
  read path := attempt (IO.FS.readBinFile path)
  write path content := attempt (IO.FS.writeBinFile path content)
  makeDirectory path := attempt (IO.FS.createDir path)

end Phrasebook

def main (words : List String) : IO UInt32 := do
  let outcome ← (Phrasebook.runLine words : IO Phrasebook.Outcome)
  IO.print outcome.stdout
  IO.eprint outcome.stderr
  return outcome.exitCode.toUInt32
