-- Settings of a command that can be checked without a file: the format of
-- the catalog, the name of the tables and the name of the Swift type.
import Phrasebook.CommandError
import Phrasebook.Identifier

namespace Phrasebook.Settings

def format (name : String) : Except CommandError Format :=
  if Text.isBlankText name then .error .blankFormat
  else match Format.ofName? name with
    | some format => .ok format
    | none => .error (.unsupportedFormat name)

/-- A name that is no step of a path. -/
def isPlainName (name : String) : Bool :=
  !(name.toList.contains '/' || name.toList.contains '\\' || name == "." || name == "..")

def checkTableName (name : String) : Except CommandError Unit :=
  if Text.isBlankText name then .error .blankTableName
  else if isPlainName name then .ok ()
  else .error (.invalidTableName name)

def checkTypeName (name : String) : Except CommandError Unit :=
  if isIdentifier name then .ok () else .error (.invalidTypeName name)

end Phrasebook.Settings
