-- The ways in which reading a catalog, checking it, or writing what is made
-- of it can fail.
import Phrasebook.FileError
import Phrasebook.Format
import Phrasebook.Violation

namespace Phrasebook

inductive Error where
  /-- The text does not name a format. -/
  | unknownFormat (text : String)
  | decoding (format : Format) (reason : DecodeError)
  | file (reason : FileError)
  | validation (violation : Violation)
  deriving DecidableEq, Repr

def Error.message : Error → String
  | unknownFormat text => "unknown format `" ++ text ++ "`"
  | decoding format reason => format.name ++ " parse error: " ++ reason.message
  | file reason => "I/O error: " ++ reason.message
  | validation violation => "validation error: " ++ violation.message

end Phrasebook
