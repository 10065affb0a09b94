-- What can go wrong with a file, in the words of the operating system.

namespace Phrasebook

inductive FileError where
  | notFound
  | alreadyExists
  | notDirectory
  | isDirectory
  | nameTooLong
  /-- The path holds a NUL character. -/
  | invalidPath
  /-- The bytes of the file are not UTF-8. -/
  | invalidText
  /-- Any other report of the operating system. -/
  | other (report : String)
  deriving DecidableEq, Repr

namespace FileError

/-- A report of the operating system with its number. -/
def numbered (report : String) (number : Nat) : String :=
  report ++ " (os error " ++ toString number ++ ")"

def message : FileError → String
  | notFound => numbered "No such file or directory" 2
  | alreadyExists => numbered "File exists" 17
  | notDirectory => numbered "Not a directory" 20
  | isDirectory => numbered "Is a directory" 21
  | nameTooLong => numbered "File name too long" 36
  | invalidPath => "file name contained an unexpected NUL byte"
  | invalidText => "stream did not contain valid UTF-8"
  | other report => report

end FileError

end Phrasebook
