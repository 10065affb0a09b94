-- The ways in which a command can fail.
import Phrasebook.Error

namespace Phrasebook

inductive CommandError where
  | missingFile (path : String)
  | notFile (path : String)
  | blankDirectory
  | notDirectory (path : String)
  | blankFormat
  | unsupportedFormat (format : String)
  | blankTableName
  | invalidTableName (name : String)
  | invalidTypeName (name : String)
  | unreadableCatalog (path : String) (reason : Error)
  | invalidCatalog (violation : Violation)
  /-- The error that generation itself gives for a catalog. -/
  | refusedCatalog (reason : Error)
  | unwritable (path : String) (reason : FileError)
  | unreadable (path : String) (reason : FileError)
  /-- The files that are missing or hold something else. -/
  | outOfDate (paths : List String)
  deriving DecidableEq, Repr

def CommandError.message : CommandError → String
  | missingFile path => "File does not exist: " ++ path
  | notFile path => "Path is not a file: " ++ path
  | blankDirectory => "Output directory cannot be empty"
  | notDirectory path => "Output path is not a directory: " ++ path
  | blankFormat => "Format cannot be empty"
  | unsupportedFormat format =>
    "Unsupported catalog format: " ++ format ++ ". Supported formats: yaml, json, toml"
  | blankTableName => "Table name cannot be empty"
  | invalidTableName name =>
    "Invalid table name: " ++ name ++ ". Expected a plain file name without extension"
  | invalidTypeName name => "Invalid type name: " ++ name ++ ". Expected a Swift identifier"
  | unreadableCatalog path reason => "Failed to read catalog " ++ path ++ ": " ++ reason.message
  | invalidCatalog violation => "validation error: " ++ violation.message
  | refusedCatalog reason => reason.message
  | unwritable path reason => "Failed to write " ++ path ++ ": " ++ (Error.file reason).message
  | unreadable path reason => "Failed to read " ++ path ++ ": " ++ (Error.file reason).message
  | outOfDate paths => "Generated files are out of date: " ++ ", ".intercalate paths

end Phrasebook
