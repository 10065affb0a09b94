-- What can be wrong with a catalog. Each violation names the key it was
-- found at, along with the language, argument or type that is at fault.
import Phrasebook.Text.Quoted

namespace Phrasebook

open Text (inQuotes)

inductive Violation where
  | noLanguages
  | invalidLanguage (language : String)
  | duplicateLanguage (language : String)
  | duplicateKey (key : String)
  | missingLocalization (key language : String)
  | unnecessaryLocalization (key language : String)
  | invalidKey (key : String)
  | invalidArgumentName (key argument : String)
  | duplicateArgument (key argument : String)
  | unsupportedArgumentType (key argument type : String)
  | undefinedReference (key language name : String)
  | accessorCollision (key other : String)
  deriving DecidableEq, Repr

def Violation.message : Violation → String
  | noLanguages => "the catalog does not declare any languages"
  | invalidLanguage language => inQuotes language ++ " is not a valid language code"
  | duplicateLanguage language =>
    "language " ++ inQuotes language ++ " is declared more than once"
  | duplicateKey key => "key " ++ inQuotes key ++ " is used by more than one item"
  | missingLocalization key language =>
    "item which has a key " ++ inQuotes key ++ " does not have localization for " ++
      inQuotes language
  | unnecessaryLocalization key language =>
    "item which has a key " ++ inQuotes key ++ " has unnecessary localization for " ++
      inQuotes language
  | invalidKey key =>
    "key " ++ inQuotes key ++ " is not a valid identifier path (dot-separated segments of " ++
      "letters, digits and `_`, not starting with a digit)"
  | invalidArgumentName key argument =>
    "argument name " ++ inQuotes argument ++ " in key " ++ inQuotes key ++
      " is not a valid identifier"
  | duplicateArgument key argument =>
    "argument " ++ inQuotes argument ++ " is declared more than once in key " ++ inQuotes key
  | unsupportedArgumentType key argument type =>
    "type of an argument named " ++ inQuotes argument ++ " in key " ++ inQuotes key ++
      " is not supported: " ++ inQuotes type
  | undefinedReference key language name =>
    "item which has a key " ++ inQuotes key ++ " includes undefined argument named " ++
      inQuotes name ++ " in " ++ inQuotes language
  | accessorCollision key other =>
    "accessor generated for key " ++ inQuotes key ++
      " has the same Swift name as the one generated for " ++ inQuotes other

end Phrasebook
