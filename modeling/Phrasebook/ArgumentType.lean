-- The types that an argument may have, and the format specifiers that
-- stand for them: `%@` in a resource key, `%2$lld` in a value.

namespace Phrasebook

inductive ArgumentType where
  | string
  | int
  | double
  deriving DecidableEq, Repr

namespace ArgumentType

/-- The name in a catalog, which is also the type of the parameter in the
generated accessor. -/
def name : ArgumentType → String
  | string => "String"
  | int => "Int"
  | double => "Double"

/-- Names are matched exactly. -/
def ofName? (s : String) : Option ArgumentType :=
  if s = "String" then some string
  else if s = "Int" then some int
  else if s = "Double" then some double
  else none

/-- The report on a name that is no type. -/
def unsupported (s : String) : String := "unsupported argument type: " ++ s

/-- The body of the format specifier. -/
def specifier : ArgumentType → String
  | string => "@"
  | int => "lld"
  | double => "lf"

/-- The specifier without a position, as in `%lld`. -/
def bareSpecifier (t : ArgumentType) : String := "%" ++ t.specifier

/-- The specifier of the argument at a place counted from 1, as in `%2$lld`. -/
def positionalSpecifier (place : Nat) (t : ArgumentType) : String :=
  "%" ++ toString place ++ "$" ++ t.specifier

end ArgumentType

end Phrasebook
