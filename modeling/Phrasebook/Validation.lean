-- The checks that a catalog must pass, in their order. The first violation
-- ends the run: first the languages, then the keys, then which entries have
-- which localizations, then each entry by itself, and the names of the
-- accessors at the end.
import Phrasebook.Accessor
import Phrasebook.Language
import Phrasebook.Resolved
import Phrasebook.Violation

namespace Phrasebook.Validation

/-! ## Languages and keys -/

/-- Every language is a code and stands after no equal one. -/
def checkLanguagesAfter (seen : List String) : List String → Except Violation Unit
  | [] => .ok ()
  | language :: rest =>
    if !Language.isCode language then .error (.invalidLanguage language)
    else if seen.contains language then .error (.duplicateLanguage language)
    else checkLanguagesAfter (language :: seen) rest

def checkLanguages (languages : List String) : Except Violation Unit :=
  if languages.isEmpty then .error .noLanguages else checkLanguagesAfter [] languages

/-- No key stands after an equal one. -/
def checkKeysAfter (seen : List String) : List String → Except Violation Unit
  | [] => .ok ()
  | key :: rest =>
    if seen.contains key then .error (.duplicateKey key) else checkKeysAfter (key :: seen) rest

def checkKeys (entries : List Entry) : Except Violation Unit :=
  checkKeysAfter [] (entries.map (·.key))

/-! ## Completeness -/

/-- Every entry has a text in every declared language. -/
def checkMissing (c : Catalog) : Except Violation Unit :=
  c.languages.forM fun language => c.entries.forM fun entry =>
    if (entry.localization? language).isSome then .ok ()
    else .error (.missingLocalization entry.key language)

/-- No entry has a text in a language that is not declared. -/
def checkUnnecessary (c : Catalog) : Except Violation Unit :=
  c.entries.forM fun entry => entry.localizations.languages.forM fun language =>
    if c.languages.contains language then .ok ()
    else .error (.unnecessaryLocalization entry.key language)

/-! ## Entries -/

/-- The arguments of an entry with their types, after the ones given. -/
def typeArguments (key : String) (seen : List String) :
    List Argument → Except Violation (List TypedArgument)
  | [] => .ok []
  | a :: rest =>
    if !isIdentifier a.name then .error (.invalidArgumentName key a.name)
    else if seen.contains a.name then .error (.duplicateArgument key a.name)
    else
      match a.argumentType? with
      | none => .error (.unsupportedArgumentType key a.name a.type)
      | some type => do
        let typed ← typeArguments key (a.name :: seen) rest
        return ⟨a.name, type⟩ :: typed

/-- The place of the argument with a name, counted from the number given. -/
def bind? (name : String) : Nat → List TypedArgument → Option (Nat × TypedArgument)
  | _, [] => none
  | place, a :: rest => if a.name = name then some (place, a) else bind? name (place + 1) rest

/-- Binds every placeholder to an argument, or reports the first name that no
argument has. -/
def resolvePieces (arguments : List TypedArgument) :
    List Piece → Except String (List ResolvedPiece)
  | [] => .ok []
  | .literal c :: rest => do
    let resolved ← resolvePieces arguments rest
    return .literal c :: resolved
  | .reference name :: rest =>
    match bind? (String.ofList name) 0 arguments with
    | none => .error (String.ofList name)
    | some (place, declared) => do
      let resolved ← resolvePieces arguments rest
      return .argument place declared :: resolved

def resolveTemplate (entry : Entry) (arguments : List TypedArgument) (language : String) :
    Except Violation ResolvedTemplate :=
  match entry.localization? language with
  | none => .error (.missingLocalization entry.key language)
  | some source =>
    match resolvePieces arguments (Template.pieces source.toList) with
    | .error name => .error (.undefinedReference entry.key language name)
    | .ok pieces => .ok ⟨language, source, pieces⟩

/-- One entry by itself: its key, then its arguments, then its templates in
the order of the declared languages. -/
def resolveEntry (languages : List String) (entry : Entry) : Except Violation ResolvedEntry :=
  if !isIdentifierPath entry.key then .error (.invalidKey entry.key)
  else do
    let arguments ← typeArguments entry.key [] entry.arguments
    let templates ← languages.mapM (resolveTemplate entry arguments)
    return ⟨entry.key, arguments, templates⟩

/-! ## Names of accessors -/

inductive DeclarationKind where
  | member
  | scope
  deriving DecidableEq, Repr

/-- A name that the generated module declares in a scope, and the key that
declared it first. -/
structure Declaration where
  scope : List String
  name : String
  kind : DeclarationKind
  key : String
  deriving DecidableEq, Repr

def findDeclaration? (declared : List Declaration) (scope : List String) (name : String) :
    Option Declaration :=
  declared.find? fun d => d.scope == scope && d.name == name

/-- Declares a key: its namespaces from the outermost one, then its accessor.
Equal namespaces are one, and any other name may stand once in its scope. -/
def declareKey (key member : String) (scope : List String) :
    List String → List Declaration → Except Violation (List Declaration)
  | [], declared =>
    match findDeclaration? declared scope member with
    | some other => .error (.accessorCollision key other.key)
    | none => .ok (⟨scope, member, .member, key⟩ :: declared)
  | name :: path, declared =>
    match findDeclaration? declared scope name with
    | some ⟨_, _, .scope, _⟩ => declareKey key member (scope ++ [name]) path declared
    | some ⟨_, _, .member, other⟩ => .error (.accessorCollision key other)
    | none =>
      declareKey key member (scope ++ [name]) path (⟨scope, name, .scope, key⟩ :: declared)

def declareKeys : List String → List Declaration → Except Violation (List Declaration)
  | [], declared => .ok declared
  | key :: rest, declared => do
    let declared ← declareKey key (memberName key) [] (namespacePath key) declared
    declareKeys rest declared

def checkAccessors (entries : List Entry) : Except Violation Unit := do
  let _ ← declareKeys (entries.map (·.key)) []

/-! ## The whole catalog -/

end Validation

/-- Runs every check and gives the resolved catalog, or the first violation. -/
def Catalog.resolve (c : Catalog) : Except Violation ResolvedCatalog := do
  Validation.checkLanguages c.languages
  Validation.checkKeys c.entries
  Validation.checkMissing c
  Validation.checkUnnecessary c
  let entries ← c.entries.mapM (Validation.resolveEntry c.languages)
  Validation.checkAccessors c.entries
  return ⟨c.languages, entries⟩

end Phrasebook
