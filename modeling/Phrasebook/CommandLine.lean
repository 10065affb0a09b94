-- The command line: which words stand for which command, and what a run
-- prints and answers.
import Phrasebook.Commands

namespace Phrasebook

/-! ## Vocabulary -/

inductive CommandName where
  | generate
  | validate
  | keys
  | completions
  deriving DecidableEq, Repr

namespace CommandName

def all : List CommandName := [generate, validate, keys, completions]

def word : CommandName → String
  | generate => "generate"
  | validate => "validate"
  | keys => "keys"
  | completions => "completions"

def ofWord? (word : String) : Option CommandName := all.find? (·.word == word)

end CommandName

/-- An option that takes a value. -/
inductive Setting where
  | catalog
  | format
  | stringsDirectory
  | swiftDirectory
  | tableName
  | typeName
  deriving DecidableEq, Repr

/-- An option that takes none. -/
inductive Switch where
  | check
  | json
  /-- Asks for log lines, and may be given any number of times. -/
  | verbose
  | help
  | version
  deriving DecidableEq, Repr

inductive Flag where
  | setting (s : Setting)
  | switch (s : Switch)
  deriving DecidableEq, Repr

namespace Flag

def longName : Flag → String
  | setting .catalog => "catalog"
  | setting .format => "format"
  | setting .stringsDirectory => "strings-output-dir"
  | setting .swiftDirectory => "swift-output-dir"
  | setting .tableName => "table-name"
  | setting .typeName => "type-name"
  | switch .check => "check"
  | switch .json => "json"
  | switch .verbose => "verbose"
  | switch .help => "help"
  | switch .version => "version"

def shortName? : Flag → Option Char
  | setting .catalog => some 'c'
  | switch .verbose => some 'v'
  | switch .help => some 'h'
  | switch .version => some 'V'
  | _ => none

/-- The options before the command. -/
def general : List Flag := [.switch .verbose, .switch .help, .switch .version]

/-- The options that a command knows. -/
def ofCommand (name : CommandName) : List Flag :=
  (match name with
    | .generate => [.setting .catalog, .setting .format, .setting .stringsDirectory,
        .setting .swiftDirectory, .setting .tableName, .setting .typeName, .switch .check]
    | .validate => [.setting .catalog, .setting .format]
    | .keys => [.setting .catalog, .setting .format, .switch .json]
    | .completions => []) ++ [.switch .verbose, .switch .help]

def findLong? (known : List Flag) (name : String) : Option Flag :=
  known.find? (·.longName == name)

def findShort? (known : List Flag) (c : Char) : Option Flag :=
  known.find? (·.shortName? == some c)

end Flag

inductive Shell where
  | bash
  | elvish
  | fish
  | powershell
  | zsh
  deriving DecidableEq, Repr

namespace Shell

def name : Shell → String
  | bash => "bash"
  | elvish => "elvish"
  | fish => "fish"
  | powershell => "powershell"
  | zsh => "zsh"

def ofName? (s : String) : Option Shell :=
  [bash, elvish, fish, powershell, zsh].find? (·.name == s)

end Shell

/-! ## What a line asks for -/

inductive Command where
  | generate (options : GenerateOptions)
  | validate (source : CatalogSource)
  | keys (source : CatalogSource) (json : Bool)
  | completions (shell : Shell)
  | help
  | version
  deriving DecidableEq, Repr

inductive UsageError where
  | noCommand
  | unknownCommand (word : String)
  | unexpected (word : String)
  | missingValue (setting : Setting)
  | repeated (flag : Flag)
  | missingShell
  | unknownShell (word : String)
  deriving DecidableEq, Repr

def UsageError.message : UsageError → String
  | noCommand => "a command is missing"
  | unknownCommand word => "there is no command `" ++ word ++ "`"
  | unexpected word => "`" ++ word ++ "` is not expected here"
  | missingValue s => "`--" ++ (Flag.setting s).longName ++ "` needs a value"
  | repeated flag => "`--" ++ flag.longName ++ "` is given more than once"
  | missingShell => "the name of a shell is missing"
  | unknownShell word => "there is no shell `" ++ word ++ "`"

/-- Why reading a line ends before its last word. -/
inductive Stop where
  | fault (e : UsageError)
  /-- The line asks for help or for the version, whatever follows. -/
  | answer (c : Command)
  deriving DecidableEq, Repr

/-! ## Options -/

/-- The options and the other words of a line, as far as it is read. -/
structure Given where
  settings : List (Setting × String) := []
  switches : List Switch := []
  shell : Option Shell := none
  deriving DecidableEq, Repr

namespace Given

/-- Takes the value of an option, which may be given once. -/
def addSetting (g : Given) (s : Setting) (value : String) : Except Stop Given :=
  if (g.settings.lookup s).isSome then .error (.fault (.repeated (.setting s)))
  else .ok { g with settings := (s, value) :: g.settings }

/-- Takes an option without a value. -/
def addSwitch (g : Given) : Switch → Except Stop Given
  | .help => .error (.answer .help)
  | .version => .error (.answer .version)
  | .verbose => .ok g
  | s =>
    if g.switches.contains s then .error (.fault (.repeated (.switch s)))
    else .ok { g with switches := s :: g.switches }

/-- Takes a word that is no option. Only completions have one, the shell. -/
def addWord (name : CommandName) (g : Given) (word : String) : Except Stop Given :=
  if name = .completions ∧ g.shell = none then
    match Shell.ofName? word with
    | some shell => .ok { g with shell := some shell }
    | none => .error (.fault (.unknownShell word))
  else .error (.fault (.unexpected word))

def source (g : Given) : CatalogSource where
  path := (g.settings.lookup .catalog).getD ({} : CatalogSource).path
  format := g.settings.lookup .format

def naming (g : Given) : Naming where
  tableName := (g.settings.lookup .tableName).getD ({} : Naming).tableName
  typeName := (g.settings.lookup .typeName).getD ({} : Naming).typeName

def generateOptions (g : Given) : GenerateOptions where
  source := g.source
  stringsDirectory :=
    (g.settings.lookup .stringsDirectory).getD ({} : GenerateOptions).stringsDirectory
  swiftDirectory := (g.settings.lookup .swiftDirectory).getD ({} : GenerateOptions).swiftDirectory
  naming := g.naming
  check := g.switches.contains .check

/-- The command that a whole line asks for. -/
def command (g : Given) : CommandName → Except Stop Command
  | .generate => .ok (.generate g.generateOptions)
  | .validate => .ok (.validate g.source)
  | .keys => .ok (.keys g.source (g.switches.contains .json))
  | .completions =>
    match g.shell with
    | some shell => .ok (.completions shell)
    | none => .error (.fault .missingShell)

end Given

/-! ## Words -/

/-- A hyphen and something after it. -/
def isFlagWord (word : String) : Bool :=
  match word.toList with
  | '-' :: _ :: _ => true
  | _ => false

/-- Reads the letters after a hyphen. A letter that needs a value takes the
rest of the word, less an equals sign; when nothing is left the value is the
next word. -/
def readLetters (known : List Flag) (word : String) (g : Given) :
    List Char → Except Stop (Given × Option Setting)
  | [] => .ok (g, none)
  | c :: rest =>
    match Flag.findShort? known c with
    | none => .error (.fault (.unexpected word))
    | some (.switch s) => do readLetters known word (← g.addSwitch s) rest
    | some (.setting s) =>
      match rest with
      | [] => .ok (g, some s)
      | '=' :: value => (g.addSetting s (String.ofList value)).map (·, none)
      | value => (g.addSetting s (String.ofList value)).map (·, none)

/-- Reads the name after two hyphens, and the value if an equals sign parts
one from it. -/
def readLong (known : List Flag) (word : String) (g : Given) (chars : List Char) :
    Except Stop (Given × Option Setting) :=
  let name := String.ofList (chars.takeWhile (· ≠ '='))
  match Flag.findLong? known name, chars.dropWhile (· ≠ '=') with
  | some (.switch s), [] => (g.addSwitch s).map (·, none)
  | some (.setting s), [] => .ok (g, some s)
  | some (.setting s), _ :: value => (g.addSetting s (String.ofList value)).map (·, none)
  | _, _ => .error (.fault (.unexpected word))

/-- Reads a flag word, and tells which option awaits its value in the next
word. -/
def readFlag (known : List Flag) (g : Given) (word : String) :
    Except Stop (Given × Option Setting) :=
  match word.toList with
  | '-' :: '-' :: chars => readLong known word g chars
  | _ :: chars => readLetters known word g chars
  | [] => .ok (g, none)

/-- Reads the words after a command; an option may await its value. After two
hyphens alone no word is an option. -/
def readWords (name : CommandName) : Given → Option Setting → List String → Except Stop Given
  | g, none, [] => .ok g
  | _, some s, [] => .error (.fault (.missingValue s))
  | g, some s, word :: rest =>
    if isFlagWord word then .error (.fault (.missingValue s))
    else do readWords name (← g.addSetting s word) none rest
  | g, none, word :: rest =>
    if word = "--" then rest.foldlM (Given.addWord name) g
    else if isFlagWord word then do
      let (g, awaiting) ← readFlag (Flag.ofCommand name) g word
      readWords name g awaiting rest
    else do readWords name (← g.addWord name word) none rest

/-- Reads the words after `help`, which may name one command. -/
def readHelp : List String → Except Stop Command
  | [] => .ok .help
  | [word] =>
    if word = "help" ∨ (CommandName.ofWord? word).isSome then .ok .help
    else .error (.fault (.unknownCommand word))
  | _ :: word :: _ => .error (.fault (.unknownCommand word))

/-- Reads a whole line. -/
def readLine : List String → Except Stop Command
  | [] => .error (.fault .noCommand)
  | word :: rest =>
    if isFlagWord word then
      match readFlag Flag.general {} word with
      | .error stop => .error stop
      | .ok _ => readLine rest
    else if word = "help" then readHelp rest
    else match CommandName.ofWord? word with
      | none => .error (.fault (.unknownCommand word))
      | some name => do (← readWords name {} none rest).command name

def Command.ofWords (words : List String) : Except UsageError Command :=
  match readLine words with
  | .ok c => .ok c
  | .error (.answer c) => .ok c
  | .error (.fault e) => .error e

/-! ## Running -/

/-- The words that a line may start with. -/
def commandWords : String := " ".intercalate (CommandName.all.map (·.word) ++ ["help"])

def Shell.script : Shell → String
  | bash => "complete -W '" ++ commandWords ++ "' langgen\n"
  | elvish =>
    "set edit:completion:arg-completer[langgen] = \x7b|@words| put " ++ commandWords ++ " \x7d\n"
  | fish => "complete -c langgen -f -n __fish_use_subcommand -a '" ++ commandWords ++ "'\n"
  | powershell =>
    "Register-ArgumentCompleter -Native -CommandName langgen -ScriptBlock \x7b -split '" ++
      commandWords ++ "' \x7d\n"
  | zsh => "compdef '_arguments \"1:command:(" ++ commandWords ++ ")\"' langgen\n"

def usageLine (name : CommandName) : String :=
  let flags := (Flag.ofCommand name).map fun
    | .setting s => " [--" ++ (Flag.setting s).longName ++ " VALUE]"
    | .switch s => " [--" ++ (Flag.switch s).longName ++ "]"
  "  langgen " ++ name.word ++ String.join flags ++
    (if name = .completions then " SHELL" else "") ++ "\n"

def usage : String := "Usage:\n" ++ String.join (CommandName.all.map usageLine)

/-- What a run leaves behind, apart from files. -/
structure Outcome where
  exitCode : Nat
  stdout : String := ""
  stderr : String := ""
  deriving DecidableEq, Repr

variable {m : Type → Type} [Monad m] [FileStore m]

def Command.run : Command → CommandM m String
  | generate o => o.generate
  | validate s => s.validate
  | keys s json => s.keys json
  | completions shell => return shell.script
  | help => return usage
  | version => return "langgen-cli 0.1.0\n"

/-- Runs the command that a line asks for. -/
def runLine (words : List String) : m Outcome :=
  match Command.ofWords words with
  | .error e => return { exitCode := 2, stderr := "Error: " ++ e.message ++ "\n" ++ usage }
  | .ok c => do
    match ← c.run.run with
    | .ok text => return { exitCode := 0, stdout := text }
    | .error e => return { exitCode := 1, stderr := "Error: " ++ e.message ++ "\n" }

end Phrasebook
