-- Reading the tokens of a YAML text from the left. A key on one line is
-- known as a key only at its colon, so places that may turn out to start
-- one are remembered, and the key token goes in at the place afterwards.
import Phrasebook.Yaml.Scalar
import Phrasebook.Yaml.Token

namespace Phrasebook.Yaml

/-- A place that may start a key: the number of its token, and whether the
indentation leaves no other choice. -/
structure PossibleKey where
  required : Bool
  token : Nat
  index : Nat
  line : Nat
  column : Nat
  deriving Repr

structure Lexer where
  cursor : Cursor
  /-- The tokens so far, the last one first. -/
  tokens : List Token
  /-- The number of tokens. -/
  count : Nat
  /-- The column of the innermost collection of lines, and -1 outside of all. -/
  indent : Int
  /-- The columns of the collections around it. -/
  outer : List Int
  /-- Whether a key may start here. -/
  keyAllowed : Bool
  /-- The place that may start a key outside of all brackets. -/
  topKey : Option PossibleKey
  /-- The same for each bracket that is open, the innermost first. -/
  flowKeys : List (Option PossibleKey)

namespace Lexer

/-- A step of the reading, if it does not fail. -/
abbrev Step := Option Lexer

def start (cs : List Char) : Lexer :=
  ⟨.start cs, [.streamStart], 1, -1, [], true, none, []⟩

def inFlow (l : Lexer) : Bool := !l.flowKeys.isEmpty

/-! ## Tokens and indentation -/

def push (token : Token) (l : Lexer) : Lexer :=
  { l with tokens := token :: l.tokens, count := l.count + 1 }

/-- Puts a token before the one with a number. -/
def insertAt (number : Nat) (token : Token) (l : Lexer) : Lexer :=
  { l with tokens := l.tokens.insertIdx (l.count - number) token, count := l.count + 1 }

/-- Opens a collection of lines, unless one is open at the column already. -/
def roll (column number : Nat) (token : Token) (l : Lexer) : Lexer :=
  if l.inFlow || (column : Int) ≤ l.indent then l
  else { l with indent := column, outer := l.indent :: l.outer }.insertAt number token

/-- Closes the given collections of lines as far as they are right of a
column. -/
def closeTo (column : Int) : List Int → Lexer → Lexer
  | [], l => l
  | indent :: outer, l =>
    if column < l.indent then closeTo column outer { l.push .blockEnd with indent, outer } else l

def unroll (column : Int) (l : Lexer) : Lexer :=
  if l.inFlow then l else closeTo column l.outer l

/-! ## Possible keys -/

def currentKey (l : Lexer) : Option PossibleKey :=
  match l.flowKeys with
  | key :: _ => key
  | [] => l.topKey

def setKey (key : Option PossibleKey) (l : Lexer) : Lexer :=
  match l.flowKeys with
  | _ :: outer => { l with flowKeys := key :: outer }
  | [] => { l with topKey := key }

/-- Gives up the place as the start of a key. -/
def removeKey (l : Lexer) : Step :=
  match l.currentKey with
  | some key => if key.required then none else some (l.setKey none)
  | none => some l

/-- Remembers the place as a possible start of a key. -/
def saveKey (l : Lexer) : Step :=
  if l.keyAllowed then do
    let c := l.cursor
    let required := !l.inFlow && l.indent == c.column
    let l ← l.removeKey
    return l.setKey (some ⟨required, l.count, c.index, c.line, c.column⟩)
  else some l

/-- A key stands on one line and has no more than 1024 characters. -/
def isStale (c : Cursor) (key : PossibleKey) : Bool :=
  key.line < c.line || key.index + 1024 < c.index

def dropStale (c : Cursor) (key : Option PossibleKey) : Option PossibleKey :=
  key.filter (!isStale c ·)

/-- Gives up the places that are too far back. -/
def removeStale (l : Lexer) : Step :=
  let isLost (key : Option PossibleKey) : Bool :=
    key.any fun key => isStale l.cursor key && key.required
  if isLost l.topKey || l.flowKeys.any isLost then none
  else some { l with
    topKey := dropStale l.cursor l.topKey
    flowKeys := l.flowKeys.map (dropStale l.cursor) }

/-! ## Layout -/

/-- Goes over blanks, comments and line breaks to the next token. Tabs are
blanks only where no key may start. A byte order mark may start a line. -/
def skipLayout : Nat → Lexer → Lexer
  | 0, l => l
  | fuel + 1, l =>
    let c := if l.cursor.column == 0 && l.cursor.head == '\ufeff' then l.cursor.next else l.cursor
    let tabs := l.inFlow || !l.keyAllowed
    let c := (c.skipWhile fun a => a == ' ' || (tabs && a == '\t')).skipComment
    if isBreak c.head then
      let c := c.lineBreak.2
      skipLayout fuel { l with cursor := c, keyAllowed := l.keyAllowed || !l.inFlow }
    else { l with cursor := c }

/-! ## Marks -/

/-- The end of the text counts as a line of its own. -/
def readEnd (l : Lexer) : Step := do
  let c := l.cursor
  let c := if c.column == 0 then c else { c with column := 0, line := c.line + 1 }
  let l ← ({ l with cursor := c }.unroll (-1)).removeKey
  return { l with keyAllowed := false }.push .streamEnd

def readDocumentMark (token : Token) (l : Lexer) : Step := do
  let l ← (l.unroll (-1)).removeKey
  return { l with keyAllowed := false, cursor := l.cursor.advance 3 }.push token

def readFlowStart (token : Token) (l : Lexer) : Step := do
  let l ← l.saveKey
  let l := { l with flowKeys := none :: l.flowKeys, keyAllowed := true }
  return { l with cursor := l.cursor.next }.push token

def readFlowEnd (token : Token) (l : Lexer) : Step := do
  let l ← l.removeKey
  let l := { l with flowKeys := l.flowKeys.drop 1, keyAllowed := false }
  return { l with cursor := l.cursor.next }.push token

def readFlowEntry (l : Lexer) : Step := do
  let l ← l.removeKey
  return { l with keyAllowed := true, cursor := l.cursor.next }.push .flowEntry

/-- Opens a collection of lines at the cursor. Outside of brackets only a place
where a key may start will do. -/
def openHere (token : Token) (l : Lexer) : Step :=
  if l.inFlow then some l
  else if !l.keyAllowed then none
  else some (l.roll l.cursor.column l.count token)

def readBlockEntry (l : Lexer) : Step := do
  let l ← l.openHere .blockSequenceStart
  let l ← l.removeKey
  return { l with keyAllowed := true, cursor := l.cursor.next }.push .blockEntry

def readKey (l : Lexer) : Step := do
  let l ← l.openHere .blockMappingStart
  let l ← l.removeKey
  return { l with keyAllowed := !l.inFlow, cursor := l.cursor.next }.push .key

/-- A colon makes a key of what stands before it, if that may be one. -/
def readValue (l : Lexer) : Step := do
  let l ← match l.currentKey with
    | some key =>
      let l := (l.insertAt key.token .key).roll key.column key.token .blockMappingStart
      pure { l.setKey none with keyAllowed := false }
    | none => do
      let l ← l.openHere .blockMappingStart
      pure { l with keyAllowed := !l.inFlow }
  return { l with cursor := l.cursor.next }.push .value

/-! ## Directives -/

/-- A number of a version, of nine digits at most. -/
def versionNumber? (c : Cursor) : Option (Nat × Cursor) :=
  let (digits, c) := c.span Char.isDigit
  if digits.isEmpty || 9 < digits.length then none else some (Json.Number.natOf digits, c)

def version? (c : Cursor) : Option (Token × Cursor) := do
  let (major, c) ← versionNumber? (c.skipWhile isWhite)
  if c.head != '.' then none
  let (minor, c) ← versionNumber? c.next
  return (.versionDirective major minor, c)

/-- An exclamation mark, and a name with another one if there is one. -/
def tagHandle (c : Cursor) : List Char × Cursor :=
  let (name, c) := c.next.span isNameChar
  if c.head == '!' then ('!' :: name ++ ['!'], c.next) else ('!' :: name, c)

def isUriChar (inBrackets : Bool) (c : Char) : Bool :=
  isNameChar c || ";/?:@&=+$.%!~*'()".toList.contains c ||
    (inBrackets && (c == ',' || c == '[' || c == ']'))

/-- The bytes that a text with percent signs spells: a percent sign stands
before the two digits of a byte. -/
def uriBytes? : List Char → Option (List UInt8)
  | [] => some []
  | '%' :: a :: b :: rest => do
    let n := (← Json.hexValue? a) * 16 + (← Json.hexValue? b)
    return UInt8.ofNat n :: (← uriBytes? rest)
  | c :: rest => do
    if c == '%' then none
    return UInt8.ofNat c.toNat :: (← uriBytes? rest)

/-- The number of characters of a tag. Its escapes must spell UTF-8. -/
def uri? (inBrackets : Bool) (c : Cursor) : Option (Nat × Cursor) := do
  let (cs, c) := c.span (isUriChar inBrackets)
  let bytes ← uriBytes? cs
  if !(ByteArray.mk bytes.toArray).validateUTF8 then none
  return (cs.length, c)

def tagDirective? (c : Cursor) : Option (Token × Cursor) := do
  let c := c.skipWhile isWhite
  if c.head != '!' then none
  let (handle, c) := tagHandle c
  if handle != ['!'] && (handle.length == 1 || handle.getLast? != some '!') then none
  if !isWhite c.head then none
  let (count, c) ← uri? true (c.skipWhile isWhite)
  if count == 0 || !isGap c.head then none
  return (.tagDirective (String.ofList handle), c)

def directive? (c : Cursor) : Option (Token × Cursor) := do
  let (name, c) := c.next.span isNameChar
  if !isGap c.head then none
  let (token, c) ←
    if name == "YAML".toList then version? c
    else if name == "TAG".toList then tagDirective? c
    else none
  let c := (c.skipWhile isWhite).skipComment
  if !isLineEnd c.head then none
  return (token, c.lineBreak.2)

def readDirective (l : Lexer) : Step := do
  let l ← (l.unroll (-1)).removeKey
  let l := { l with keyAllowed := false }
  let (token, cursor) ← directive? l.cursor
  return { l with cursor }.push token

/-! ## Anchors and tags -/

def isAnchorEnd (c : Char) : Bool := isGap c || "?:,]\x7d%@`".toList.contains c

def anchor? (c : Cursor) : Option (String × Cursor) :=
  let (name, c) := c.next.span isNameChar
  if name.isEmpty || !isAnchorEnd c.head then none else some (String.ofList name, c)

/-- The handle of a tag. One in pointed brackets has none. -/
def tagBody? (c : Cursor) : Option (String × Cursor) :=
  if c.ahead 1 == '<' then do
    let (count, c) ← uri? true (c.advance 2)
    if count == 0 || c.head != '>' then none
    return ("", c.next)
  else do
    let (handle, rest) := tagHandle c
    if handle.length > 1 && handle.getLast? == some '!' then do
      let (count, c) ← uri? false rest
      if count == 0 then none
      return (String.ofList handle, c)
    else do
      let (count, c) ← uri? false rest
      return (if handle == ['!'] && count == 0 then "" else "!", c)

def tag? (inFlow : Bool) (c : Cursor) : Option (String × Cursor) := do
  let (handle, c) ← tagBody? c
  if isGap c.head || (inFlow && c.head == ',') then return (handle, c) else none

def readProperty (token : String → Token) (read : Cursor → Option (String × Cursor)) (l : Lexer) :
    Step := do
  let l ← l.saveKey
  let l := { l with keyAllowed := false }
  let (name, cursor) ← read l.cursor
  return { l with cursor }.push (token name)

/-! ## Scalars -/

def readBlockScalar (isLiteral : Bool) (fuel : Nat) (l : Lexer) : Step := do
  let l ← l.removeKey
  let l := { l with keyAllowed := true }
  let (text, cursor) ← Scalar.block isLiteral l.indent fuel l.cursor
  return { l with cursor }.push (.scalar (String.ofList text))

def readQuoted (isSingle : Bool) (fuel : Nat) (l : Lexer) : Step := do
  let l ← l.saveKey
  let l := { l with keyAllowed := false }
  let (text, cursor) ← Scalar.quoted isSingle fuel l.cursor
  return { l with cursor }.push (.scalar (String.ofList text))

def readPlain (fuel : Nat) (l : Lexer) : Step := do
  let l ← l.saveKey
  let l := { l with keyAllowed := false }
  let (text, broken, cursor) ←
    Scalar.plain l.inFlow (l.indent + 1).toNat fuel [] .none l.cursor
  return { l with cursor, keyAllowed := broken }.push (.scalar (String.ofList text))

/-- A character that starts no plain scalar, whatever follows it. -/
def isMark (c : Char) : Bool := ",[]\x7b\x7d#&*!|>'\"%@`".toList.contains c

/-- Whether a plain scalar may start here. A hyphen, a question mark and a
colon start one only before something else than a blank. -/
def startsPlain (l : Lexer) : Bool :=
  let c := l.cursor.head
  let following := l.cursor.ahead 1
  if c == '-' then !isWhite following
  else if c == '?' || c == ':' then !l.inFlow && !isGap following
  else !isGap c && !isMark c

/-! ## All tokens -/

/-- Reads the token at the cursor. -/
def readToken (fuel : Nat) (l : Lexer) : Step :=
  let c := l.cursor
  let gapFollows := isGap (c.ahead 1)
  if c.atEnd then l.readEnd
  else if c.column == 0 && c.head == '%' then l.readDirective
  else if c.atDocumentMark then
    l.readDocumentMark (if c.head == '-' then .documentStart else .documentEnd)
  else if c.head == '[' then l.readFlowStart .flowSequenceStart
  else if c.head == '\x7b' then l.readFlowStart .flowMappingStart
  else if c.head == ']' then l.readFlowEnd .flowSequenceEnd
  else if c.head == '\x7d' then l.readFlowEnd .flowMappingEnd
  else if c.head == ',' then l.readFlowEntry
  else if c.head == '-' && gapFollows then l.readBlockEntry
  else if c.head == '?' && (l.inFlow || gapFollows) then l.readKey
  else if c.head == ':' && (l.inFlow || gapFollows) then l.readValue
  else if c.head == '*' then l.readProperty .alias anchor?
  else if c.head == '&' then l.readProperty .anchor anchor?
  else if c.head == '!' then l.readProperty .tag (tag? l.inFlow)
  else if c.head == '|' && !l.inFlow then l.readBlockScalar true fuel
  else if c.head == '>' && !l.inFlow then l.readBlockScalar false fuel
  else if c.head == '\'' then l.readQuoted true fuel
  else if c.head == '"' then l.readQuoted false fuel
  else if l.startsPlain then l.readPlain fuel
  else none

/-- Goes to the next token and reads it. Places that the cursor has left
behind start no key, neither before the token nor after it. -/
def step (fuel : Nat) (l : Lexer) : Step := do
  let l ← (l.skipLayout fuel).removeStale
  let l ← (l.unroll l.cursor.column).readToken fuel
  l.removeStale

/-- The tokens that are certain: no key may yet go in before one of them. -/
def certain (l : Lexer) : List Token :=
  let pending := (l.topKey :: l.flowKeys).filterMap fun key => key.map (·.token)
  l.tokens.reverse.take (pending.foldl min l.count)

def isDone (l : Lexer) : Bool := l.tokens.head? == some .streamEnd

/-- Reads token after token. At a fault only the certain tokens count. The
number bounds the steps, and the length of the text is never too small for it:
every token but the last one takes a character. -/
def run : Nat → Lexer → List Token
  | 0, l => l.certain ++ [.broken]
  | fuel + 1, l =>
    if l.isDone then l.tokens.reverse
    else
      match l.step fuel with
      | some l => run fuel l
      | none => l.certain ++ [.broken]

end Lexer

/-- The tokens of a text, up to the end or to the first fault. -/
def tokens (cs : List Char) : List Token :=
  if cs.all isAllowed then Lexer.run (cs.length + 2) (.start cs) else [.broken]

end Phrasebook.Yaml
