-- Reading YAML: the tokens make the nodes of a document. What is read
-- before a fault stays, and the document is cut where the tokens break.
import Phrasebook.Document
import Phrasebook.Yaml.Lexer

namespace Phrasebook.Yaml

/-- What is left of the tokens, and the anchors so far. Each anchor is known by
a number, which is the number of names before it; so a name that comes again
may share the number of a later name, and the last one to take a number has it. -/
structure Reader where
  tokens : List Token
  /-- The handles that tags may use. -/
  handles : List String
  /-- The names of anchors, with their numbers. -/
  names : List (String × Nat)
  /-- The numbers of anchors in the order of their nodes, the last one first. -/
  taken : List Nat
  /-- The nodes with an anchor, by their place in that order. -/
  nodes : List (Nat × Node)

namespace Reader

def start (tokens : List Token) : Reader := ⟨tokens, ["!", "!!"], [], [], []⟩

def peek (r : Reader) : Token := r.tokens.headD .broken

def skip (r : Reader) : Reader := { r with tokens := r.tokens.drop 1 }

def isBroken (r : Reader) : Bool := r.peek == .broken

/-- Nothing is read after a cut. -/
def cutOff (r : Reader) : Node × Reader := (.cut, { r with tokens := [] })

/-- A value that is not there. -/
def missing (r : Reader) : Node × Reader := if r.isBroken then r.cutOff else (.blank, r)

/-! ## Anchors -/

/-- Gives a number to the anchor of the next node, and its place among them. -/
def define (name : String) (r : Reader) : Nat × Reader :=
  let number := r.names.length
  let names := (name, number) :: r.names.filter (·.1 ≠ name)
  (r.taken.length, { r with names, taken := number :: r.taken })

/-- The nodes by the numbers of their anchors. -/
def anchors (r : Reader) : List (Nat × Node) :=
  let places := (List.range r.taken.length).reverse
  (r.taken.zip places).filterMap fun (number, place) =>
    (r.nodes.lookup place).map (number, ·)

/-! ## Properties -/

/-- What stands before a node: an anchor, and a tag by its handle. -/
structure Properties where
  anchor : Option String
  tag : Option String

def readAnchor (r : Reader) : Option String × Reader :=
  match r.peek with
  | .anchor name => (some name, r.skip)
  | _ => (none, r)

def readTag (r : Reader) : Option String × Reader :=
  match r.peek with
  | .tag handle => (some handle, r.skip)
  | _ => (none, r)

/-- The properties in either order. -/
def readProperties (r : Reader) : Properties × Reader :=
  match r.peek with
  | .tag handle =>
    let (anchor, r) := r.skip.readAnchor
    (⟨anchor, some handle⟩, r)
  | _ =>
    let (anchor, r) := r.readAnchor
    let (tag, r) := if anchor.isSome then r.readTag else (none, r)
    (⟨anchor, tag⟩, r)

/-- The tag has no handle, or one that is declared. -/
def isDeclared (r : Reader) (p : Properties) : Bool :=
  match p.tag with
  | some handle => handle == "" || r.handles.contains handle
  | none => true

/-- Whether a node may start with the token. -/
def startsNode (inBlock indentless : Bool) (p : Properties) (token : Token) : Bool :=
  match token with
  | .scalar _ | .flowSequenceStart | .flowMappingStart => true
  | .blockSequenceStart | .blockMappingStart => inBlock || p.anchor.isSome || p.tag.isSome
  | .blockEntry => indentless || p.anchor.isSome || p.tag.isSome
  | .broken => false
  | _ => p.anchor.isSome || p.tag.isSome

/-! ## Nodes -/

/-- The tokens that end an entry in a collection of lines. -/
def endsSequenceEntry (token : Token) : Bool := token == .blockEntry || token == .blockEnd

def endsMappingEntry (token : Token) : Bool :=
  token == .key || token == .value || token == .blockEnd

def endsIndentlessEntry (token : Token) : Bool :=
  token == .blockEntry || endsMappingEntry token

mutual

/-- One node. The number bounds the steps, and one well above the number of
tokens never ends a reading. -/
def readNode (inBlock indentless : Bool) : Nat → Reader → Node × Reader
  | 0, r => r.cutOff
  | fuel + 1, r =>
    match r.peek with
    | .alias name =>
      match r.names.lookup name with
      | some number => (.alias number, r.skip)
      | none => r.cutOff
    | _ =>
      let (p, r) := r.readProperties
      if r.isDeclared p && startsNode inBlock indentless p r.peek then
        match p.anchor with
        | some name =>
          let (place, r) := r.define name
          let (node, r) := readContent inBlock indentless fuel r
          (node, { r with nodes := (place, node) :: r.nodes })
        | none => readContent inBlock indentless fuel r
      else r.cutOff

/-- A node after its properties. -/
def readContent (inBlock indentless : Bool) : Nat → Reader → Node × Reader
  | 0, r => r.cutOff
  | fuel + 1, r =>
    let asList (read : List Node × Reader) : Node × Reader := (.list read.1, read.2)
    let asMap (read : List (Node × Node) × Reader) : Node × Reader := (.map read.1, read.2)
    match r.peek with
    | .scalar text => (.text text, r.skip)
    | .flowSequenceStart => asList (readFlowItems true fuel r.skip)
    | .flowMappingStart => asMap (readFlowMembers true fuel r.skip)
    | .blockSequenceStart => if inBlock then asList (readBlockItems fuel r.skip) else (.blank, r)
    | .blockMappingStart => if inBlock then asMap (readBlockMembers fuel r.skip) else (.blank, r)
    | .blockEntry => if indentless then asList (readIndentlessItems fuel r) else (.blank, r)
    | _ => (.blank, r)

/-- The entries of a sequence of lines. -/
def readBlockItems : Nat → Reader → List Node × Reader
  | 0, r => ([.cut], r.cutOff.2)
  | fuel + 1, r =>
    match r.peek with
    | .blockEntry =>
      let r := r.skip
      let (item, r) := if endsSequenceEntry r.peek then (.blank, r) else readNode true false fuel r
      let (items, r) := readBlockItems fuel r
      (item :: items, r)
    | .blockEnd => ([], r.skip)
    | _ => ([.cut], r.cutOff.2)

/-- The entries of a sequence that stands no deeper than the mapping around it. -/
def readIndentlessItems : Nat → Reader → List Node × Reader
  | 0, r => ([.cut], r.cutOff.2)
  | fuel + 1, r =>
    match r.peek with
    | .blockEntry =>
      let r := r.skip
      let (item, r) :=
        if endsIndentlessEntry r.peek then (.blank, r) else readNode true false fuel r
      let (items, r) := readIndentlessItems fuel r
      (item :: items, r)
    | .broken => ([.cut], r.cutOff.2)
    | _ => ([], r)

/-- The keys and values of a mapping of lines. -/
def readBlockMembers : Nat → Reader → List (Node × Node) × Reader
  | 0, r => ([(.cut, .cut)], r.cutOff.2)
  | fuel + 1, r =>
    let entry (r : Reader) : Node × Reader :=
      if endsMappingEntry r.peek then (.blank, r) else readNode true true fuel r
    match r.peek with
    | .key =>
      let (key, r) := entry r.skip
      let (value, r) := if r.peek == .value then entry r.skip else r.missing
      let (members, r) := readBlockMembers fuel r
      ((key, value) :: members, r)
    | .blockEnd => ([], r.skip)
    | _ => ([(.cut, .cut)], r.cutOff.2)

/-- The entries of a sequence in brackets. An entry may be a single key with
its value. -/
def readFlowItems (isFirst : Bool) : Nat → Reader → List Node × Reader
  | 0, r => ([.cut], r.cutOff.2)
  | fuel + 1, r =>
    if r.peek == .flowSequenceEnd then ([], r.skip)
    else if !isFirst && r.peek != .flowEntry then ([.cut], r.cutOff.2)
    else
      let r := if isFirst then r else r.skip
      if r.peek == .flowSequenceEnd then ([], r.skip)
      else
        let (item, r) :=
          if r.peek == .key then readFlowPair fuel r.skip else readNode false false fuel r
        let (items, r) := readFlowItems false fuel r
        (item :: items, r)

/-- A key with its value as an entry of a sequence. -/
def readFlowPair : Nat → Reader → Node × Reader
  | 0, r => r.cutOff
  | fuel + 1, r =>
    let endsEntry (token : Token) : Bool := token == .flowEntry || token == .flowSequenceEnd
    let (key, r) :=
      if r.peek == .value || endsEntry r.peek then (.blank, r.skip)
      else readNode false false fuel r
    let (value, r) :=
      if r.peek == .value then
        let r := r.skip
        if endsEntry r.peek then (.blank, r) else readNode false false fuel r
      else r.missing
    (.map ((key, value) :: if r.isBroken then [(.cut, .cut)] else []), r)

/-- The keys and values of a mapping in braces. -/
def readFlowMembers (isFirst : Bool) : Nat → Reader → List (Node × Node) × Reader
  | 0, r => ([(.cut, .cut)], r.cutOff.2)
  | fuel + 1, r =>
    let endsEntry (token : Token) : Bool := token == .flowEntry || token == .flowMappingEnd
    if r.peek == .flowMappingEnd then ([], r.skip)
    else if !isFirst && r.peek != .flowEntry then ([(.cut, .cut)], r.cutOff.2)
    else
      let r := if isFirst then r else r.skip
      if r.peek == .flowMappingEnd then ([], r.skip)
      else if r.peek == .key then
        let r := r.skip
        let (key, r) :=
          if r.peek == .value || endsEntry r.peek then (.blank, r)
          else readNode false false fuel r
        let (value, r) :=
          if r.peek == .value then
            let r := r.skip
            if endsEntry r.peek then (.blank, r) else readNode false false fuel r
          else r.missing
        let (members, r) := readFlowMembers false fuel r
        ((key, value) :: members, r)
      else
        let (key, r) := readNode false false fuel r
        let (value, r) := r.missing
        let (members, r) := readFlowMembers false fuel r
        ((key, value) :: members, r)

end

/-! ## Documents -/

/-- Reads the directives before a document. One version at most may stand
there, which must be 1.1 or 1.2, and each handle once. -/
def readDirectives : List Token → Bool → List String → Option (List String × List Token)
  | .versionDirective major minor :: rest, hasVersion, handles =>
    if hasVersion || major != 1 || (minor != 1 && minor != 2) then none
    else readDirectives rest true handles
  | .tagDirective handle :: rest, hasVersion, handles =>
    if handles.contains handle then none else readDirectives rest hasVersion (handle :: handles)
  | rest, _, handles => some (handles, rest)

def endsDocument (token : Token) : Bool :=
  match token with
  | .versionDirective _ _ | .tagDirective _ | .documentStart | .documentEnd | .streamEnd => true
  | _ => false

def skipDocumentEnds (tokens : List Token) : List Token := tokens.dropWhile (· == .documentEnd)

/-- The first document. With no document at all its root is blank. -/
def readRoot (fuel : Nat) (r : Reader) : Node × Reader :=
  match r.peek with
  | .streamEnd => (.blank, r)
  | .versionDirective _ _ | .tagDirective _ | .documentStart =>
    match readDirectives r.tokens false [] with
    | some (handles, .documentStart :: tokens) =>
      let r := { r with tokens, handles := handles ++ r.handles }
      if endsDocument r.peek then (.blank, r) else readNode true false fuel r
    | _ => r.cutOff
  | _ => readNode true false fuel r

end Reader

/-- The document that a YAML text says. It must be the only one. -/
def read (s : String) : Document :=
  let tokens := (tokens s.toList).drop 1
  let (root, r) := Reader.readRoot (4 * tokens.length + 8) (.start tokens)
  ⟨root, r.anchors, .never, (Reader.skipDocumentEnds r.tokens).head? == some .streamEnd⟩

end Phrasebook.Yaml
