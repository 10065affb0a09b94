-- Documents: what a text says once its notation is read, be it JSON, TOML
-- or YAML. A document is a tree of texts, lists and maps, as far as the
-- text follows the rules of its notation; where it stops to do so the
-- tree is cut.

namespace Phrasebook

/-! ## The tree -/

inductive Node where
  | text (s : String)
  | list (items : List Node)
  | map (members : List (Node × Node))
  /-- An empty value, which is the empty text, the empty list and the empty
  map, whichever is asked for. -/
  | blank
  /-- A value of some other kind: a number, a boolean, a null. -/
  | other
  /-- A value that is well formed and stands for nothing, such as a number too
  large to be one. Only where nobody asks for its value is it no fault. -/
  | void
  /-- The place where the text breaks the rules of its notation. -/
  | cut
  /-- Another node of the document, by its anchor. -/
  | alias (anchor : Nat)

namespace Node

mutual

/-- The tree holds no cut. -/
def isWhole : Node → Bool
  | list items => areWhole items
  | map members => areMembersWhole members
  | cut => false
  | _ => true

def areWhole : List Node → Bool
  | [] => true
  | item :: rest => isWhole item && areWhole rest

def areMembersWhole : List (Node × Node) → Bool
  | [] => true
  | (key, value) :: rest => isWhole key && isWhole value && areMembersWhole rest

end

end Node

/-- Whether a list of values in the order of the fields may stand for a
record. -/
inductive ListRecords where
  | never
  /-- With no more values than the record has fields. -/
  | exact
  /-- With any further values, which do not count. -/
  | surplus
  deriving DecidableEq, Repr

structure Document where
  root : Node
  /-- The nodes that have an anchor. -/
  anchors : List (Nat × Node)
  listRecords : ListRecords
  /-- Nothing but blanks and comments follows the root. -/
  complete : Bool

/-! ## Why a document does not say what it should -/

inductive DecodeError where
  /-- The text breaks the rules of its notation. -/
  | malformed
  | missingField (name : String)
  | duplicateField (name : String)
  | invalidType
  | invalidLength
  deriving DecidableEq, Repr

def DecodeError.message : DecodeError → String
  | malformed => ""
  | missingField name => "missing field `" ++ name ++ "`"
  | duplicateField name => "duplicate field `" ++ name ++ "`"
  | invalidType => "invalid type"
  | invalidLength => "invalid length"

/-! ## Values -/

namespace Document

/-- The node that is meant, which is the anchored one for an alias. -/
def meant (d : Document) : Node → Node
  | .alias anchor => (d.anchors.lookup anchor).getD .cut
  | node => node

/-- The report on a node of the wrong kind. -/
def mismatch : Node → DecodeError
  | .cut => .malformed
  | .void => .malformed
  | _ => .invalidType

def text (d : Document) (node : Node) : Except DecodeError String :=
  match d.meant node with
  | .text s => .ok s
  | .blank => .ok ""
  | node => .error (mismatch node)

def items (d : Document) (node : Node) : Except DecodeError (List Node) :=
  match d.meant node with
  | .list items => .ok items
  | .blank => .ok []
  | node => .error (mismatch node)

def members (d : Document) (node : Node) : Except DecodeError (List (Node × Node)) :=
  match d.meant node with
  | .map members => .ok members
  | .blank => .ok []
  | node => .error (mismatch node)

/-- The value of a field that the record does not have: it only has to be
whole. -/
def skip (node : Node) : Except DecodeError Unit :=
  if node.isWhole then .ok () else .error .malformed

/-- What a record is given as. -/
inductive RecordForm where
  | fields (members : List (Node × Node))
  | values (items : List Node)

def recordForm (d : Document) (node : Node) : Except DecodeError RecordForm :=
  match d.meant node with
  | .list items =>
    if d.listRecords = .never then .error .invalidType else .ok (.values items)
  | _ => (d.members node).map .fields

/-- The values after the last field of a record. -/
def excess (d : Document) (rest : List Node) : Except DecodeError Unit :=
  if d.listRecords = .surplus || rest.isEmpty then .ok () else .error .malformed

end Document

end Phrasebook
