-- Templates: the texts of a catalog, in which `\(name)` stands for an
-- argument. The name runs up to the first `)` and stays on one line, and
-- the placeholders are found from the left without overlap. What opens no
-- placeholder is plain text.

namespace Phrasebook

/-- A part of a template: one character of plain text, or a placeholder. -/
inductive Piece where
  | literal (c : Char)
  | reference (name : List Char)
  deriving DecidableEq, Repr

namespace Template

/-! ## The pieces of a template -/

/-- The name up to the first `)` and what follows that, if the `)` comes
before any line feed. -/
def closeName : List Char → Option (List Char × List Char)
  | [] => none
  | c :: rest =>
    if c = ')' then some ([], rest)
    else if c = '\n' then none
    else (closeName rest).map fun (name, after) => (c :: name, after)

/-- The name of the placeholder that the text starts with, and what
follows the placeholder. -/
def openName : List Char → Option (List Char × List Char)
  | '\\' :: '(' :: rest => closeName rest
  | _ => none

theorem closeName_length {cs name after : List Char} (h : closeName cs = some (name, after)) :
    cs.length = name.length + after.length + 1 := by
  induction cs generalizing name after with
  | nil => simp [closeName] at h
  | cons c rest ih =>
    simp only [closeName] at h
    split at h
    · simp only [Option.some.injEq, Prod.mk.injEq] at h
      obtain ⟨rfl, rfl⟩ := h
      simp
    · split at h
      · simp at h
      · simp only [Option.map_eq_some_iff, Prod.mk.injEq, Prod.exists] at h
        obtain ⟨n, a, hc, rfl, rfl⟩ := h
        have := ih hc
        simp only [List.length_cons]
        omega

theorem openName_length {cs name after : List Char} (h : openName cs = some (name, after)) :
    cs.length = name.length + after.length + 3 := by
  unfold openName at h
  split at h
  · have := closeName_length h
    simp only [List.length_cons]
    omega
  · simp at h

/-- Reads a template from the left. -/
def pieces : List Char → List Piece
  | [] => []
  | c :: rest =>
    match _h : openName (c :: rest) with
    | some (name, after) => .reference name :: pieces after
    | none => .literal c :: pieces rest
termination_by cs => cs.length
decreasing_by
  · have := openName_length ‹_›
    omega
  · simp

/-! ## Where the placeholders stand -/

end Template

/-- A placeholder of a template, with the UTF-8 offsets of its two ends. -/
structure Placeholder where
  start : Nat
  stop : Nat
  name : String
  deriving DecidableEq, Repr

/-- The number of bytes of a text in UTF-8. -/
def utf8Length : List Char → Nat
  | [] => 0
  | c :: rest => c.utf8Size + utf8Length rest

namespace Piece

/-- The text that a piece was read from. -/
def source : Piece → List Char
  | literal c => [c]
  | reference name => '\\' :: '(' :: name ++ [')']

def width (p : Piece) : Nat := utf8Length p.source

end Piece

namespace Template

/-- The placeholders of a text that starts at the given offset. -/
def locate : Nat → List Piece → List Placeholder
  | _, [] => []
  | offset, .literal c :: rest => locate (offset + (Piece.literal c).width) rest
  | offset, .reference name :: rest =>
    let stop := offset + (Piece.reference name).width
    ⟨offset, stop, String.ofList name⟩ :: locate stop rest

/-- The placeholders of a template, from left to right. -/
def placeholders (template : String) : List Placeholder := locate 0 (pieces template.toList)

end Template

end Phrasebook
