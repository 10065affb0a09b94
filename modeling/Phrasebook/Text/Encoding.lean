-- Texts as bytes. A file that opens with a byte order mark is read in the
-- encoding of the mark, with U+FFFD for whatever the encoding does not
-- allow; a file without a mark has to be UTF-8.

namespace Phrasebook.Text

/-- What stands for bytes that are no character. -/
def replacement : Char := Char.ofNat 0xFFFD

/-! ## UTF-8 -/

namespace Utf8

/-- A character whose first bytes are read: the bits so far, how many bytes
are missing, and the range that the next one has to be in. -/
structure Partial where
  bits : Nat
  missing : Nat
  low : Nat
  high : Nat
  deriving DecidableEq, Repr

/-- What a first byte opens, if it opens a character of several bytes. The
ranges leave out surrogates, overlong forms and all above U+10FFFF. -/
def opening? (b : Nat) : Option Partial :=
  if b < 0xC2 then none
  else if b ≤ 0xDF then some ⟨b - 0xC0, 1, 0x80, 0xBF⟩
  else if b = 0xE0 then some ⟨0, 2, 0xA0, 0xBF⟩
  else if b = 0xED then some ⟨0xD, 2, 0x80, 0x9F⟩
  else if b ≤ 0xEF then some ⟨b - 0xE0, 2, 0x80, 0xBF⟩
  else if b = 0xF0 then some ⟨0, 3, 0x90, 0xBF⟩
  else if b ≤ 0xF3 then some ⟨b - 0xF0, 3, 0x80, 0xBF⟩
  else if b = 0xF4 then some ⟨4, 3, 0x80, 0x8F⟩
  else none

/-- Reads a byte that no open character awaits. -/
def start (b : Nat) : List Char × Option Partial :=
  if b < 0x80 then ([Char.ofNat b], none)
  else match opening? b with
    | some p => ([], some p)
    | none => ([replacement], none)

/-- Reads a byte. One that does not belong to the open character ends it and
starts anew. -/
def step : Option Partial → Nat → List Char × Option Partial
  | none, b => start b
  | some p, b =>
    if p.low ≤ b ∧ b ≤ p.high then
      let bits := p.bits * 64 + (b - 0x80)
      if p.missing ≤ 1 then ([Char.ofNat bits], none)
      else ([], some ⟨bits, p.missing - 1, 0x80, 0xBF⟩)
    else
      let (chars, next) := start b
      (replacement :: chars, next)

def run : Option Partial → List UInt8 → List Char
  | none, [] => []
  | some _, [] => [replacement]
  | p, b :: rest =>
    let (chars, next) := step p b.toNat
    chars ++ run next rest

end Utf8

/-- The text of bytes in UTF-8, with a replacement for each longest run that
opens a character and does not finish it. -/
def ofUtf8 (bytes : ByteArray) : String :=
  match String.fromUTF8? bytes with
  | some s => s
  | none => String.ofList (Utf8.run none bytes.data.toList)

/-! ## UTF-16 -/

namespace Utf16

/-- The units of a list of bytes, and whether a byte is left over. -/
def units (littleEndian : Bool) : List UInt8 → List Nat × Bool
  | a :: b :: rest =>
    let unit := if littleEndian then b.toNat * 256 + a.toNat else a.toNat * 256 + b.toNat
    let (us, odd) := units littleEndian rest
    (unit :: us, odd)
  | [_] => ([], true)
  | [] => ([], false)

def isHigh (u : Nat) : Bool := 0xD800 ≤ u && u ≤ 0xDBFF

def isLow (u : Nat) : Bool := 0xDC00 ≤ u && u ≤ 0xDFFF

/-- The character of a surrogate pair. -/
def paired (high low : Nat) : Char :=
  Char.ofNat (0x10000 + (high - 0xD800) * 0x400 + (low - 0xDC00))

/-- Reads units. A surrogate that belongs to no pair is replaced, and so is
what is left open at the end. -/
def run (odd : Bool) : List Nat → List Char
  | [] => if odd then [replacement] else []
  | [u] =>
    if isHigh u then [replacement]
    else (if isLow u then replacement else Char.ofNat u) :: run odd []
  | u :: v :: rest =>
    if isHigh u then
      if isLow v then paired u v :: run odd rest else replacement :: run odd (v :: rest)
    else (if isLow u then replacement else Char.ofNat u) :: run odd (v :: rest)

end Utf16

/-- The text of bytes in UTF-16. -/
def ofUtf16 (littleEndian : Bool) (bytes : List UInt8) : String :=
  let (us, odd) := Utf16.units littleEndian bytes
  String.ofList (Utf16.run odd us)

/-! ## Files -/

/-- The text of a file, if its bytes are text. A mark counts only in a file of
three bytes or more, and is no part of the text. -/
def ofFile? (bytes : ByteArray) : Option String :=
  match bytes.data.toList with
  | 0xEF :: 0xBB :: 0xBF :: rest => some (ofUtf8 ⟨rest.toArray⟩)
  | 0xFF :: 0xFE :: c :: rest => some (ofUtf16 true (c :: rest))
  | 0xFE :: 0xFF :: c :: rest => some (ofUtf16 false (c :: rest))
  | _ => String.fromUTF8? bytes

end Phrasebook.Text
