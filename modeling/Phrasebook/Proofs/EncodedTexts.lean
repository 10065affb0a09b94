-- Texts in the encodings that files have: UTF-8 with a mark or without, and UTF-16 of
-- either byte order. The bytes read back as the text, so its catalog is the same from all.
import Phrasebook.Proofs.Comparison

namespace Phrasebook

namespace Text

/-! ## UTF-16 -/

namespace Utf16

/-- The units of a character: one of them, or above U+FFFF the two halves of a pair. -/
def charUnits (c : Char) : List Nat :=
  if c.toNat < 0x10000 then [c.toNat]
  else [0xD800 + (c.toNat - 0x10000) / 0x400, 0xDC00 + (c.toNat - 0x10000) % 0x400]

/-- The two bytes of a unit. -/
def unitBytes (littleEndian : Bool) (u : Nat) : List UInt8 :=
  if littleEndian then [UInt8.ofNat (u % 256), UInt8.ofNat (u / 256)]
  else [UInt8.ofNat (u / 256), UInt8.ofNat (u % 256)]

def encode (littleEndian : Bool) (cs : List Char) : List UInt8 :=
  (cs.flatMap charUnits).flatMap (unitBytes littleEndian)

variable {littleEndian : Bool}

/-- No character is a surrogate, and none is above U+10FFFF. -/
theorem toNat_isScalar (c : Char) :
    c.toNat < 0xD800 ∨ 0xDFFF < c.toNat ∧ c.toNat < 0x110000 := c.valid

theorem charUnits_lt {c : Char} {u : Nat} (h : u ∈ charUnits c) : u < 0x10000 := by
  have hscalar := toNat_isScalar c
  unfold charUnits at h
  split at h
  · obtain rfl := List.mem_singleton.mp h
    assumption
  · simp only [List.mem_cons, List.not_mem_nil, or_false] at h
    omega

theorem units_unitBytes {u : Nat} (h : u < 0x10000) (rest : List UInt8) :
    units littleEndian (unitBytes littleEndian u ++ rest) =
      (u :: (units littleEndian rest).1, (units littleEndian rest).2) := by
  have hlow : (UInt8.ofNat (u % 256)).toNat = u % 256 := by simp
  have hhigh : (UInt8.ofNat (u / 256)).toNat = u / 256 := by
    rw [UInt8.toNat_ofNat']
    omega
  have hunit : u / 256 * 256 + u % 256 = u := Nat.div_add_mod' u 256
  cases littleEndian with
  | true => simp [unitBytes, units, hlow, hhigh, hunit]
  | false => simp [unitBytes, units, hlow, hhigh, hunit]

theorem units_flatMap {us : List Nat} (h : ∀ u ∈ us, u < 0x10000) :
    units littleEndian (us.flatMap (unitBytes littleEndian)) = (us, false) := by
  induction us with
  | nil => rfl
  | cons u us ih =>
    obtain ⟨hu, hus⟩ := List.forall_mem_cons.mp h
    rw [List.flatMap_cons, units_unitBytes hu, ih hus]

theorem run_unit {u : Nat} (hhigh : isHigh u = false) (hlow : isLow u = false) (odd : Bool)
    (rest : List Nat) : run odd (u :: rest) = Char.ofNat u :: run odd rest := by
  cases rest with
  | nil => simp [run, hhigh, hlow]
  | cons v rest => simp [run, hhigh, hlow]

theorem run_pair {u v : Nat} (hhigh : isHigh u) (hlow : isLow v) (odd : Bool) (rest : List Nat) :
    run odd (u :: v :: rest) = paired u v :: run odd rest := by
  rw [run, if_pos hhigh, if_pos hlow]

/-- A character reads back from its units, whatever follows. -/
theorem run_charUnits (c : Char) (odd : Bool) (rest : List Nat) :
    run odd (charUnits c ++ rest) = c :: run odd rest := by
  have hscalar := toNat_isScalar c
  unfold charUnits
  split
  · have hhigh : isHigh c.toNat = false := by
      simp only [isHigh, Bool.and_eq_false_iff, decide_eq_false_iff_not]
      omega
    have hlow : isLow c.toNat = false := by
      simp only [isLow, Bool.and_eq_false_iff, decide_eq_false_iff_not]
      omega
    rw [List.singleton_append, run_unit hhigh hlow, Char.ofNat_toNat]
  · have hhigh : isHigh (0xD800 + (c.toNat - 0x10000) / 0x400) := by
      simp only [isHigh, Bool.and_eq_true, decide_eq_true_eq]
      omega
    have hlow : isLow (0xDC00 + (c.toNat - 0x10000) % 0x400) := by
      simp only [isLow, Bool.and_eq_true, decide_eq_true_eq]
      omega
    have hcode : 0x10000 + (0xD800 + (c.toNat - 0x10000) / 0x400 - 0xD800) * 0x400 +
        (0xDC00 + (c.toNat - 0x10000) % 0x400 - 0xDC00) = c.toNat := by omega
    rw [List.cons_append, List.singleton_append, run_pair hhigh hlow, paired, hcode,
      Char.ofNat_toNat]

theorem run_flatMap (cs : List Char) : run false (cs.flatMap charUnits) = cs := by
  induction cs with
  | nil => rfl
  | cons c cs ih => rw [List.flatMap_cons, run_charUnits, ih]

end Utf16

theorem ofUtf16_encode (littleEndian : Bool) (t : String) :
    ofUtf16 littleEndian (Utf16.encode littleEndian t.toList) = t := by
  have hunits : ∀ u ∈ t.toList.flatMap Utf16.charUnits, u < 0x10000 := by
    intro u hu
    obtain ⟨c, -, hc⟩ := List.mem_flatMap.mp hu
    exact Utf16.charUnits_lt hc
  rw [ofUtf16, Utf16.encode, Utf16.units_flatMap hunits]
  dsimp only
  rw [Utf16.run_flatMap, String.ofList_toList]

/-- A pair, the high half first. -/
example : Utf16.encode false ['😀'] = [0xD8, 0x3D, 0xDE, 0x00] := by decide

/-! ## UTF-8 -/

section

variable {t : String} {b : UInt8} {rest : List UInt8}

theorem toUTF8_eq_utf8Encode (t : String) : t.toUTF8 = t.toList.utf8Encode := by
  rw [String.toUTF8_eq_toByteArray, String.utf8Encode_toList]

theorem utf8Encode_mark_append (bytes : ByteArray) : ['\uFEFF'].utf8Encode ++ bytes =
    ⟨(0xEF :: 0xBB :: 0xBF :: bytes.data.toList).toArray⟩ := by
  apply ByteArray.ext
  apply Array.toList_inj.mp
  rw [ByteArray.toList_data_append]
  rfl

/-- The bytes of U+FEFF open no other text. -/
theorem head?_of_toUTF8_mark (h : t.toUTF8.data.toList = 0xEF :: 0xBB :: 0xBF :: rest) :
    t.toList.head? = some '\uFEFF' := by
  have hmark : ['\uFEFF'].utf8Encode ++ ⟨rest.toArray⟩ = t.toList.utf8Encode := by
    rw [utf8Encode_mark_append, ← toUTF8_eq_utf8Encode]
    exact ByteArray.ext (Array.toList_inj.mp h.symm)
  obtain ⟨more, hmore⟩ := List.isPrefix_of_utf8Encode_append_eq_utf8Encode _ hmark
  rw [← hmore]
  rfl

theorem isUTF8FirstByte_of_toUTF8 (h : t.toUTF8.data.toList = b :: rest) : b.IsUTF8FirstByte := by
  have hpos : 0 < t.toUTF8.size := by
    rw [← ByteArray.size_data, ← Array.length_toList, h]
    exact Nat.succ_pos _
  have hfirst : t.toUTF8[0].IsUTF8FirstByte := t.isValidUTF8.isUTF8FirstByte_getElem_zero hpos
  have hget : t.toUTF8[0] = b := by
    rw [ByteArray.getElem_eq_getElem_data, ← Array.getElem_toList]
    simp only [h, List.getElem_cons_zero]
  rwa [hget] at hfirst

theorem ofUtf8_toUTF8 (t : String) : ofUtf8 t.toUTF8 = t := by
  rw [ofUtf8, fromUTF8?_toUTF8]

end

/-! ## Files -/

/-- How the text of a file is encoded. -/
inductive Encoding where
  | utf8
  | markedUtf8
  | utf16 (littleEndian : Bool)
  deriving DecidableEq, Repr

namespace Encoding

def mark : Encoding → List UInt8
  | utf8 => []
  | markedUtf8 => [0xEF, 0xBB, 0xBF]
  | utf16 true => [0xFF, 0xFE]
  | utf16 false => [0xFE, 0xFF]

/-- The bytes of a text after the mark. -/
def body : Encoding → String → List UInt8
  | utf8, t => t.toUTF8.data.toList
  | markedUtf8, t => t.toUTF8.data.toList
  | utf16 littleEndian, t => Utf16.encode littleEndian t.toList

def encode (e : Encoding) (t : String) : ByteArray := ⟨(e.mark ++ e.body t).toArray⟩

end Encoding

theorem ofFile?_utf8 {t : String} (hmark : t.toList.head? ≠ some '\uFEFF') :
    ofFile? t.toUTF8 = some t := by
  unfold ofFile?
  split
  · rename_i rest hbytes
    exact absurd (head?_of_toUTF8_mark hbytes) hmark
  · rename_i c rest hbytes
    exact absurd (isUTF8FirstByte_of_toUTF8 hbytes) (by decide)
  · rename_i c rest hbytes
    exact absurd (isUTF8FirstByte_of_toUTF8 hbytes) (by decide)
  · exact fromUTF8?_toUTF8 t

theorem ofFile?_utf16 (littleEndian : Bool) {t : String} (hne : t ≠ "") :
    ofFile? ((Encoding.utf16 littleEndian).encode t) = some t := by
  have hbody : Utf16.encode littleEndian t.toList ≠ [] := by
    intro hnil
    rw [← ofUtf16_encode littleEndian t, hnil] at hne
    exact hne rfl
  obtain ⟨b, rest, hbytes⟩ := List.exists_cons_of_ne_nil hbody
  have hread : ofFile? ((Encoding.utf16 littleEndian).encode t) =
      some (ofUtf16 littleEndian (b :: rest)) := by
    rw [Encoding.encode, Encoding.body, hbytes]
    cases littleEndian <;> rfl
  rw [hread, ← hbytes, ofUtf16_encode]

/-- Plain UTF-8 that opens with U+FEFF is read as marked. -/
theorem ofFile?_utf8_of_mark {t : String} (hmark : t.toList.head? = some '\uFEFF') :
    ofFile? t.toUTF8 = some (String.ofList t.toList.tail) := by
  obtain ⟨cs, hcs⟩ := List.head?_eq_some_iff.mp hmark
  have hbytes : t.toUTF8 = Encoding.markedUtf8.encode (String.ofList cs) := by
    rw [toUTF8_eq_utf8Encode, hcs, List.utf8Encode_cons, utf8Encode_mark_append, Encoding.encode,
      Encoding.body, toUTF8_eq_utf8Encode, String.toList_ofList]
    rfl
  rw [hbytes, hcs]
  show some (ofUtf8 (String.ofList cs).toUTF8) = _
  rw [ofUtf8_toUTF8]
  rfl

namespace Encoding

/-- A text that can be told from its file. Without a mark it must not seem to have one, and
in UTF-16 the mark alone is too short. -/
inductive Carries : Encoding → String → Prop
  | utf8 {t : String} (h : t.toList.head? ≠ some '\uFEFF') : Carries utf8 t
  | markedUtf8 (t : String) : Carries markedUtf8 t
  | utf16 (littleEndian : Bool) {t : String} (h : t ≠ "") : Carries (utf16 littleEndian) t

theorem ofFile?_encode_iff {e : Encoding} {t : String} :
    ofFile? (e.encode t) = some t ↔ e.Carries t := by
  constructor
  · intro h
    cases e with
    | utf8 =>
      refine .utf8 fun hmark => ?_
      change ofFile? t.toUTF8 = some t at h
      rw [ofFile?_utf8_of_mark hmark] at h
      obtain ⟨cs, hcs⟩ := List.head?_eq_some_iff.mp hmark
      have htail := congrArg String.toList (Option.some.inj h)
      rw [String.toList_ofList, hcs, List.tail_cons] at htail
      exact List.cons_ne_self _ _ htail.symm
    | markedUtf8 => exact .markedUtf8 t
    | utf16 littleEndian =>
      refine .utf16 littleEndian fun hnil => ?_
      subst hnil
      cases littleEndian with
      | true => exact absurd h (by decide)
      | false => exact absurd h (by decide)
  · rintro (⟨hmark⟩ | ⟨⟩ | ⟨littleEndian, hne⟩)
    · exact ofFile?_utf8 hmark
    · show some (ofUtf8 t.toUTF8) = some t
      rw [ofUtf8_toUTF8]
    · exact ofFile?_utf16 littleEndian hne

end Encoding

end Text

/-! ## Catalogs in files -/

open CommandM Text

theorem Text.Encoding.Carries.ofBytes_encode {e : Encoding} {t : String} (h : e.Carries t)
    (format : Format) : Catalog.ofBytes format (e.encode t) = Catalog.parse format t := by
  rw [Catalog.ofBytes, Encoding.ofFile?_encode_iff.mpr h]

/-- A file gives the catalog of its text, or the error of its text, in every encoding. The
format is the one that is given, or that of the extension if none is. -/
theorem Catalog.readFrom_encode {σ : Type} [FileStore (StateM σ)] [LawfulStore σ] {s : σ}
    {path t : String} {given : Option Format} {format : Format} (e : Encoding) (hne : t ≠ "")
    (hmark : t.toList.head? ≠ some '\uFEFF')
    (hformat : given.elim (Format.ofPath path) .ok = .ok format)
    (hread : readAt s path = .ok (e.encode t)) :
    actOn (readFrom path given) s = (parse format t, s) := by
  have hcarries : e.Carries t := by
    cases e with
    | utf8 => exact .utf8 hmark
    | markedUtf8 => exact .markedUtf8 t
    | utf16 littleEndian => exact .utf16 littleEndian hne
  rw [readFrom_run, hformat, hread]
  exact congrArg (·, s) (hcarries.ofBytes_encode format)

/-- A catalog whose text has a character above U+FFFF. -/
def Catalog.smileText : String :=
  "\x7b\"languages\":[\"en\"],\"items\":[\x7b\"key\":\"smile\"," ++
    "\"localizations\":\x7b\"en\":\"😀\"\x7d\x7d]\x7d"

def FileTree.smile (e : Encoding) : FileTree where
  nodes := [(["langgen.json"], .file (e.encode Catalog.smileText))]
  working := []

/-- The character is a pair in the file and one character in the catalog. -/
theorem FileTree.smile_readFrom :
    actOn (Catalog.readFrom "langgen.json" none) (FileTree.smile (.utf16 true)) =
      (.ok ⟨["en"], [⟨"smile", .ofList [("en", "😀")], []⟩]⟩, FileTree.smile (.utf16 true)) := by
  have hparse : Catalog.parse .json Catalog.smileText =
      .ok ⟨["en"], [⟨"smile", .ofList [("en", "😀")], []⟩]⟩ := by decide +kernel
  rw [← hparse]
  exact Catalog.readFrom_encode (.utf16 true) (by decide) (by decide) (by decide) rfl

end Phrasebook
