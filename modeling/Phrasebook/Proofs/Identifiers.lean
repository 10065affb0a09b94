-- Identifiers and identifier paths without their checks: which characters
-- they are made of, and how dots join them.
import Phrasebook.Settings

namespace Phrasebook

/-! ## Identifiers -/

/-- An ASCII letter or an underscore. -/
def IsNameStart (c : Char) : Prop :=
  ('A' ≤ c ∧ c ≤ 'Z') ∨ ('a' ≤ c ∧ c ≤ 'z') ∨ c = '_'

/-- An ASCII letter, a digit or an underscore. -/
def IsNamePart (c : Char) : Prop := IsNameStart c ∨ ('0' ≤ c ∧ c ≤ '9')

def IsIdentifier (s : String) : Prop :=
  ∃ first rest, s.toList = first :: rest ∧ IsNameStart first ∧ ∀ c ∈ rest, IsNamePart c

theorem isUpper_iff {c : Char} : c.isUpper = true ↔ 'A' ≤ c ∧ c ≤ 'Z' := decide_eq_true_iff

theorem isLower_iff {c : Char} : c.isLower = true ↔ 'a' ≤ c ∧ c ≤ 'z' :=
  Bool.and_eq_true_iff.trans (and_congr decide_eq_true_iff decide_eq_true_iff)

theorem isDigit_iff {c : Char} : c.isDigit = true ↔ '0' ≤ c ∧ c ≤ '9' :=
  Bool.and_eq_true_iff.trans (and_congr decide_eq_true_iff decide_eq_true_iff)

theorem isIdentifierStart_iff {c : Char} : isIdentifierStart c = true ↔ IsNameStart c := by
  have halpha : c.isAlpha = (c.isUpper || c.isLower) := rfl
  unfold isIdentifierStart IsNameStart
  rw [halpha, Bool.or_eq_true_iff, Bool.or_eq_true_iff, isUpper_iff, isLower_iff, beq_iff_eq,
    or_assoc]

theorem isIdentifierPart_iff {c : Char} : isIdentifierPart c = true ↔ IsNamePart c := by
  have hstart : isIdentifierPart c = (isIdentifierStart c || c.isDigit) := Bool.or_right_comm _ _ _
  unfold IsNamePart
  rw [hstart, Bool.or_eq_true_iff, isIdentifierStart_iff, isDigit_iff]

theorem isIdentifier_iff {s : String} : isIdentifier s = true ↔ IsIdentifier s := by
  unfold isIdentifier IsIdentifier
  cases s.toList with
  | nil => simp [isIdentifierChars]
  | cons first rest =>
    simp only [isIdentifierChars, Bool.and_eq_true, isIdentifierStart_iff, List.all_eq_true,
      isIdentifierPart_iff]
    constructor
    · rintro ⟨hfirst, hrest⟩
      exact ⟨first, rest, rfl, hfirst, hrest⟩
    · rintro ⟨_, _, hchars, hfirst, hrest⟩
      cases hchars
      exact ⟨hfirst, hrest⟩

instance (c : Char) : Decidable (IsNamePart c) := decidable_of_iff _ isIdentifierPart_iff

theorem Settings.checkTypeName_eq_ok_iff {name : String} :
    checkTypeName name = .ok () ↔ IsIdentifier name := by
  rw [← isIdentifier_iff]
  unfold checkTypeName
  split
  · simp [*]
  · simp [*]

/-- Names are ASCII. -/
theorem IsNamePart.toNat_lt {c : Char} (h : IsNamePart c) : c.toNat < 128 := by
  have hle : ∀ {top : Char}, c ≤ top → top.toNat < 128 → c.toNat < 128 := fun hc =>
    Nat.lt_of_le_of_lt (UInt32.le_iff_toNat_le.mp hc)
  rcases h with (⟨-, hupper⟩ | ⟨-, hlower⟩ | rfl) | ⟨-, hdigit⟩
  · exact hle hupper (by decide)
  · exact hle hlower (by decide)
  · decide
  · exact hle hdigit (by decide)

/-- A control character, such as a tab or a line feed. -/
def IsControl (c : Char) : Prop := c.toNat < 0x20

instance (c : Char) : Decidable (IsControl c) := inferInstanceAs (Decidable (_ < _))

theorem IsControl.ne {c d : Char} (hc : IsControl c) (hd : ¬ IsControl d) : c ≠ d :=
  fun he => hd (he ▸ hc)

theorem IsControl.not_mem {c : Char} {s : String} (hc : IsControl c)
    (h : s.toList.all (¬ IsControl ·)) : c ∉ s.toList :=
  fun hmem => of_decide_eq_true (List.all_eq_true.mp h c hmem) hc

theorem IsControl.not_isNamePart {c : Char} (hc : IsControl c) : ¬ IsNamePart c := by
  have hlow : ∀ {bottom : Char}, bottom ≤ c → ¬ IsControl bottom → False := fun hle hbottom =>
    hbottom (Nat.lt_of_le_of_lt (UInt32.le_iff_toNat_le.mp hle) hc)
  rintro ((⟨hupper, -⟩ | ⟨hlower, -⟩ | rfl) | ⟨hdigit, -⟩)
  · exact hlow hupper (by decide)
  · exact hlow hlower (by decide)
  · exact absurd hc (by decide)
  · exact hlow hdigit (by decide)

theorem IsIdentifier.isNamePart {s : String} (h : IsIdentifier s) {c : Char} (hc : c ∈ s.toList) :
    IsNamePart c := by
  obtain ⟨first, rest, hchars, hfirst, hrest⟩ := h
  rw [hchars] at hc
  rcases List.mem_cons.mp hc with rfl | hmem
  · exact Or.inl hfirst
  · exact hrest c hmem

theorem IsIdentifier.not_mem {s : String} (h : IsIdentifier s) {c : Char} (hc : ¬ IsNamePart c) :
    c ∉ s.toList :=
  fun hmem => hc (h.isNamePart hmem)

/-! ## What stands before a mark -/

/-- Two lists with as many marks before a mark end before it alike. -/
theorem eq_of_append_mark_eq {mark : Char} {l m rest more : List Char}
    (h : l ++ mark :: rest = m ++ mark :: more) (hcount : l.count mark = m.count mark) : l = m := by
  rcases List.append_eq_append_iff.mp h with ⟨between, rfl, hrest⟩ | ⟨between, rfl, hmore⟩
  · cases between with
    | nil => simp
    | cons c between =>
      cases hrest
      simp at hcount
  · cases between with
    | nil => simp
    | cons c between =>
      cases hmore
      simp at hcount

/-- Two texts without a mark are told apart from what comes after the mark. -/
theorem eq_of_append_glue_eq (glue : String) {before before' after after' : String} {mark : Char}
    {rest : List Char} (hglue : glue.toList = mark :: rest) (h : mark ∉ before.toList)
    (h' : mark ∉ before'.toList) (hsame : before ++ glue ++ after = before' ++ glue ++ after') :
    before = before' ∧ after = after' := by
  have hchars := congrArg String.toList hsame
  simp only [String.toList_append, hglue, List.append_assoc, List.cons_append] at hchars
  have hcount : before.toList.count mark = before'.toList.count mark := by
    rw [List.count_eq_zero.mpr h, List.count_eq_zero.mpr h']
  obtain rfl := String.toList_inj.mp (eq_of_append_mark_eq hchars hcount)
  exact ⟨rfl, (String.append_right_inj _).mp hsame⟩

/-! ## Paths -/

/-- One or more identifiers with single dots between them. -/
def IsIdentifierPath (key : String) : Prop :=
  ∃ parts : List String, parts ≠ [] ∧ (∀ part ∈ parts, IsIdentifier part) ∧
    key = ".".intercalate parts

theorem segments_ne_nil (key : String) : segments key ≠ [] := by
  simp [segments, List.splitOn_ne_nil]

theorem intercalate_segments (key : String) : ".".intercalate (segments key) = key := by
  apply String.toList_injective
  simp [segments, Function.comp_def, String.toList_intercalate]

/-- Parts without a mark in them are found again between the marks that join them. -/
theorem splitOn_intercalate {mark : Char} {glue : String} (hglue : glue.toList = [mark])
    {parts : List String} (h : parts ≠ []) (hmark : ∀ part ∈ parts, mark ∉ part.toList) :
    ((glue.intercalate parts).toList.splitOn mark).map String.ofList = parts := by
  have hsplit : ([mark].intercalate (parts.map String.toList)).splitOn mark =
      parts.map String.toList :=
    List.splitOn_intercalate mark (by simpa using hmark) (by simpa using h)
  rw [String.toList_intercalate, hglue, hsplit]
  simp [Function.comp_def]

/-- Lines without a mark in them are found again before the marks that end them. -/
theorem splitOn_flatMap {mark : Char} {lines : List (List Char)} (h : ∀ line ∈ lines, mark ∉ line) :
    (lines.flatMap (· ++ [mark])).splitOn mark = lines ++ [[]] := by
  induction lines with
  | nil => rfl
  | cons line lines ih =>
    obtain ⟨hline, hlines⟩ := List.forall_mem_cons.mp h
    rw [List.flatMap_cons, List.append_assoc, List.singleton_append,
      List.splitOn_append_cons_self_of_not_mem hline, ih hlines, List.cons_append]

theorem segments_intercalate {parts : List String} (h : parts ≠ [])
    (hdot : ∀ part ∈ parts, '.' ∉ part.toList) : segments (".".intercalate parts) = parts :=
  splitOn_intercalate rfl h hdot

theorem isIdentifierPath_iff {key : String} :
    isIdentifierPath key = true ↔ IsIdentifierPath key := by
  simp only [isIdentifierPath, List.all_eq_true, isIdentifier_iff]
  constructor
  · intro h
    exact ⟨segments key, segments_ne_nil key, h, (intercalate_segments key).symm⟩
  · rintro ⟨parts, hne, hparts, rfl⟩
    rwa [segments_intercalate hne fun part hpart => (hparts part hpart).not_mem (by decide)]

/-- What joined parts are made of. -/
theorem mem_intercalate {c : Char} {glue : String} {parts : List String}
    (h : c ∈ (glue.intercalate parts).toList) :
    c ∈ glue.toList ∨ ∃ part ∈ parts, c ∈ part.toList := by
  induction parts with
  | nil => simp at h
  | cons part parts ih =>
    cases parts with
    | nil => exact Or.inr ⟨part, List.mem_cons_self, by simpa using h⟩
    | cons next parts =>
      rw [String.intercalate_cons_cons, String.toList_append, String.toList_append,
        List.mem_append, List.mem_append] at h
      rcases h with (hpart | hglue) | hrest
      · exact Or.inr ⟨part, List.mem_cons_self, hpart⟩
      · exact Or.inl hglue
      · rcases ih hrest with hglue | ⟨other, hother, hc⟩
        · exact Or.inl hglue
        · exact Or.inr ⟨other, List.mem_cons_of_mem part hother, hc⟩

/-- A path is made of the characters of identifiers and of dots. -/
theorem IsIdentifierPath.not_mem {key : String} (h : IsIdentifierPath key) {c : Char}
    (hc : ¬ IsNamePart c) (hdot : c ≠ '.') : c ∉ key.toList := by
  obtain ⟨parts, -, hparts, rfl⟩ := h
  intro hmem
  rcases mem_intercalate hmem with hglue | ⟨part, hpart, hin⟩
  · exact hdot (List.mem_singleton.mp hglue)
  · exact (hparts part hpart).not_mem hc hin

end Phrasebook
