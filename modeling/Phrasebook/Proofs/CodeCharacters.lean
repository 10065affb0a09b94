-- The characters of accepted language codes. They are all ASCII, but a variant of
-- four characters may hold any of them. A line feed in it breaks the header of the
-- table, and a slash parts the directory that the table goes to.
import Phrasebook.Proofs.Artifacts
import Phrasebook.Proofs.ParentPaths
import Phrasebook.Proofs.TablePaths

namespace Phrasebook

/-! ## Characters of codes -/

namespace Language

/-- A letter, a digit, or a mark between two subtags. -/
def isCodeChar (c : Char) : Bool := c.isAlphanum || isSubtagMark c

def IsPlain (code : String) : Prop := ∀ c ∈ code.toList, isCodeChar c = true

def subtags (code : String) : List (List Char) := code.toList.splitOnP isSubtagMark

theorem isAscii_of_isAlphanum {c : Char} (h : c.isAlphanum = true) : isAsciiGraph c = true := by
  have hpart : IsNamePart c := isIdentifierPart_iff.mp (Bool.or_eq_true_iff.mpr (Or.inl h))
  have hne : c.toNat ≠ 0 := by
    intro hzero
    rw [← Char.ofNat_toNat c, hzero] at h
    exact absurd h (by decide)
  simp [isAsciiGraph, hne, hpart.toNat_lt]

/-- A subtag with something else than letters and digits is a variant of four ASCII
characters. -/
theorem IsSubtag.all_isAlphanum_or {tag : List Char} (h : IsSubtag tag) :
    tag.all Char.isAlphanum = true ∨ tag.length = 4 ∧ tag.all isAsciiGraph = true := by
  rcases h with hall | hvariant
  · exact Or.inl hall
  · unfold isVariant at hvariant
    rcases Bool.or_eq_true_iff.mp hvariant with hlong | hfour
    · simp only [Bool.and_eq_true] at hlong
      exact Or.inl hlong.1.1
    · split at hfour
      · exact Or.inr ⟨rfl, (Bool.and_eq_true_iff.mp hfour).1⟩
      · cases hfour

theorem isSubtag_of_isCode {code : String} (h : isCode code = true) :
    ∀ tag ∈ subtags code, IsSubtag tag := by
  rcases Bool.or_eq_true_iff.mp h with hbase | hcode
  · rw [eq_of_beq hbase]
    exact List.forall_mem_singleton.mpr (Or.inl (by decide))
  · exact isSubtag_of_isLanguageIdentifier hcode

theorem isAscii_of_isCode {code : String} (h : isCode code = true) :
    ∀ c ∈ code.toList, isAsciiGraph c = true := by
  intro c hc
  cases hmark : isSubtagMark c with
  | true =>
    rcases Bool.or_eq_true_iff.mp hmark with hc | hc
    · rw [eq_of_beq hc]
      decide
    · rw [eq_of_beq hc]
      decide
  | false =>
    obtain ⟨tag, htag, hin⟩ := (cutAt_splitOnP isSubtagMark code.toList).exists_mem hc hmark
    rcases (isSubtag_of_isCode h tag htag).all_isAlphanum_or with hall | ⟨-, hall⟩
    · exact isAscii_of_isAlphanum (List.all_eq_true.mp hall c hin)
    · exact List.all_eq_true.mp hall c hin

/-- A code is plain when its subtags of four characters are letters and digits. -/
theorem isPlain_iff {code : String} (h : isCode code = true) :
    IsPlain code ↔ ∀ tag ∈ subtags code, tag.length = 4 → tag.all Char.isAlphanum = true := by
  constructor
  · intro hplain tag htag _
    rw [List.all_eq_true]
    intro c hc
    obtain ⟨hmem, hmark⟩ := (cutAt_splitOnP isSubtagMark code.toList).of_mem htag hc
    simpa [isCodeChar, hmark] using hplain c hmem
  · intro hfour c hc
    unfold isCodeChar
    cases hmark : isSubtagMark c with
    | true => exact Bool.or_true _
    | false =>
      obtain ⟨tag, htag, hin⟩ := (cutAt_splitOnP isSubtagMark code.toList).exists_mem hc hmark
      have hall : tag.all Char.isAlphanum = true := by
        rcases (isSubtag_of_isCode h tag htag).all_isAlphanum_or with hall | ⟨hlength, -⟩
        · exact hall
        · exact hfour tag htag hlength
      rw [List.all_eq_true.mp hall c hin, Bool.true_or]

theorem IsPlain.not_mem {code : String} (h : IsPlain code) {c : Char}
    (hc : isCodeChar c = false) : c ∉ code.toList := by
  intro hmem
  rw [h c hmem] at hc
  cases hc

/-- The directory of a language is one step exactly when no slash is in its code. -/
theorem directorySteps_eq_iff {code : String} :
    directorySteps code = [code ++ ".lproj"] ↔ '/' ∉ code.toList := by
  refine ⟨fun h hslash => ?_, directorySteps_of_not_mem⟩
  have hstep : code ++ ".lproj" ∈ directorySteps code := h ▸ List.mem_singleton_self _
  apply (Path.isStep_of_mem_rawSteps (List.mem_filter.mp hstep).1).2
  simp [hslash]

end Language

/-! ## Headers of tables -/

namespace StringsTable

/-- Five comment lines and a blank line. -/
def IsHeader (text : String) : Prop :=
  ∃ comments : List (List Char), comments.length = 5 ∧ (∀ line ∈ comments, ['/', '/'] <+: line) ∧
    text.toList.splitOn '\n' = comments ++ [[], []]

/-- The comment lines of the header of a table. -/
def comments (language : String) : List String :=
  ["// This file is automatically generated by langgen.",
    "// Do not edit it manually, as your changes will be overwritten.", "//",
    "//: Language: " ++ language, "//"]

theorem header_eq (language : String) :
    header language = "\n".intercalate (comments language ++ ["", ""]) := by
  have hnotice : generatedNotice = "// This file is automatically generated by langgen." ++ "\n" ++
      ("// Do not edit it manually, as your changes will be overwritten." ++ "\n") := by
    decide +kernel
  have hopen : ("//\n//: Language: " : String) = "//" ++ "\n" ++ "//: Language: " := rfl
  have hclose : ("\n//\n\n" : String) = "\n" ++ "//" ++ "\n" ++ "" ++ "\n" ++ "" := rfl
  rw [header, hnotice, hopen, hclose]
  simp only [comments, List.cons_append, List.nil_append, String.intercalate_cons_cons,
    String.intercalate_singleton, String.append_assoc]

theorem splitOn_header {language : String} (h : '\n' ∉ language.toList) :
    (header language).toList.splitOn '\n' = (comments language).map String.toList ++ [[], []] := by
  have hlines : ∀ line ∈ (comments language ++ ["", ""]).map String.toList, '\n' ∉ line := by
    simp [comments, h]
  rw [header_eq, String.toList_intercalate]
  exact List.splitOn_intercalate '\n' hlines (by simp [comments])

theorem count_header (language : String) :
    (header language).toList.count '\n' = language.toList.count '\n' + 6 := by
  have hnotice : generatedNotice.toList.count '\n' = 2 := by decide +kernel
  simp only [header, String.toList_append, List.count_append, hnotice]
  simp
  omega

/-- A header has the right lines when the language does not break one of them. -/
theorem isHeader_iff (language : String) :
    IsHeader (header language) ↔ '\n' ∉ language.toList := by
  constructor
  · rintro ⟨lines, hlength, -, hsplit⟩
    have hcount := (cutAt_splitOn '\n' (header language).toList).length_eq
    rw [hsplit, ← List.count_eq_countP, count_header, List.length_append, hlength] at hcount
    apply List.count_eq_zero.mp
    simpa using hcount
  · intro h
    refine ⟨(comments language).map String.toList, rfl, ?_, splitOn_header h⟩
    simp [comments]

end StringsTable

/-! ## Accepted catalogs -/

/-- What the code of a language is like in an accepted catalog. It is ASCII, and plain
when its subtags of four characters are. Its table opens with five comment lines and
a blank line when no line feed is in it, and goes to a directory with the one name
of the code when no slash is. -/
theorem Catalog.codes_plain_iff {c : Catalog} {r : ResolvedCatalog} (h : c.resolve = .ok r)
    {language : String} (hlanguage : language ∈ c.languages) :
    (∀ ch ∈ language.toList, Language.isAsciiGraph ch = true) ∧
    (Language.IsPlain language ↔ ∀ tag ∈ Language.subtags language, tag.length = 4 →
      tag.all Char.isAlphanum = true) ∧
    (∃ pairs, r.table? language = some ⟨language, pairs⟩) ∧
    (StringsTable.IsHeader (StringsTable.header language) ↔ '\n' ∉ language.toList) ∧
    (Language.directorySteps language = [language ++ ".lproj"] ↔ '/' ∉ language.toList) ∧
    (Language.IsPlain language → '\n' ∉ language.toList ∧ '/' ∉ language.toList) := by
  have hcode := isCode_of_resolve h language hlanguage
  obtain ⟨t, ht⟩ := Option.isSome_iff_exists.mp
    ((comesFrom_of_resolve h).table?_isSome hlanguage)
  obtain ⟨-, htable, -⟩ := ResolvedCatalog.table?_eq_some_iff.mp ht
  refine ⟨Language.isAscii_of_isCode hcode, Language.isPlain_iff hcode, ⟨t.pairs, ?_⟩,
    StringsTable.isHeader_iff language, Language.directorySteps_eq_iff, fun hplain => ?_⟩
  · rw [ht, ← htable]
  · exact ⟨hplain.not_mem (by decide), hplain.not_mem (by decide)⟩

/-- A catalog without entries, in the German of a spelling reform. -/
def Catalog.reformed : Catalog := ⟨["de_CH-1996"], []⟩

theorem Catalog.reformed_codes_plain : (∃ r, Catalog.reformed.resolve = .ok r) ∧
    Language.IsPlain "de_CH-1996" ∧
    StringsTable.IsHeader (StringsTable.header "de_CH-1996") ∧
    Language.directorySteps "de_CH-1996" = ["de_CH-1996.lproj"] := by
  have hresolve : Validation.outcome Catalog.reformed.resolve = .ok () := by decide +kernel
  obtain ⟨r, hr⟩ := Validation.outcome_eq_ok_iff.mp hresolve
  obtain ⟨-, hplain, -, hheader, hsteps, hclean⟩ :=
    codes_plain_iff hr (List.mem_singleton_self "de_CH-1996")
  have hcode := hplain.mpr (by decide)
  exact ⟨⟨r, hr⟩, hcode, hheader.mpr (hclean hcode).1, hsteps.mpr (hclean hcode).2⟩

/-- Not every accepted code is plain. The variant of this one holds a slash and a line
feed, so its table has no header of five comment lines and goes to no directory of
the one name. -/
theorem Catalog.loose_code_accepted : (∃ r, (Catalog.mk ["en-1!/\n"] []).resolve = .ok r) ∧
    ¬ Language.IsPlain "en-1!/\n" ∧
    ¬ StringsTable.IsHeader (StringsTable.header "en-1!/\n") ∧
    Language.directorySteps "en-1!/\n" ≠ ["en-1!/\n.lproj"] := by
  have hresolve : Validation.outcome (Catalog.mk ["en-1!/\n"] []).resolve = .ok () := by
    decide +kernel
  refine ⟨?_, fun hplain => ?_, fun hheader => ?_, fun hsteps => ?_⟩
  · obtain ⟨r, hr⟩ := Validation.outcome_eq_ok_iff.mp hresolve
    exact ⟨r, hr⟩
  · exact absurd (hplain '!' (by decide)) (by decide)
  · exact (StringsTable.isHeader_iff _).mp hheader (by decide)
  · exact Language.directorySteps_eq_iff.mp hsteps (by decide)

end Phrasebook
