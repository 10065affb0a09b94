-- Language codes that are accepted. A code opens with a letter, and as each of
-- its subtags is short or made of letters and digits, no step back is in it.
import Phrasebook.Language
import Phrasebook.Proofs.ListPieces

namespace Phrasebook

/-! ## Accepted codes -/

namespace Language

/-- Letters and digits only, or else a variant. -/
def IsSubtag (tag : List Char) : Prop := tag.all Char.isAlphanum = true ∨ isVariant tag = true

theorem IsSubtag.of_all_isAlpha {tag : List Char} (h : tag.all Char.isAlpha = true) :
    IsSubtag tag := by
  apply Or.inl
  rw [List.all_eq_true] at h ⊢
  intro c hc
  rw [Char.isAlphanum, h c hc, Bool.true_or]

theorem IsSubtag.of_isRegion {tag : List Char} (h : isRegion tag = true) : IsSubtag tag := by
  unfold isRegion at h
  rcases Bool.or_eq_true_iff.mp h with halpha | hdigit
  · exact of_all_isAlpha (Bool.and_eq_true_iff.mp halpha).1
  · apply Or.inl
    rw [List.all_eq_true]
    intro c hc
    rw [Char.isAlphanum, List.all_eq_true.mp (Bool.and_eq_true_iff.mp hdigit).1 c hc, Bool.or_true]

theorem isSubtag_of_areVariants {tags : List (List Char)} (h : areVariants tags = true) :
    ∀ tag ∈ tags, IsSubtag tag :=
  fun tag htag => .inr (List.all_eq_true.mp h tag htag)

theorem isSubtag_of_isRegionTail {tags : List (List Char)} (h : isRegionTail tags = true) :
    ∀ tag ∈ tags, IsSubtag tag := by
  cases tags with
  | nil => simp
  | cons tag rest =>
    obtain ⟨hfirst, hrest⟩ := Bool.and_eq_true_iff.mp h
    rw [List.forall_mem_cons]
    refine ⟨?_, isSubtag_of_areVariants hrest⟩
    rcases Bool.or_eq_true_iff.mp hfirst with hregion | hvariant
    · exact .of_isRegion hregion
    · exact .inr hvariant

theorem isSubtag_of_isLanguageTail {tags : List (List Char)} (h : isLanguageTail tags = true) :
    ∀ tag ∈ tags, IsSubtag tag := by
  cases tags with
  | nil => simp
  | cons tag rest =>
    rw [isLanguageTail] at h
    split at h
    · rename_i hscript
      rw [List.forall_mem_cons]
      exact ⟨.of_all_isAlpha (Bool.and_eq_true_iff.mp hscript).1, isSubtag_of_isRegionTail h⟩
    · exact isSubtag_of_isRegionTail h

theorem exists_subtags_of_isLanguageIdentifier {code : String}
    (h : isLanguageIdentifier code = true) : ∃ tag rest,
      code.toList.splitOnP isSubtagMark = tag :: rest ∧ isLanguage tag = true ∧
        isLanguageTail rest = true := by
  unfold isLanguageIdentifier at h
  split at h
  · cases h
  · rename_i tag rest hsplit
    obtain ⟨hfirst, hrest⟩ := Bool.and_eq_true_iff.mp h
    exact ⟨tag, rest, hsplit, hfirst, hrest⟩

theorem all_isAlpha_of_isLanguage {tag : List Char} (h : isLanguage tag = true) :
    tag ≠ [] ∧ tag.all Char.isAlpha = true := by
  obtain ⟨halpha, hlength⟩ := Bool.and_eq_true_iff.mp h
  refine ⟨?_, halpha⟩
  rintro rfl
  exact absurd hlength (by decide)

theorem isSubtag_of_isLanguageIdentifier {code : String} (h : isLanguageIdentifier code = true) :
    ∀ tag ∈ code.toList.splitOnP isSubtagMark, IsSubtag tag := by
  obtain ⟨tag, rest, hsplit, hfirst, hrest⟩ := exists_subtags_of_isLanguageIdentifier h
  rw [hsplit, List.forall_mem_cons]
  exact ⟨.of_all_isAlpha (all_isAlpha_of_isLanguage hfirst).2, isSubtag_of_isLanguageTail hrest⟩

/-- A step back between two slashes. -/
def upStep : List Char := ['/', '.', '.', '/']

theorem not_upStep_of_alphanum {tag : List Char} (h : tag.all Char.isAlphanum = true) :
    ¬ upStep <:+: tag := by
  intro hin
  have hslash := List.all_eq_true.mp h '/' (hin.subset (by decide))
  exact absurd hslash (by decide)

/-- Four characters are no step back, as a variant with a slash opens with a digit
or has letters and digits after it. -/
theorem IsSubtag.not_upStep {tag : List Char} (h : IsSubtag tag) : ¬ upStep <:+: tag := by
  rcases h with hall | hvariant
  · exact not_upStep_of_alphanum hall
  · unfold isVariant at hvariant
    rcases Bool.or_eq_true_iff.mp hvariant with hlong | hfour
    · simp only [Bool.and_eq_true] at hlong
      exact not_upStep_of_alphanum hlong.1.1
    · intro hin
      split at hfour
      · rename_i a b c d
        obtain ⟨rfl, rfl, rfl, rfl⟩ : '/' = a ∧ '.' = b ∧ '.' = c ∧ '/' = d := by
          simpa [upStep] using hin.eq_of_length rfl
        exact absurd hfour (by decide)
      · cases hfour

theorem isCode_not_upStep {code : String} (h : isCode code = true) : ¬ upStep <:+: code.toList := by
  intro hin
  rcases Bool.or_eq_true_iff.mp h with hbase | hcode
  · rw [eq_of_beq hbase] at hin
    exact absurd hin (by decide)
  · have hmarks : ∀ c ∈ upStep, isSubtagMark c = false := by
      simp [upStep, isSubtagMark]
    obtain ⟨tag, htag, hintag⟩ :=
      (cutAt_splitOnP isSubtagMark code.toList).exists_piece hmarks hin
    exact (isSubtag_of_isLanguageIdentifier hcode tag htag).not_upStep hintag

theorem exists_head_of_isCode {code : String} (h : isCode code = true) :
    ∃ c rest, code.toList = c :: rest ∧ c.isAlpha = true := by
  rcases Bool.or_eq_true_iff.mp h with hbase | hcode
  · rw [eq_of_beq hbase]
    exact ⟨'B', _, rfl, rfl⟩
  · obtain ⟨tag, tags, hsplit, hfirst, -⟩ := exists_subtags_of_isLanguageIdentifier hcode
    obtain ⟨hne, halpha⟩ := all_isAlpha_of_isLanguage hfirst
    have hcut := cutAt_splitOnP isSubtagMark code.toList
    rw [hsplit] at hcut
    generalize code.toList = chars at hcut
    cases hcut with
    | nil => exact absurd rfl hne
    | mark _ _ => exact absurd rfl hne
    | @plain c rest _ _ _ _ =>
      exact ⟨c, rest, rfl, List.all_eq_true.mp halpha c List.mem_cons_self⟩

end Language

end Phrasebook
