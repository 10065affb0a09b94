-- Templates whose placeholders are filled. When no text that is filled in opens a
-- placeholder or goes on with one, nothing in the filled template is a placeholder,
-- not even next to an opening that is never closed.
import Phrasebook.Proofs.CallSites

namespace Phrasebook

namespace Template

variable {text : String → String}

/-! ## Texts to fill in -/

/-- A text without backslashes that does not go on where a backslash stands
before it. -/
def IsInert (s : String) : Prop :=
  '\\' ∉ s.toList ∧ ∃ c rest, s.toList = c :: rest ∧ c ≠ '('

theorem isInert_positionalSpecifier (t : ArgumentType) (place : Nat) :
    IsInert (t.positionalSpecifier place) := by
  rw [IsInert, Directive.toList_positionalSpecifier]
  refine ⟨?_, '%', _, rfl, by decide⟩
  have hdigits : '\\' ∉ Nat.toDigits 10 place := fun hmem =>
    absurd (Nat.isDigit_of_mem_toDigits (by omega) (by omega) hmem) (by decide)
  have hspecifier : '\\' ∉ t.specifier.toList := by cases t <;> decide
  simp [hdigits, hspecifier]

/-! ## Openings that are not closed -/

/-- What closes nothing on its line has no placeholder on that line either, so
it stays as it is up to the line feed. -/
theorem closeName_filled {cs : List Char} (h : closeName cs = none) :
    closeName ((pieces cs).flatMap (Piece.filled text)) = none := by
  fun_induction pieces cs with
  | case1 => rfl
  | case2 c rest name after hopen ih =>
    -- a placeholder would close on that line
    obtain ⟨hsource, -, hline⟩ := openName_eq_some_iff.mp hopen
    have hplain : '\n' ∉ '\\' :: '(' :: name := by simpa using hline
    have hclosed := closeName_isSome after hplain
    have hsame : '\\' :: '(' :: name ++ ')' :: after = c :: rest := by
      simp [hsource, Piece.source]
    rw [hsame, h] at hclosed
    cases hclosed
  | case3 c rest hopen ih =>
    rw [List.flatMap_cons, Piece.filled, List.singleton_append, closeName]
    rw [closeName] at h
    split at h
    · cases h
    · rename_i hclose
      rw [if_neg hclose]
      split at h
      · rename_i hline
        rw [if_pos hline]
      · rename_i hline
        rw [if_neg hline, ih (Option.map_eq_none_iff.mp h), Option.map_none]

/-- A character that opens no placeholder in the template opens none in the
filled template. -/
theorem openName_filled {c : Char} {cs : List Char}
    (hinert : ∀ name, .reference name ∈ pieces cs → IsInert (text (String.ofList name)))
    (h : openName (c :: cs) = none) :
    openName (c :: (pieces cs).flatMap (Piece.filled text)) = none := by
  by_cases hc : c = '\\'
  · subst hc
    cases cs with
    | nil => simp [pieces, openName]
    | cons d rest =>
      cases hopen : openName (d :: rest) with
      | some found =>
        obtain ⟨name, after⟩ := found
        rw [pieces_of_openName hopen] at hinert ⊢
        obtain ⟨-, e, tail, htext, he⟩ := hinert name List.mem_cons_self
        rw [List.flatMap_cons, Piece.filled, htext, List.cons_append]
        simp [openName, he]
      | none =>
        rw [pieces_of_openName_eq_none hopen, List.flatMap_cons, Piece.filled,
          List.singleton_append]
        by_cases hd : d = '('
        · subst hd
          rw [openName] at h ⊢
          exact closeName_filled h
        · simp [openName, hd]
  · exact openName_of_ne hc _

/-- The filled template is plain text. -/
theorem pieces_filled {cs : List Char}
    (hinert : ∀ name, .reference name ∈ pieces cs → IsInert (text (String.ofList name))) :
    pieces ((pieces cs).flatMap (Piece.filled text)) =
      ((pieces cs).flatMap (Piece.filled text)).map .literal := by
  fun_induction pieces cs with
  | case1 => simp [pieces]
  | case2 c rest name after hopen ih =>
    have hafter := ih fun other hother => hinert other (List.mem_cons_of_mem _ hother)
    rw [List.flatMap_cons, Piece.filled,
      pieces_append_of_not_mem (hinert name List.mem_cons_self).1, hafter, List.map_append]
  | case3 c rest hopen ih =>
    have hrest : ∀ name, .reference name ∈ pieces rest → IsInert (text (String.ofList name)) :=
      fun name hname => hinert name (List.mem_cons_of_mem _ hname)
    rw [List.flatMap_cons, Piece.filled, List.singleton_append,
      pieces_of_openName_eq_none (openName_filled hrest hopen), ih hrest, List.map_cons]

theorem locate_literals (offset : Nat) (cs : List Char) :
    locate offset (cs.map .literal) = [] := by
  induction cs generalizing offset with
  | nil => rfl
  | cons c cs ih => exact ih _

theorem placeholders_fill {source : String}
    (hinert : ∀ name, .reference name ∈ pieces source.toList → IsInert (text (String.ofList name))) :
    placeholders (fill text source) = [] := by
  rw [placeholders, fill_eq, String.toList_ofList, pieces_filled hinert, locate_literals]

end Template

/-! ## Values -/

/-- Each placeholder of a resolved template is filled with the specifier of its
argument. -/
theorem ResolvedTemplate.ComesFrom.isInert_token {entry : Entry} {arguments : List TypedArgument}
    {language : String} {t : ResolvedTemplate} (h : t.ComesFrom entry arguments language)
    {token : String → String} (htoken : ∀ (place : Nat) (a : TypedArgument),
      arguments[place]? = some a → token a.name = a.type.positionalSpecifier (place + 1))
    {name : List Char} (hname : .reference name ∈ Template.pieces t.source.toList) :
    Template.IsInert (token (String.ofList name)) := by
  obtain ⟨r, -, hr⟩ := Validation.exists_of_mem_forall₂ h.pieces.flip hname
  cases hr with
  | argument hat hdeclared =>
    rw [← hdeclared, htoken _ _ hat]
    exact Template.isInert_positionalSpecifier _ _

/-- No value holds a placeholder, neither one of its template nor a new one. -/
theorem Catalog.values_have_no_placeholders {c : Catalog} {r : ResolvedCatalog}
    (h : c.resolve = .ok r) {place : Nat} {entry : Entry}
    (hentry : c.entries[place]? = some entry) {language : String}
    (hlanguage : language ∈ c.languages) :
    ∃ e value, r.entries[place]? = some e ∧ e.value? language = some value ∧
      Template.placeholders value = [] := by
  obtain ⟨e, he, hfrom⟩ :=
    Validation.getElem?_of_forall₂ (comesFrom_of_resolve h).entries hentry
  obtain ⟨t, ht, htemplate⟩ := hfrom.template?_eq hlanguage
  have hnames := TypedArgument.names_eq hfrom.arguments
  obtain ⟨token, htoken⟩ := exists_token (hnames ▸ hfrom.names_nodup)
  refine ⟨e, t.value, he, ?_, ?_⟩
  · rw [ResolvedEntry.value?, ht, Option.map_some]
  · rw [htemplate.value_eq_fill htoken]
    exact Template.placeholders_fill fun name hname => htemplate.isInert_token htoken hname

/-- A template with an opening that its line does not close, a backslash right before
a placeholder, and parentheses around another one. -/
def Entry.unclosed : Entry where
  key := "unclosed"
  localizations := .ofList [("en", "\\(open\n\\\\(name) (\\(name))")]
  arguments := [⟨"name", "String"⟩]

theorem Catalog.unclosed_has_no_placeholders :
    ∃ r e value, (Catalog.mk ["en"] [.unclosed]).resolve = .ok r ∧ r.entries[0]? = some e ∧
      e.value? "en" = some value ∧ Template.placeholders value = [] := by
  have hresolve : Validation.outcome (Catalog.mk ["en"] [.unclosed]).resolve = .ok () := by
    decide +kernel
  obtain ⟨r, hr⟩ := Validation.outcome_eq_ok_iff.mp hresolve
  have hentry : (Catalog.mk ["en"] [.unclosed]).entries[0]? = some .unclosed := rfl
  obtain ⟨e, value, he, hvalue, hnone⟩ :=
    values_have_no_placeholders hr hentry List.mem_cons_self
  exact ⟨r, e, value, hr, he, hvalue, hnone⟩

end Phrasebook
