-- What is looked up by language. The value of an entry and the table of a catalog are
-- missing exactly when the language is not declared. The rows are collected entry by
-- entry, so a catalog without entries has rows in every language.
import Phrasebook.Proofs.Faithfulness
import Phrasebook.Proofs.Rearrangement

namespace Phrasebook

/-! ## One entry -/

namespace ResolvedEntry

variable {languages : List String} {entry : Entry} {e : ResolvedEntry} {language : String}

theorem ComesFrom.value?_eq_none_iff (h : e.ComesFrom languages entry) :
    e.value? language = none ↔ language ∉ languages := by
  rw [value?, Option.map_eq_none_iff]
  constructor
  · intro hnone hl
    obtain ⟨t, ht, -⟩ := h.template?_eq hl
    rw [hnone] at ht
    cases ht
  · exact template?_eq_none h

theorem ComesFrom.row?_isSome_iff (h : e.ComesFrom languages entry) :
    (e.row? language).isSome ↔ language ∈ languages := by
  rw [row?, Option.isSome_map, Option.isSome_iff_ne_none, ne_eq, h.value?_eq_none_iff, not_not]

end ResolvedEntry

/-! ## All entries -/

namespace ResolvedCatalog

variable {c : Catalog} {r : ResolvedCatalog} {language : String}

theorem ComesFrom.table?_eq_none_iff (h : r.ComesFrom c) :
    r.table? language = none ↔ language ∉ c.languages := by
  rw [← h.languages_eq]
  constructor
  · intro hnone hl
    obtain ⟨t, ht⟩ := h.exists_table (h.languages_eq ▸ hl)
    rw [hnone] at ht
    cases ht
  · exact table?_eq_none_of_not_mem

theorem ComesFrom.entries_eq_nil_iff (h : r.ComesFrom c) : r.entries = [] ↔ c.entries = [] := by
  rw [← List.length_eq_zero_iff, ← List.length_eq_zero_iff, h.entries.length_eq]

/-- Rows are missing when an entry lacks the language, so there has to be one. -/
theorem ComesFrom.rows?_eq_none_iff (h : r.ComesFrom c) :
    r.rows? language = none ↔ language ∉ c.languages ∧ c.entries ≠ [] := by
  have hrow : ∀ e ∈ r.entries, ((e.row? language).isSome ↔ language ∈ c.languages) := by
    intro e he
    obtain ⟨entry, -, hfrom⟩ := Validation.exists_of_mem_forall₂ h.entries he
    exact hfrom.row?_isSome_iff
  rw [← Option.not_isSome_iff_eq_none, rows?, mapM_isSome_iff, forall₂_congr hrow]
  constructor
  · intro hlacking
    refine ⟨fun hl => hlacking fun _ _ => hl, fun hnil => hlacking fun e he => ?_⟩
    rw [h.entries_eq_nil_iff.mpr hnil] at he
    cases he
  · rintro ⟨hl, hsome⟩ hall
    obtain ⟨e, he⟩ := List.exists_mem_of_ne_nil _ (mt h.entries_eq_nil_iff.mp hsome)
    exact hl (hall e he)

theorem rows?_of_entries_nil (h : r.entries = []) : r.rows? language = some [] := by
  rw [rows?, h, List.mapM_nil]
  rfl

/-- What the three lookups give for a language. Rows are the key and the value of each
entry, and the table of a language has the rows of the language. -/
structure AnswersFor (c : Catalog) (r : ResolvedCatalog) (language : String) : Prop where
  value_missing : ∀ e ∈ r.entries, e.value? language = none ↔ language ∉ c.languages
  table_missing : r.table? language = none ↔ language ∉ c.languages
  rows_missing : r.rows? language = none ↔ language ∉ c.languages ∧ c.entries ≠ []
  rows_without_entries : c.entries = [] → r.rows? language = some []
  rows_of_declared : language ∈ c.languages → ∃ rows,
    r.rows? language = some rows ∧ r.table? language = some ⟨language, rows⟩ ∧
    rows.length = c.entries.length ∧
    List.Forall₂ (fun e (p : StringsPair) =>
      p.key = e.resourceKey ∧ e.value? language = some p.value) r.entries rows

end ResolvedCatalog

open ResolvedCatalog

/-- Values and tables tell the declared languages from the others, and so do rows if
there is an entry. -/
theorem Catalog.lookups_tell_languages {c : Catalog} {r : ResolvedCatalog}
    (h : c.resolve = .ok r) (language : String) : AnswersFor c r language := by
  have hfrom := comesFrom_of_resolve h
  exact {
    value_missing := fun e he => by
      obtain ⟨entry, -, hentry⟩ := Validation.exists_of_mem_forall₂ hfrom.entries he
      exact hentry.value?_eq_none_iff
    table_missing := hfrom.table?_eq_none_iff
    rows_missing := hfrom.rows?_eq_none_iff
    rows_without_entries := fun hnil => rows?_of_entries_nil (hfrom.entries_eq_nil_iff.mpr hnil)
    rows_of_declared := fun hl => by
      obtain ⟨t, ht⟩ := hfrom.exists_table hl
      obtain ⟨-, rfl, hrows⟩ := table?_eq_some_iff.mp ht
      have heach := (mapM_eq_some_iff.mp hrows).imp fun _ _ => ResolvedEntry.row?_eq_some_iff.mp
      refine ⟨t.pairs, hrows, ht, ?_, heach⟩
      rw [← heach.length_eq, hfrom.entries.length_eq] }

/-- Two entries in two languages, looked up in one of them and in a third one. -/
theorem Catalog.welcome_lookups_tell_languages :
    ∃ r, Catalog.welcome.resolve = .ok r ∧
      (∃ rows, r.rows? "de" = some rows ∧ r.table? "de" = some ⟨"de", rows⟩ ∧ rows.length = 2) ∧
      r.rows? "fr" = none ∧ r.table? "fr" = none ∧
      ∀ e ∈ r.entries, e.value? "fr" = none := by
  have hresolve : Validation.outcome Catalog.welcome.resolve = .ok () := by decide +kernel
  obtain ⟨r, hr⟩ := Validation.outcome_eq_ok_iff.mp hresolve
  have hde := lookups_tell_languages hr "de"
  have hfr := lookups_tell_languages hr "fr"
  have hforeign : "fr" ∉ Catalog.welcome.languages := by decide
  obtain ⟨rows, hrows, htable, hlength, -⟩ := hde.rows_of_declared (by decide)
  exact ⟨r, hr, ⟨rows, hrows, htable, hlength⟩, hfr.rows_missing.mpr ⟨hforeign, by decide⟩,
    hfr.table_missing.mpr hforeign, fun e he => (hfr.value_missing e he).mpr hforeign⟩

/-- Without entries there are rows in a language that is not declared. -/
theorem Catalog.itemless_rows_of_undeclared :
    ∃ r, (Catalog.mk ["en"] []).resolve = .ok r ∧ r.table? "fr" = none ∧
      r.rows? "fr" = some [] ∧
      ¬ (r.rows? "fr" = none ↔ "fr" ∉ (Catalog.mk ["en"] []).languages) := by
  have hresolve : Validation.outcome (Catalog.mk ["en"] []).resolve = .ok () := by decide +kernel
  obtain ⟨r, hr⟩ := Validation.outcome_eq_ok_iff.mp hresolve
  have hfrom := comesFrom_of_resolve hr
  have hforeign : "fr" ∉ (Catalog.mk ["en"] []).languages := by decide
  have hrows : r.rows? "fr" = some [] := rows?_of_entries_nil (hfrom.entries_eq_nil_iff.mpr rfl)
  refine ⟨r, hr, hfrom.table?_eq_none_iff.mpr hforeign, hrows, fun htells => ?_⟩
  have hnone := htells.mpr hforeign
  rw [hrows] at hnone
  cases hnone

end Phrasebook
