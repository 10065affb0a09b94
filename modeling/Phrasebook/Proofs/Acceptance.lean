-- Which catalogs are accepted. The checks run in an order and remember what
-- they saw, and together they ask for one condition without any order.
import Mathlib.Data.List.Nodup
import Phrasebook.Proofs.Identifiers
import Phrasebook.Proofs.Violations

namespace Phrasebook

/-! ## Localizations -/

namespace Localizations

theorem get?_isSome_iff {ls : Localizations} {language : String} :
    (ls.get? language).isSome ↔ language ∈ ls.languages := by
  rw [get?, List.lookup_isSome_iff, languages, List.mem_map]
  simp only [beq_iff_eq]
  exact exists_congr fun p => and_congr_right' eq_comm

theorem get?_eq_some_iff {ls : Localizations} {language text : String} :
    ls.get? language = some text ↔ (language, text) ∈ ls.toList := by
  constructor
  · intro h
    obtain ⟨before, after, hlist, -⟩ := List.lookup_eq_some_iff.mp h
    simp [hlist]
  · intro h
    obtain ⟨before, after, hlist⟩ := List.append_of_mem h
    refine List.lookup_eq_some_iff.mpr ⟨before, after, hlist, ?_⟩
    intro p hp
    have hsorted := hlist ▸ ls.sorted
    have hless : p.1 < language := (List.pairwise_append.mp hsorted).2.2 p hp _ List.mem_cons_self
    simpa using (String.ne_of_lt hless).symm

end Localizations

/-! ## Well-formed catalogs -/

/-- What an entry must be like by itself, in a catalog of some languages. -/
structure Entry.WellFormed (languages : List String) (e : Entry) : Prop where
  localized : ∀ language, language ∈ e.localizations.languages ↔ language ∈ languages
  key_is_path : IsIdentifierPath e.key
  names_are_identifiers : ∀ a ∈ e.arguments, IsIdentifier a.name
  names_nodup : (e.arguments.map (·.name)).Nodup
  types_known : ∀ a ∈ e.arguments, a.type ∈ ["String", "Int", "Double"]
  references_declared : ∀ language source, (language, source) ∈ e.localizations.toList →
    ∀ p ∈ Template.placeholders source, p.name ∈ e.arguments.map (·.name)

/-- What a catalog must be like, whatever the order of the checks. -/
structure Catalog.WellFormed (c : Catalog) : Prop where
  some_language : c.languages ≠ []
  languages_are_codes : ∀ language ∈ c.languages, Language.isCode language
  languages_nodup : c.languages.Nodup
  keys_nodup : (c.entries.map (·.key)).Nodup
  entries_wellFormed : ∀ e ∈ c.entries, e.WellFormed c.languages
  accessors_apart : ∀ a ∈ c.entries, ∀ b ∈ c.entries, a ≠ b → ¬ Clash a.key b.key

/-! ## What each check asks for -/

namespace Validation

theorem forall_earlier_ne_iff {earlier : List String} {name : String} :
    (∀ e ∈ earlier, e ≠ name) ↔ name ∉ earlier :=
  ⟨fun h hmem => h name hmem rfl, fun h _ he heq => h (heq ▸ he)⟩

theorem languageFaults_eq_nil_iff (languages : List String) :
    eachAfter languageFaults [] languages = [] ↔
      (∀ language ∈ languages, Language.isCode language) ∧ languages.Nodup := by
  refine eachAfter_eq_nil_iff (Language.isCode ·) ?_ .nil languages
  intro earlier language _
  unfold languageFaults
  rw [List.append_eq_nil_iff, forall_earlier_ne_iff]
  simp

theorem keyFaults_eq_nil_iff (keys : List String) :
    eachAfter keyFaults [] keys = [] ↔ keys.Nodup := by
  have hfaults : eachAfter keyFaults [] keys = [] ↔ (∀ key ∈ keys, True) ∧ keys.Nodup := by
    refine eachAfter_eq_nil_iff (fun _ => True) ?_ .nil keys
    intro earlier key _
    unfold keyFaults
    rw [forall_earlier_ne_iff]
    simp
  rw [hfaults]
  exact and_iff_right fun _ _ => trivial

theorem argumentType?_isSome_iff {a : Argument} :
    a.argumentType?.isSome ↔ a.type ∈ ["String", "Int", "Double"] := by
  unfold Argument.argumentType? ArgumentType.ofName?
  by_cases hstring : a.type = "String"
  · simp [hstring]
  · by_cases hint : a.type = "Int"
    · simp [hint]
    · by_cases hdouble : a.type = "Double" <;> simp [hstring, hint, hdouble]

theorem argumentFaults_eq_nil_iff (key : String) (arguments : List Argument) :
    eachAfter (argumentFaults key) [] arguments = [] ↔
      (∀ a ∈ arguments, IsIdentifier a.name ∧ a.type ∈ ["String", "Int", "Double"]) ∧
        (arguments.map (·.name)).Nodup := by
  rw [List.Nodup, List.pairwise_map]
  refine eachAfter_eq_nil_iff (fun a => IsIdentifier a.name ∧ a.type ∈ ["String", "Int", "Double"])
    ?_ .nil arguments
  intro earlier a _
  have hnew : (∀ e ∈ earlier, e.name ≠ a.name) ↔ a.name ∉ earlier.map (·.name) := by
    rw [← forall_earlier_ne_iff, List.forall_mem_map]
  unfold argumentFaults
  rw [hnew, ← isIdentifier_iff, ← argumentType?_isSome_iff]
  by_cases hold : a.name ∈ earlier.map (·.name) <;> simp [hold, Option.isSome_iff_ne_none]

theorem templateFaults_eq_nil_iff {entry : Entry} {language : String} :
    templateFaults entry language = [] ↔
      ∀ source, (language, source) ∈ entry.localizations.toList →
        ∀ p ∈ Template.placeholders source, p.name ∈ entry.arguments.map (·.name) := by
  simp only [← Localizations.get?_eq_some_iff]
  unfold templateFaults Entry.localization?
  cases entry.localizations.get? language with
  | none => simp
  | some source => simp [referenceFaults]

theorem entryFaults_eq_nil_iff {languages : List String} {entry : Entry}
    (h : ∀ language, language ∈ entry.localizations.languages ↔ language ∈ languages) :
    entryFaults languages entry = [] ↔ entry.WellFormed languages := by
  have htemplates : languages.flatMap (templateFaults entry) = [] ↔
      ∀ language source, (language, source) ∈ entry.localizations.toList →
        ∀ p ∈ Template.placeholders source, p.name ∈ entry.arguments.map (·.name) := by
    simp only [List.flatMap_eq_nil_iff, templateFaults_eq_nil_iff, ← h]
    exact ⟨fun hall language source hl => hall language (List.mem_map_of_mem hl) source hl,
      fun hall language _ source hl => hall language source hl⟩
  unfold entryFaults
  rw [List.append_eq_nil_iff, List.append_eq_nil_iff, argumentFaults_eq_nil_iff,
    htemplates, ite_eq_left_iff, isIdentifierPath_iff]
  constructor
  · rintro ⟨hkey, ⟨harguments, hnames⟩, hreferences⟩
    exact {
      localized := h
      key_is_path := by simpa using hkey
      names_are_identifiers := fun a ha => (harguments a ha).1
      names_nodup := hnames
      types_known := fun a ha => (harguments a ha).2
      references_declared := hreferences }
  · intro hw
    refine ⟨fun hno => absurd hw.key_is_path hno, ⟨?_, hw.names_nodup⟩, hw.references_declared⟩
    intro a ha
    exact ⟨hw.names_are_identifiers a ha, hw.types_known a ha⟩

/-- Localized where needed and nowhere else. -/
theorem localized_iff {c : Catalog} :
    (∀ entry ∈ c.entries, ∀ language,
        language ∈ entry.localizations.languages ↔ language ∈ c.languages) ↔
      c.languages.flatMap (fun language => c.entries.flatMap (missingFaults language)) = [] ∧
        c.entries.flatMap (fun entry =>
          entry.localizations.languages.flatMap (unnecessaryFaults c.languages entry)) = [] := by
  rw [missing_eq_nil_iff]
  simp only [List.flatMap_eq_nil_iff, unnecessaryFaults, ite_eq_left_iff, List.cons_ne_nil,
    imp_false, not_not, Entry.localization?, Localizations.get?_isSome_iff]
  constructor
  · intro h
    exact ⟨fun language hl entry he => (h entry he language).mpr hl,
      fun entry he language hl => (h entry he language).mp hl⟩
  · rintro ⟨hmissing, hunnecessary⟩ entry he language
    exact ⟨hunnecessary entry he language, fun hl => hmissing language hl entry he⟩

/-- Of entries with keys of their own, no two clash when each two of the list
are apart. -/
theorem apart_iff {entries : List Entry} (h : (entries.map (·.key)).Nodup) :
    (entries.map (·.key)).Pairwise Apart ↔
      ∀ a ∈ entries, ∀ b ∈ entries, a ≠ b → ¬ Clash a.key b.key := by
  constructor
  · intro hpair a ha b hb hne
    have hkeys : a.key ≠ b.key := fun he => hne (List.inj_on_of_nodup_map h ha hb he)
    exact (hpair.forall (List.mem_map_of_mem ha) (List.mem_map_of_mem hb) hkeys).1
  · intro hclash
    rw [List.pairwise_map]
    apply (List.pairwise_map.mp h).imp_of_mem
    intro a b ha hb hkey
    have hne : a ≠ b := fun he => hkey (he ▸ rfl)
    exact ⟨hclash a ha b hb hne, hclash b hb a ha hne.symm⟩

end Validation

open Validation

/-! ## The whole catalog -/

theorem Catalog.languages_of_resolve {c : Catalog} {r : ResolvedCatalog} (h : c.resolve = .ok r) :
    c.languages ≠ [] ∧ c.languages.Nodup := by
  obtain ⟨hlanguages, -⟩ := resolve_eq_ok_iff.mp h
  rw [checkLanguages_eq_stopAt, stopAt_eq_ok_iff, List.append_eq_nil_iff,
    languageFaults_eq_nil_iff] at hlanguages
  obtain ⟨hsome, -, hnodup⟩ := hlanguages
  exact ⟨by simpa using hsome, hnodup⟩

theorem Catalog.isCode_of_resolve {c : Catalog} {r : ResolvedCatalog} (h : c.resolve = .ok r) :
    ∀ language ∈ c.languages, Language.isCode language := by
  obtain ⟨hlanguages, -⟩ := resolve_eq_ok_iff.mp h
  rw [checkLanguages_eq_stopAt, stopAt_eq_ok_iff, List.append_eq_nil_iff,
    languageFaults_eq_nil_iff] at hlanguages
  exact hlanguages.2.1

theorem Catalog.keys_nodup_of_resolve {c : Catalog} {r : ResolvedCatalog} (h : c.resolve = .ok r) :
    (c.entries.map (·.key)).Nodup := by
  obtain ⟨-, hkeys, -⟩ := resolve_eq_ok_iff.mp h
  rwa [checkKeys, checkKeysAfter_eq_stopAt (fun _ => Iff.rfl), stopAt_eq_ok_iff,
    keyFaults_eq_nil_iff] at hkeys

/-- A catalog is resolved when it is well formed, and only then. -/
theorem Catalog.resolves_iff_wellFormed (c : Catalog) : (∃ r, c.resolve = .ok r) ↔ c.WellFormed := by
  rw [← outcome_eq_ok_iff, outcome_resolve, stopAt_eq_ok_iff, violations]
  simp only [List.append_eq_nil_iff, languageFaults_eq_nil_iff, keyFaults_eq_nil_iff,
    accessorFaults_eq_nil_iff]
  constructor
  · rintro ⟨hsome, ⟨hcodes, hlanguages⟩, hkeys, hmissing, hunnecessary, hentries, happart⟩
    have hlocalized := localized_iff.mpr ⟨hmissing, hunnecessary⟩
    rw [List.flatMap_eq_nil_iff] at hentries
    exact {
      some_language := by simpa using hsome
      languages_are_codes := hcodes
      languages_nodup := hlanguages
      keys_nodup := hkeys
      entries_wellFormed := fun e he =>
        (entryFaults_eq_nil_iff (hlocalized e he)).mp (hentries e he)
      accessors_apart := (apart_iff hkeys).mp happart }
  · intro hw
    have hlocalized := localized_iff.mp fun e he => (hw.entries_wellFormed e he).localized
    refine ⟨?_, ⟨hw.languages_are_codes, hw.languages_nodup⟩, hw.keys_nodup, hlocalized.1,
      hlocalized.2, ?_, (apart_iff hw.keys_nodup).mpr hw.accessors_apart⟩
    · simpa using hw.some_language
    · rw [List.flatMap_eq_nil_iff]
      intro e he
      have hentry := hw.entries_wellFormed e he
      exact (entryFaults_eq_nil_iff hentry.localized).mpr hentry

end Phrasebook
