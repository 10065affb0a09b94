-- Catalogs whose entries were taken out and put into another order, and whose
-- languages were. Nothing that a check asks for depends on the order or on an entry
-- that is gone, and each entry that is left keeps its rows and its accessor.
import Mathlib.Data.List.Perm.Subperm
import Phrasebook.Proofs.Independence

namespace Phrasebook

open Validation

/-! ## Some elements in another order -/

section

variable {α β : Type} {l m : List α}

theorem subperm_map (h : l.Subperm m) (f : α → β) : (l.map f).Subperm (m.map f) := by
  obtain ⟨kept, hperm, hsub⟩ := h
  exact ⟨kept.map f, hperm.map f, hsub.map f⟩

theorem pairwise_of_subperm {R : α → α → Prop} [Std.Symm R] (h : l.Subperm m)
    (hpair : m.Pairwise R) : l.Pairwise R := by
  obtain ⟨kept, hperm, hsub⟩ := h
  exact hperm.pairwise (hpair.sublist hsub) (Std.Symm.symm _ _)

theorem exists_mem_zip {R : α → β → Prop} {bs : List β} (h : List.Forall₂ R m bs) {a : α}
    (ha : a ∈ m) : ∃ b, (a, b) ∈ m.zip bs ∧ R a b := by
  induction h with
  | nil => simp at ha
  | @cons first b m bs hab _ ih =>
    rcases List.mem_cons.mp ha with rfl | hrest
    · exact ⟨b, by simp, hab⟩
    · obtain ⟨b', hb', hR⟩ := ih hrest
      exact ⟨b', by simp [hb'], hR⟩

/-- What the elements of a list have, next to what they had in a list around it. -/
theorem forall₂_of_subset {R S : α → β → Prop} {bs cs : List β} (h : List.Forall₂ R m bs)
    (hsub : l ⊆ m) (h' : List.Forall₂ S l cs) :
    List.Forall₂ (fun a c => ∃ b, (a, b) ∈ m.zip bs ∧ R a b ∧ S a c) l cs := by
  induction h' with
  | nil => exact .nil
  | cons hac _ ih =>
    obtain ⟨ha, hrest⟩ := List.cons_subset.mp hsub
    obtain ⟨b, hb, hab⟩ := exists_mem_zip h ha
    exact .cons ⟨b, hb, hab, hac⟩ (ih hrest)

end

/-! ## Checks of what is left -/

namespace Catalog

variable {c : Catalog} {languages : List String} {entries : List Entry}

theorem entryFaults_eq_nil_of_subset {entry : Entry} (h : entryFaults c.languages entry = [])
    (hl : languages ⊆ c.languages) : entryFaults languages entry = [] := by
  unfold entryFaults at h ⊢
  simp only [List.append_eq_nil_iff, List.flatMap_eq_nil_iff] at h ⊢
  obtain ⟨hkey, harguments, htemplates⟩ := h
  exact ⟨hkey, harguments, fun language hmem => htemplates language (hl hmem)⟩

/-- What is left of a catalog without violations has none. -/
theorem violations_eq_nil_of_subperm (h : c.violations = []) (hl : languages.Perm c.languages)
    (he : entries.Subperm c.entries) : (mk languages entries).violations = [] := by
  have hkeys := subperm_map he (·.key)
  unfold violations at h ⊢
  simp only [List.append_eq_nil_iff, languageFaults_eq_nil_iff, keyFaults_eq_nil_iff,
    accessorFaults_eq_nil_iff, List.flatMap_eq_nil_iff] at h ⊢
  obtain ⟨hsome, ⟨hcodes, hnodup⟩, hdistinct, hmissing, hunnecessary, hentries, hapart⟩ := h
  refine ⟨?_, ⟨?_, hl.nodup_iff.mpr hnodup⟩, pairwise_of_subperm hkeys hdistinct, ?_, ?_, ?_,
    pairwise_of_subperm hkeys hapart⟩
  · rwa [hl.isEmpty_eq]
  · intro language hmem
    exact hcodes language (hl.subset hmem)
  · intro language hmem entry hentry
    exact hmissing language (hl.subset hmem) entry (he.subset hentry)
  · intro entry hentry language hmem
    have hsame := hunnecessary entry (he.subset hentry) language hmem
    unfold unnecessaryFaults at hsame ⊢
    simpa only [hl.mem_iff] using hsame
  · intro entry hentry
    exact entryFaults_eq_nil_of_subset (hentries entry (he.subset hentry)) hl.subset

theorem resolve_isOk_iff : (∃ r, c.resolve = .ok r) ↔ c.violations = [] := by
  rw [← outcome_eq_ok_iff, outcome_resolve, stopAt_eq_ok_iff]

end Catalog

/-! ## Rows and accessors in the order of the entries -/

namespace ResolvedCatalog

variable {c : Catalog} {r : ResolvedCatalog}

theorem ComesFrom.pairs_in_step (h : r.ComesFrom c) {language : String} {t : StringsTable}
    (ht : r.table? language = some t) :
    List.Forall₂ (fun entry p => ∃ e, ResolvedEntry.ComesFrom c.languages entry e ∧
      e.row? language = some p) c.entries t.pairs := by
  obtain ⟨-, -, hrows⟩ := table?_eq_some_iff.mp ht
  rw [rows?, mapM_eq_some_iff] at hrows
  exact forall₂_trans h.entries hrows

theorem ComesFrom.accessors_in_step (h : r.ComesFrom c) :
    List.Forall₂ (fun entry a => ∃ e, ResolvedEntry.ComesFrom c.languages entry e ∧
      e.accessor = a) c.entries r.accessors := by
  rw [accessors, List.forall₂_map_right_iff]
  exact h.entries.imp fun _ e he => ⟨e, he, rfl⟩

theorem table?_eq_none_of_not_mem {language : String} (hl : language ∉ r.languages) :
    r.table? language = none := by
  rw [Option.eq_none_iff_forall_not_mem]
  intro t ht
  exact hl (table?_eq_some_iff.mp ht).1

end ResolvedCatalog

/-! ## The catalog that is left -/

open ResolvedCatalog

/-- Entries can be taken out of an accepted catalog and the rest put into any order, and
its languages too. It is accepted still, every entry that is left has the pair that it
had in each table, and it has the accessor that it had but for the documentation. -/
theorem Catalog.rearranged_resolves {c : Catalog} {r : ResolvedCatalog} (h : c.resolve = .ok r)
    {languages : List String} (hl : languages.Perm c.languages)
    {entries : List Entry} (he : entries.Subperm c.entries) :
    ∃ r', (mk languages entries).resolve = .ok r' ∧
      (∀ language, language ∉ c.languages →
        r.table? language = none ∧ r'.table? language = none) ∧
      (∀ language, language ∈ c.languages →
        ∃ t t', r.table? language = some t ∧ r'.table? language = some t' ∧
          List.Forall₂ (fun entry p => (entry, p) ∈ c.entries.zip t.pairs) entries t'.pairs) ∧
      List.Forall₂ (fun entry a => ∃ old, (entry, old) ∈ c.entries.zip r.accessors ∧
        a = { old with doc := a.doc }) entries r'.accessors := by
  have hleft := violations_eq_nil_of_subperm (resolve_isOk_iff.mp ⟨r, h⟩) hl he
  obtain ⟨r', h'⟩ := resolve_isOk_iff.mpr hleft
  have hfrom := comesFrom_of_resolve h
  have hfrom' := comesFrom_of_resolve h'
  refine ⟨r', h', ?_, ?_, ?_⟩
  · intro language hmem
    constructor
    · exact table?_eq_none_of_not_mem (hfrom.languages_eq ▸ hmem)
    · exact table?_eq_none_of_not_mem (hfrom'.languages_eq ▸ mt hl.mem_iff.mp hmem)
  · intro language hmem
    have hmem' : language ∈ languages := hl.mem_iff.mpr hmem
    obtain ⟨t, ht⟩ := hfrom.exists_table hmem
    obtain ⟨t', ht'⟩ := hfrom'.exists_table hmem'
    refine ⟨t, t', ht, ht', ?_⟩
    refine (forall₂_of_subset (hfrom.pairs_in_step ht) he.subset
      (hfrom'.pairs_in_step ht')).imp ?_
    rintro entry p ⟨old, hold, ⟨e, hentry, hrow⟩, ⟨e', hentry', hrow'⟩⟩
    -- One entry was resolved twice, so the two rows have the same text to come from.
    have hsame := hentry.row?_eq hentry' rfl hmem hmem' rfl
    obtain rfl : old = p := Option.some.inj (hrow.symm.trans (hsame.trans hrow'))
    exact hold
  · refine (forall₂_of_subset hfrom.accessors_in_step he.subset hfrom'.accessors_in_step).imp ?_
    rintro entry a ⟨old, hold, ⟨e, hentry, rfl⟩, ⟨e', hentry', rfl⟩⟩
    -- Only the documentation tells which language comes first.
    have hsame : e.undocumented = e'.undocumented := hentry.undocumented_eq hentry' rfl
    refine ⟨e.accessor, hold, ?_⟩
    calc
      e'.accessor = { e'.undocumented with doc := e'.accessor.doc } := rfl
      _ = { e.accessor with doc := e'.accessor.doc } := by rw [← hsame]; rfl

/-- The entries of the welcome the other way round, with German first. -/
theorem Catalog.welcome_rearranged_resolves :
    ∃ r r' t t', Catalog.welcome.resolve = .ok r ∧
      (mk ["de", "en"] Catalog.welcome.entries.reverse).resolve = .ok r' ∧
      r.table? "en" = some t ∧ r'.table? "en" = some t' ∧
      List.Forall₂ (fun entry p => (entry, p) ∈ Catalog.welcome.entries.zip t.pairs)
        Catalog.welcome.entries.reverse t'.pairs := by
  have hresolve : outcome Catalog.welcome.resolve = .ok () := by decide +kernel
  obtain ⟨r, hr⟩ := outcome_eq_ok_iff.mp hresolve
  have hlanguages : ["de", "en"].Perm Catalog.welcome.languages := by decide
  obtain ⟨r', hr', -, htables, -⟩ := rearranged_resolves hr hlanguages
    (List.reverse_perm Catalog.welcome.entries).subperm
  obtain ⟨t, t', ht, ht', hpairs⟩ := htables "en" (by decide)
  exact ⟨r, r', t, t', hr, hr', ht, ht', hpairs⟩

end Phrasebook
