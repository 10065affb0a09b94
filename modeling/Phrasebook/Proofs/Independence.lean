-- What a table depends on. The row of an entry is told by its key, its arguments
-- and its own text in the language, so other languages and their texts never show
-- in a table, and only the texts of the first language show in the Swift file.
import Phrasebook.Proofs.Artifacts

namespace Phrasebook

/-! ## Lists in step -/

section

variable {α β γ : Type}

theorem forall₂_trans {R : α → β → Prop} {S : β → γ → Prop} {l : List α} {m : List β} {n : List γ}
    (h : List.Forall₂ R l m) (h' : List.Forall₂ S m n) :
    List.Forall₂ (fun a c => ∃ b, R a b ∧ S b c) l n := by
  induction h generalizing n with
  | nil =>
    cases h'
    exact .nil
  | @cons a b l m hab _ ih =>
    cases h' with
    | cons hbc hrest => exact .cons ⟨b, hab, hbc⟩ (ih hrest)

theorem forall₂_and {R S : α → β → Prop} {l : List α} {m : List β}
    (h : List.Forall₂ R l m) (h' : List.Forall₂ S l m) :
    List.Forall₂ (fun a b => R a b ∧ S a b) l m := by
  induction h with
  | nil => exact .nil
  | cons hab _ ih =>
    cases h' with
    | cons hab' hrest => exact .cons ⟨hab, hab'⟩ (ih hrest)

theorem map_eq_map_iff_forall₂ {f : α → γ} {g : β → γ} {l : List α} {m : List β} :
    l.map f = m.map g ↔ List.Forall₂ (fun a b => f a = g b) l m := by
  rw [← List.forall₂_eq_eq_eq, List.forall₂_map_left_iff, List.forall₂_map_right_iff]

end

/-! ## Parts that come from the same -/

theorem TypedArgument.ComesFrom.unique {a : Argument} {typed typed' : TypedArgument}
    (h : typed.ComesFrom a) (h' : typed'.ComesFrom a) : typed = typed' := by
  obtain ⟨name, type⟩ := typed
  obtain ⟨name', type'⟩ := typed'
  obtain rfl : name = name' := h.name_eq.trans h'.name_eq.symm
  obtain rfl : type = type' := Option.some.inj (h.type_eq.symm.trans h'.type_eq)
  rfl

section

variable {arguments : List TypedArgument}

/-- Among arguments with names of their own, a placeholder has one place. -/
theorem ResolvedPiece.ComesFrom.unique {p : Piece} {r r' : ResolvedPiece}
    (hnodup : (arguments.map (·.name)).Nodup) (h : r.ComesFrom arguments p)
    (h' : r'.ComesFrom arguments p) : r = r' := by
  cases h with
  | literal c =>
    cases h'
    rfl
  | @argument name place declared hat hname =>
    cases h' with
    | @argument _ place' declared' hat' hname' =>
      have hplace : place < (arguments.map (·.name)).length := by
        rw [List.length_map]
        exact (List.getElem?_eq_some_iff.mp hat).1
      -- Both places have an argument of that name, and the names are distinct.
      have hsame : place = place' := by
        apply (List.getElem?_inj hplace hnodup).mp
        simp [hat, hat', hname, hname']
      subst hsame
      obtain rfl : declared = declared' := Option.some.inj (hat.symm.trans hat')
      rfl

/-- Entries with the same arguments and the same text have the same template. -/
theorem ResolvedTemplate.ComesFrom.unique {entry entry' : Entry} {language : String}
    {t t' : ResolvedTemplate} (hnodup : (arguments.map (·.name)).Nodup)
    (h : t.ComesFrom entry arguments language) (h' : t'.ComesFrom entry' arguments language)
    (htext : entry.localization? language = entry'.localization? language) : t = t' := by
  obtain ⟨found, source, pieces⟩ := t
  obtain ⟨found', source', pieces'⟩ := t'
  obtain rfl : found = found' := h.language_eq.trans h'.language_eq.symm
  obtain rfl : source = source' :=
    Option.some.inj (h.source_eq.symm.trans (htext.trans h'.source_eq))
  have hunique : Relator.RightUnique (ResolvedPiece.ComesFrom arguments) :=
    fun _ _ _ => ResolvedPiece.ComesFrom.unique hnodup
  obtain rfl : pieces = pieces' := hunique.forall₂ h.pieces h'.pieces
  rfl

end

/-! ## Entries with the same key and arguments -/

/-- What an entry is but for its texts. -/
def Entry.signature (e : Entry) : String × List Argument := (e.key, e.arguments)

namespace ResolvedEntry

/-- The accessor without its documentation. -/
def undocumented (e : ResolvedEntry) : Accessor := { e.accessor with doc := "" }

variable {languages languages' : List String} {entry entry' : Entry} {e e' : ResolvedEntry}
  {language : String}

namespace ComesFrom

theorem resolved_names_nodup (h : e.ComesFrom languages entry) :
    (e.arguments.map (·.name)).Nodup := by
  rw [TypedArgument.names_eq h.arguments]
  exact h.names_nodup

theorem key_eq_of_signature (h : e.ComesFrom languages entry) (h' : e'.ComesFrom languages' entry')
    (hsame : entry.signature = entry'.signature) : e.key = e'.key := by
  rw [h.key_eq, h'.key_eq]
  exact congrArg Prod.fst hsame

theorem arguments_eq_of_signature (h : e.ComesFrom languages entry)
    (h' : e'.ComesFrom languages' entry') (hsame : entry.signature = entry'.signature) :
    e.arguments = e'.arguments := by
  have harguments : entry.arguments = entry'.arguments := congrArg Prod.snd hsame
  have hunique : Relator.RightUnique TypedArgument.ComesFrom :=
    fun _ _ _ => TypedArgument.ComesFrom.unique
  exact hunique.forall₂ h.arguments (harguments ▸ h'.arguments)

/-- The row of an entry depends on its signature and its text in the language. -/
theorem row?_eq (h : e.ComesFrom languages entry) (h' : e'.ComesFrom languages' entry')
    (hsame : entry.signature = entry'.signature) (hl : language ∈ languages)
    (hl' : language ∈ languages')
    (htext : entry.localization? language = entry'.localization? language) :
    e.row? language = e'.row? language := by
  have harguments := h.arguments_eq_of_signature h' hsame
  obtain ⟨t, ht, hfrom⟩ := h.template?_eq hl
  obtain ⟨t', ht', hfrom'⟩ := h'.template?_eq hl'
  rw [← harguments] at hfrom'
  obtain rfl := hfrom.unique h.resolved_names_nodup hfrom' htext
  simp only [row?, value?, resourceKey, ht, ht', h.key_eq_of_signature h' hsame, harguments]

/-- Its accessor depends on the signature alone, but for the documentation. -/
theorem undocumented_eq (h : e.ComesFrom languages entry) (h' : e'.ComesFrom languages' entry')
    (hsame : entry.signature = entry'.signature) : e.undocumented = e'.undocumented := by
  simp only [undocumented, accessor, resourceKey, argumentListWith,
    h.key_eq_of_signature h' hsame, h.arguments_eq_of_signature h' hsame]

end ComesFrom

theorem accessor_eq (hsame : e.undocumented = e'.undocumented)
    (hdoc : e.accessor.doc = e'.accessor.doc) : e.accessor = e'.accessor := by
  have haccessor (e : ResolvedEntry) :
      e.accessor = { e.undocumented with doc := e.accessor.doc } := rfl
  rw [haccessor e, haccessor e', hsame, hdoc]

/-- The documentation is the text of the first language. -/
theorem ComesFrom.doc_eq (h : e.ComesFrom languages entry) {first : String}
    (hfirst : languages.head? = some first) :
    entry.localization? first = some e.accessor.doc := by
  have hsome : languages ≠ [] := by
    rintro rfl
    cases hfirst
  obtain ⟨found, hfound, hdoc⟩ := (h.accessor_describes hsome).doc_eq
  obtain rfl : first = found := Option.some.inj (hfirst.symm.trans hfound)
  exact hdoc

end ResolvedEntry

/-! ## Catalogs with the same keys and arguments -/

namespace ResolvedCatalog

variable {c c' : Catalog} {r r' : ResolvedCatalog} {language : String}

/-- The entries of two catalogs in step, where the catalogs are alike in some way. -/
theorem ComesFrom.entries_in_step {R : Entry → Entry → Prop} (h : r.ComesFrom c)
    (h' : r'.ComesFrom c') (hentries : List.Forall₂ R c.entries c'.entries) :
    List.Forall₂ (fun e e' => ∃ entry entry', e.ComesFrom c.languages entry ∧
      e'.ComesFrom c'.languages entry' ∧ R entry entry') r.entries r'.entries := by
  refine (forall₂_trans (forall₂_trans h.entries.flip hentries) h'.entries).imp ?_
  rintro e e' ⟨entry', ⟨entry, he, hR⟩, he'⟩
  exact ⟨entry, entry', he, he', hR⟩

theorem ComesFrom.exists_table (h : r.ComesFrom c) (hl : language ∈ c.languages) :
    ∃ t, r.table? language = some t := Option.isSome_iff_exists.mp (h.table?_isSome hl)

end ResolvedCatalog

open ResolvedCatalog

/-- Two accepted catalogs with the same keys and arguments have one table in a
language in which their texts are the same, whatever they say in other languages.
They have one Swift file if the texts of their first languages are the same. -/
theorem Catalog.artifacts_depend_on_own_texts {c c' : Catalog} {r r' : ResolvedCatalog}
    (h : c.resolve = .ok r) (h' : c'.resolve = .ok r')
    (hsame : c.entries.map (·.signature) = c'.entries.map (·.signature)) :
    (∀ language, language ∈ c.languages → language ∈ c'.languages →
      c.entries.map (·.localization? language) = c'.entries.map (·.localization? language) →
      ∃ t, r.table? language = some t ∧ r'.table? language = some t) ∧
    (∀ first first', c.languages.head? = some first → c'.languages.head? = some first' →
      c.entries.map (·.localization? first) = c'.entries.map (·.localization? first') →
      r.accessors = r'.accessors ∧
        ∀ n : Naming, (r.accessorModule n).render = (r'.accessorModule n).render) := by
  have hfrom := comesFrom_of_resolve h
  have hfrom' := comesFrom_of_resolve h'
  rw [map_eq_map_iff_forall₂] at hsame
  constructor
  · intro language hl hl' htexts
    rw [map_eq_map_iff_forall₂] at htexts
    obtain ⟨t, ht⟩ := hfrom.exists_table hl
    obtain ⟨hlanguage, rfl, hrows⟩ := table?_eq_some_iff.mp ht
    refine ⟨t, ht, table?_eq_some_iff.mpr ⟨hfrom'.languages_eq ▸ hl', rfl, ?_⟩⟩
    have hstep := hfrom.entries_in_step hfrom' (forall₂_and hsame htexts)
    rw [rows?, mapM_eq_some_iff] at hrows ⊢
    refine (forall₂_trans hstep.flip hrows).imp ?_
    rintro e' p ⟨e, ⟨entry, entry', he, he', hentry, htext⟩, hrow⟩
    rw [← hrow]
    exact (he.row?_eq he' hentry hl hl' htext).symm
  · intro first first' hfirst hfirst' htexts
    rw [map_eq_map_iff_forall₂] at htexts
    have hstep := hfrom.entries_in_step hfrom' (forall₂_and hsame htexts)
    have haccessors : r.accessors = r'.accessors := by
      refine map_eq_map_iff_forall₂.mpr (hstep.imp ?_)
      rintro e e' ⟨entry, entry', he, he', hentry, htext⟩
      apply ResolvedEntry.accessor_eq (he.undocumented_eq he' hentry)
      rw [he.doc_eq hfirst, he'.doc_eq hfirst'] at htext
      exact Option.some.inj htext
    refine ⟨haccessors, fun n => ?_⟩
    rw [accessorModule, accessorModule, haccessors]

/-- The entries of the welcome, not yet translated into French. -/
def Catalog.untranslated : Catalog where
  languages := ["fr", "de"]
  entries := [⟨"greeting", .ofList [("de", "\\(name), \\(name), ein \\(count)!"),
      ("fr", "Hello \\(name)!")], Entry.greeting.arguments⟩,
    ⟨"home.title", .ofList [("de", "Start"), ("fr", "Home")], []⟩]

/-- The German table does not show that English is gone, and the Swift file does not
show that French stands in its place. -/
theorem Catalog.untranslated_depends_on_own_texts :
    ∃ r r' t, Catalog.welcome.resolve = .ok r ∧ Catalog.untranslated.resolve = .ok r' ∧
      r.table? "de" = some t ∧ r'.table? "de" = some t ∧
      (r.accessorModule {}).render = (r'.accessorModule {}).render := by
  have hresolve : Validation.outcome Catalog.welcome.resolve = .ok () := by decide +kernel
  have hresolve' : Validation.outcome Catalog.untranslated.resolve = .ok () := by decide +kernel
  obtain ⟨r, hr⟩ := Validation.outcome_eq_ok_iff.mp hresolve
  obtain ⟨r', hr'⟩ := Validation.outcome_eq_ok_iff.mp hresolve'
  obtain ⟨htables, hmodules⟩ := artifacts_depend_on_own_texts hr hr' (by decide)
  obtain ⟨t, ht, ht'⟩ := htables "de" (by decide) (by decide) (by decide)
  obtain ⟨-, hmodule⟩ := hmodules "en" "fr" rfl rfl (by decide)
  exact ⟨r, r', t, hr, hr', ht, ht', hmodule {}⟩

end Phrasebook
