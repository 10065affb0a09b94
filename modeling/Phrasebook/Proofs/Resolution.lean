-- What a resolved catalog is made of, told from the catalog that it comes
-- from. Nothing is lost or moved, and each placeholder got its argument.
import Phrasebook.Proofs.Checks
import Phrasebook.Validation

namespace Phrasebook

/-! ## Where the parts come from -/

/-- Plain text stays, and a placeholder knows the argument of its name. -/
inductive ResolvedPiece.ComesFrom (arguments : List TypedArgument) : Piece → ResolvedPiece → Prop
  | literal (c : Char) : ComesFrom arguments (.literal c) (.literal c)
  | argument {name : List Char} {place : Nat} {declared : TypedArgument} :
      arguments[place]? = some declared → declared.name = String.ofList name →
      ComesFrom arguments (.reference name) (.argument place declared)

structure TypedArgument.ComesFrom (a : Argument) (t : TypedArgument) : Prop where
  name_eq : t.name = a.name
  type_eq : a.argumentType? = some t.type

structure ResolvedTemplate.ComesFrom (entry : Entry) (arguments : List TypedArgument)
    (language : String) (t : ResolvedTemplate) : Prop where
  language_eq : t.language = language
  source_eq : entry.localization? language = some t.source
  pieces : List.Forall₂ (ResolvedPiece.ComesFrom arguments)
    (Template.pieces t.source.toList) t.pieces

structure ResolvedEntry.ComesFrom (languages : List String) (entry : Entry) (e : ResolvedEntry) :
    Prop where
  key_eq : e.key = entry.key
  key_isPath : isIdentifierPath entry.key
  arguments : List.Forall₂ TypedArgument.ComesFrom entry.arguments e.arguments
  names_areIdentifiers : ∀ a ∈ entry.arguments, isIdentifier a.name
  names_nodup : (entry.arguments.map (·.name)).Nodup
  templates : List.Forall₂ (ResolvedTemplate.ComesFrom entry e.arguments) languages e.templates

structure ResolvedCatalog.ComesFrom (c : Catalog) (r : ResolvedCatalog) : Prop where
  languages_eq : r.languages = c.languages
  entries : List.Forall₂ (ResolvedEntry.ComesFrom c.languages) c.entries r.entries

theorem TypedArgument.names_eq {arguments : List Argument} {typed : List TypedArgument}
    (h : List.Forall₂ ComesFrom arguments typed) : typed.map (·.name) = arguments.map (·.name) :=
  Validation.map_eq_map_of_forall₂ (fun _ _ ht => ht.name_eq) h

theorem ResolvedCatalog.ComesFrom.keys_eq {c : Catalog} {r : ResolvedCatalog} (h : r.ComesFrom c) :
    r.entries.map (·.key) = c.entries.map (·.key) :=
  Validation.map_eq_map_of_forall₂ (fun _ _ he => he.key_eq) h.entries

/-- The template of a declared language is found, and it is the one that comes
from the text in that language. -/
theorem ResolvedEntry.ComesFrom.template?_eq {languages : List String} {entry : Entry}
    {e : ResolvedEntry} (h : e.ComesFrom languages entry) {language : String}
    (hl : language ∈ languages) :
    ∃ t, e.template? language = some t ∧ t.ComesFrom entry e.arguments language := by
  have htemplates := h.templates
  unfold template?
  generalize e.templates = templates at htemplates
  clear h
  induction htemplates with
  | nil => simp at hl
  | @cons first t languages templates ht _ ih =>
    by_cases hfirst : t.language = language
    · have he : first = language := ht.language_eq.symm.trans hfirst
      exact ⟨t, by simp [hfirst], he ▸ ht⟩
    · have hrest : language ∈ languages :=
        (List.mem_cons.mp hl).resolve_left fun he => hfirst (ht.language_eq.trans he.symm)
      obtain ⟨t', ht', hfrom⟩ := ih hrest
      exact ⟨t', by simp [hfirst, ht'], hfrom⟩

namespace Validation

/-! ## What each step gives -/

theorem bind?_eq_some {name : String} {start place : Nat} {arguments : List TypedArgument}
    {declared : TypedArgument} (h : bind? name start arguments = some (place, declared)) :
    ∃ i, place = start + i ∧ arguments[i]? = some declared ∧ declared.name = name := by
  induction arguments generalizing start with
  | nil => simp [bind?] at h
  | cons a rest ih =>
    unfold bind? at h
    split at h
    · rename_i hname
      cases h
      exact ⟨0, rfl, rfl, hname⟩
    · obtain ⟨i, hplace, hat, hname⟩ := ih h
      exact ⟨i + 1, by omega, hat, hname⟩

theorem comesFrom_of_resolvePieces {arguments : List TypedArgument} {ps : List Piece}
    {resolved : List ResolvedPiece} (h : resolvePieces arguments ps = .ok resolved) :
    List.Forall₂ (ResolvedPiece.ComesFrom arguments) ps resolved := by
  induction ps generalizing resolved with
  | nil =>
    cases h
    exact .nil
  | cons p ps ih =>
    cases p with
    | literal c =>
      obtain ⟨rest, hrest, hpure⟩ := bind_eq_ok_iff.mp h
      cases hpure
      exact .cons (.literal c) (ih hrest)
    | reference name =>
      unfold resolvePieces at h
      split at h
      · cases h
      · rename_i place declared hbound
        obtain ⟨rest, hrest, hpure⟩ := bind_eq_ok_iff.mp h
        obtain ⟨i, hplace, hat, hname⟩ := bind?_eq_some hbound
        rw [Nat.zero_add] at hplace
        subst hplace
        cases hpure
        exact .cons (.argument hat hname) (ih hrest)

theorem comesFrom_of_typeArguments {key : String} {seen : List String}
    {arguments : List Argument} {typed : List TypedArgument}
    (h : typeArguments key seen arguments = .ok typed) :
    List.Forall₂ TypedArgument.ComesFrom arguments typed := by
  induction arguments generalizing seen typed with
  | nil =>
    cases h
    exact .nil
  | cons a rest ih =>
    unfold typeArguments at h
    split at h
    · cases h
    · split at h
      · cases h
      · split at h
        · cases h
        · rename_i type htype
          obtain ⟨typed', hrest, hpure⟩ := bind_eq_ok_iff.mp h
          cases hpure
          exact .cons ⟨rfl, htype⟩ (ih hrest)

theorem isIdentifier_of_typeArguments {key : String} {seen : List String}
    {arguments : List Argument} {typed : List TypedArgument}
    (h : typeArguments key seen arguments = .ok typed) :
    ∀ a ∈ arguments, isIdentifier a.name := by
  induction arguments generalizing seen typed with
  | nil => simp
  | cons a rest ih =>
    unfold typeArguments at h
    split at h
    · cases h
    · rename_i hname
      split at h
      · cases h
      · split at h
        · cases h
        · obtain ⟨typed', hrest, -⟩ := bind_eq_ok_iff.mp h
          exact List.forall_mem_cons.mpr ⟨by simpa using hname, ih hrest⟩

theorem names_nodup_of_typeArguments {key : String} {seen : List String}
    {arguments : List Argument} {typed : List TypedArgument}
    (h : typeArguments key seen arguments = .ok typed) :
    (∀ a ∈ arguments, a.name ∉ seen) ∧ (arguments.map (·.name)).Nodup := by
  induction arguments generalizing seen typed with
  | nil => simp
  | cons a rest ih =>
    unfold typeArguments at h
    split at h
    · cases h
    · split at h
      · cases h
      · rename_i hnew
        split at h
        · cases h
        · obtain ⟨typed', hrest, -⟩ := bind_eq_ok_iff.mp h
          obtain ⟨hseen, hnodup⟩ := ih hrest
          simp only [List.mem_cons, not_or] at hseen
          constructor
          · exact List.forall_mem_cons.mpr ⟨by simpa using hnew, fun b hb => (hseen b hb).2⟩
          · refine List.nodup_cons.mpr ⟨fun hmem => ?_, hnodup⟩
            obtain ⟨b, hb, hname⟩ := List.mem_map.mp hmem
            exact (hseen b hb).1 hname

theorem comesFrom_of_resolveTemplate {entry : Entry} {arguments : List TypedArgument}
    {language : String} {t : ResolvedTemplate}
    (h : resolveTemplate entry arguments language = .ok t) :
    ResolvedTemplate.ComesFrom entry arguments language t := by
  unfold resolveTemplate at h
  split at h
  · cases h
  · rename_i source hsource
    split at h
    · cases h
    · rename_i pieces hpieces
      cases h
      exact ⟨rfl, hsource, comesFrom_of_resolvePieces hpieces⟩

theorem comesFrom_of_resolveEntry {languages : List String} {entry : Entry} {e : ResolvedEntry}
    (h : resolveEntry languages entry = .ok e) : e.ComesFrom languages entry := by
  unfold resolveEntry at h
  split at h
  · cases h
  · rename_i hkey
    obtain ⟨arguments, harguments, h⟩ := bind_eq_ok_iff.mp h
    obtain ⟨templates, htemplates, hpure⟩ := bind_eq_ok_iff.mp h
    cases hpure
    exact {
      key_eq := rfl
      key_isPath := by simpa using hkey
      arguments := comesFrom_of_typeArguments harguments
      names_areIdentifiers := isIdentifier_of_typeArguments harguments
      names_nodup := (names_nodup_of_typeArguments harguments).2
      templates := (mapM_eq_ok_iff.mp htemplates).imp fun _ _ => comesFrom_of_resolveTemplate }

end Validation

open Validation

/-! ## The whole catalog -/

theorem Catalog.resolve_eq_ok_iff {c : Catalog} {r : ResolvedCatalog} :
    c.resolve = .ok r ↔ checkLanguages c.languages = .ok () ∧ checkKeys c.entries = .ok () ∧
      checkMissing c = .ok () ∧ checkUnnecessary c = .ok () ∧
      c.entries.mapM (resolveEntry c.languages) = .ok r.entries ∧
      checkAccessors c.entries = .ok () ∧ r.languages = c.languages := by
  unfold resolve
  simp only [bind_eq_ok_iff, Unique.exists_iff, PUnit.default_eq_unit]
  constructor
  · rintro ⟨hlanguages, hkeys, hmissing, hunnecessary, entries, hentries, haccessors, hpure⟩
    cases hpure
    exact ⟨hlanguages, hkeys, hmissing, hunnecessary, hentries, haccessors, rfl⟩
  · rintro ⟨hlanguages, hkeys, hmissing, hunnecessary, hentries, haccessors, hr⟩
    exact ⟨hlanguages, hkeys, hmissing, hunnecessary, r.entries, hentries, haccessors, hr ▸ rfl⟩

theorem Catalog.comesFrom_of_resolve {c : Catalog} {r : ResolvedCatalog} (h : c.resolve = .ok r) :
    r.ComesFrom c := by
  obtain ⟨-, -, -, -, hentries, -, hlanguages⟩ := resolve_eq_ok_iff.mp h
  exact ⟨hlanguages, (mapM_eq_ok_iff.mp hentries).imp fun _ _ => comesFrom_of_resolveEntry⟩

end Phrasebook
