-- What checking keeps. A resolved catalog says what its catalog says, and
-- whatever is looked up or cut out of it later on is there.
import Phrasebook.Proofs.Artifacts
import Phrasebook.Proofs.PlaceholderScan

namespace Phrasebook

/-! ## Rewriting by slices -/

/-- The text between two byte offsets, if both are ends of characters of the
text and stand in this order. -/
def slice? (text : String) (start stop : Nat) : Option String :=
  if start ≤ stop ∧ String.Pos.Raw.IsValid text ⟨start⟩ ∧ String.Pos.Raw.IsValid text ⟨stop⟩ then
    some (String.Pos.Raw.extract text ⟨start⟩ ⟨stop⟩)
  else none

namespace ResolvedTemplate

/-- Copies a template from an offset on, with the specifier of its argument in
the place of each placeholder. Every slice and every place has to be there. -/
def rewriteFrom? (arguments : List TypedArgument) (source : String) (offset : Nat) :
    List BoundPlaceholder → Option String
  | [] => slice? source offset source.utf8ByteSize
  | p :: rest => do
    let plain ← slice? source offset p.start
    let declared ← arguments[p.place]?
    let after ← rewriteFrom? arguments source p.stop rest
    return plain ++ declared.type.positionalSpecifier (p.place + 1) ++ after

def rewrite? (arguments : List TypedArgument) (t : ResolvedTemplate) : Option String :=
  rewriteFrom? arguments t.source 0 t.placeholders

end ResolvedTemplate

/-! ## Faithful catalogs -/

/-- A placeholder of a resolved template stands where one of the text stands,
and its place is that of the argument with the same name. -/
structure BoundPlaceholder.Binds (arguments : List TypedArgument) (p : Placeholder)
    (b : BoundPlaceholder) : Prop where
  start_eq : b.start = p.start
  stop_eq : b.stop = p.stop
  place_lt : b.place < arguments.length
  name_eq : arguments[b.place].name = p.name

/-- A template for a language. The slices and places of its placeholders are
all there, and its value is made of them. -/
structure ResolvedTemplate.Faithful (entry : Entry) (arguments : List TypedArgument)
    (language : String) (t : ResolvedTemplate) : Prop where
  language_eq : t.language = language
  source_eq : entry.localization? language = some t.source
  placeholders : List.Forall₂ (BoundPlaceholder.Binds arguments)
    (Template.placeholders t.source) t.placeholders
  value_eq : t.rewrite? arguments = some t.value

/-- An entry with the key and the arguments of the catalog and one template for
each language. Each of the templates is found, and nothing else is. -/
structure ResolvedEntry.Faithful (languages : List String) (entry : Entry) (e : ResolvedEntry) :
    Prop where
  key_eq : e.key = entry.key
  arguments : List.Forall₂ TypedArgument.ComesFrom entry.arguments e.arguments
  templates : List.Forall₂ (ResolvedTemplate.Faithful entry e.arguments) languages e.templates
  first_found : e.templates.head?.isSome
  template_found : ∀ t ∈ e.templates, e.template? t.language = some t
  template_missing : ∀ language, language ∉ languages → e.template? language = none

structure ResolvedCatalog.Faithful (c : Catalog) (r : ResolvedCatalog) : Prop where
  languages_eq : r.languages = c.languages
  entries : List.Forall₂ (ResolvedEntry.Faithful c.languages) c.entries r.entries
  table_found : ∀ language ∈ c.languages, (r.table? language).isSome

/-! ## Slices -/

/-- The end of each part of a text is the end of a character. -/
theorem isValid_utf8Len (before after : List Char) :
    String.Pos.Raw.IsValid (String.ofList (before ++ after)) ⟨String.utf8Len before⟩ := by
  rw [String.Pos.Raw.isValid_iff_exists_append]
  refine ⟨String.ofList before, String.ofList after, String.ofList_append, ?_⟩
  rw [String.rawEndPos, String.utf8ByteSize_ofList]

theorem slice?_append (before plain after : List Char) :
    slice? (String.ofList (before ++ plain ++ after)) (String.utf8Len before)
      (String.utf8Len (before ++ plain)) = some (String.ofList plain) := by
  have hstart := isValid_utf8Len before (plain ++ after)
  have hstop := isValid_utf8Len (before ++ plain) after
  rw [← List.append_assoc] at hstart
  have hle : String.utf8Len before ≤ String.utf8Len (before ++ plain) := by
    rw [String.utf8Len_append]
    exact Nat.le_add_right _ _
  rw [slice?, if_pos ⟨hle, hstart, hstop⟩, String.utf8Len_append, String.extract_of_valid]

/-! ## Bound placeholders -/

variable {arguments : List TypedArgument} {ps : List Piece} {resolved : List ResolvedPiece}

theorem ResolvedPiece.unresolved_argument {name : List Char} {place : Nat}
    {declared : TypedArgument} (h : declared.name = String.ofList name) :
    (argument place declared).unresolved = .reference name := by
  rw [unresolved, h, String.toList_ofList]

theorem binds_locate (h : List.Forall₂ (ResolvedPiece.ComesFrom arguments) ps resolved)
    (offset : Nat) : List.Forall₂ (BoundPlaceholder.Binds arguments)
      (Template.locate offset ps) (ResolvedTemplate.locate offset resolved) := by
  induction h generalizing offset with
  | nil => exact .nil
  | @cons p r ps resolved hp _ ih =>
    cases hp with
    | literal c => exact ih _
    | @argument name place declared hat hname =>
      obtain ⟨hlt, hget⟩ := List.getElem?_eq_some_iff.mp hat
      rw [Template.locate, ResolvedTemplate.locate, ResolvedPiece.unresolved_argument hname]
      exact .cons ⟨rfl, rfl, hlt, hget ▸ hname⟩ (ih _)

/-- The slices that are left to copy are there, and with the specifiers they
make up the output of the pieces. -/
theorem rewriteFrom?_locate (h : List.Forall₂ (ResolvedPiece.ComesFrom arguments) ps resolved)
    (before plain : List Char) :
    ResolvedTemplate.rewriteFrom? arguments
        (String.ofList (before ++ plain ++ ps.flatMap Piece.source)) (String.utf8Len before)
        (ResolvedTemplate.locate (String.utf8Len (before ++ plain)) resolved) =
      some (String.ofList (plain ++ resolved.flatMap ResolvedPiece.output)) := by
  induction h generalizing before plain with
  | nil =>
    have hslice := slice?_append before plain []
    simp only [List.append_nil] at hslice
    simp only [ResolvedTemplate.locate, ResolvedTemplate.rewriteFrom?, List.flatMap_nil,
      List.append_nil, String.utf8ByteSize_ofList, hslice]
  | @cons p r ps resolved hp _ ih =>
    cases hp with
    | literal c =>
      -- a character more of plain text is pending
      have hnext := ih before (plain ++ [c])
      simpa [ResolvedTemplate.locate, Piece.width, Piece.source, ResolvedPiece.output,
        Nat.add_assoc] using hnext
    | @argument name place declared hat hname =>
      -- the pending text is cut out, and none is pending after the placeholder
      have hslice := slice?_append before plain
        ((Piece.reference name).source ++ ps.flatMap Piece.source)
      have hnext := ih (before ++ plain ++ (Piece.reference name).source) []
      simp only [List.append_nil, List.nil_append] at hnext
      rw [List.flatMap_cons, ResolvedTemplate.locate, ResolvedPiece.unresolved_argument hname,
        ResolvedTemplate.rewriteFrom?, hslice, hat]
      simp only [Piece.width, utf8Length_eq, ← String.utf8Len_append, ← List.append_assoc] at hnext ⊢
      rw [hnext]
      simp [ResolvedPiece.output, String.append_assoc]

/-! ## Templates and entries -/

theorem ResolvedTemplate.ComesFrom.faithful {entry : Entry} {language : String}
    {t : ResolvedTemplate} (h : t.ComesFrom entry arguments language) :
    t.Faithful entry arguments language where
  language_eq := h.language_eq
  source_eq := h.source_eq
  placeholders := binds_locate h.pieces 0
  value_eq := by
    have hrewrite := rewriteFrom?_locate h.pieces [] []
    rwa [List.nil_append, List.nil_append, Template.pieces_source, String.ofList_toList] at hrewrite

namespace ResolvedEntry

variable {languages : List String} {entry : Entry} {e : ResolvedEntry}

theorem ComesFrom.languages_eq (h : e.ComesFrom languages entry) :
    e.templates.map (·.language) = languages := by
  have hmap := Validation.map_eq_map_of_forall₂ (f := id) (fun _ _ ht => ht.language_eq) h.templates
  rwa [List.map_id] at hmap

theorem template?_of_mem (hnodup : (e.templates.map (·.language)).Nodup) {t : ResolvedTemplate}
    (ht : t ∈ e.templates) : e.template? t.language = some t :=
  find?_eq_some_of_nodup hnodup ht

theorem template?_eq_none (h : e.ComesFrom languages entry) {language : String}
    (hl : language ∉ languages) : e.template? language = none := by
  rw [template?, List.find?_eq_none]
  intro t ht heq
  apply hl
  rw [← h.languages_eq, ← eq_of_beq heq]
  exact List.mem_map_of_mem ht

theorem ComesFrom.faithful (h : e.ComesFrom languages entry) (hsome : languages ≠ [])
    (hnodup : languages.Nodup) : e.Faithful languages entry where
  key_eq := h.key_eq
  arguments := h.arguments
  templates := h.templates.imp fun _ _ ht => ht.faithful
  first_found := by
    rw [← h.languages_eq, ne_eq, List.map_eq_nil_iff] at hsome
    simpa using hsome
  template_found := fun t ht => template?_of_mem (h.languages_eq ▸ hnodup) ht
  template_missing := fun language hl => template?_eq_none h hl

end ResolvedEntry

/-! ## The whole catalog -/

/-- An accepted catalog is kept as it is. Every entry, argument, template and
placeholder of it is there in its order, and no slice and no lookup can fail. -/
theorem Catalog.resolve_faithful {c : Catalog} {r : ResolvedCatalog} (h : c.resolve = .ok r) :
    r.Faithful c := by
  have hfrom := comesFrom_of_resolve h
  obtain ⟨hsome, hnodup⟩ := languages_of_resolve h
  exact {
    languages_eq := hfrom.languages_eq
    entries := hfrom.entries.imp fun _ _ he => he.faithful hsome hnodup
    table_found := fun language hl => hfrom.table?_isSome hl }

/-- Both texts of the greeting keep their placeholders, one of them twice. -/
theorem Catalog.welcome_resolve_faithful :
    ∃ r, Catalog.welcome.resolve = .ok r ∧ r.Faithful Catalog.welcome := by
  have hresolve : Validation.outcome Catalog.welcome.resolve = .ok () := by decide +kernel
  obtain ⟨r, hr⟩ := Validation.outcome_eq_ok_iff.mp hresolve
  exact ⟨r, hr, resolve_faithful hr⟩

end Phrasebook
