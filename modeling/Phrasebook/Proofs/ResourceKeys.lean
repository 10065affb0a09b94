-- Resource keys. The key of a row tells which entry the row belongs to and
-- which types the arguments have, so a lookup in a table finds its own row.
import Phrasebook.Proofs.Artifacts

namespace Phrasebook

/-! ## Reading a resource key -/

/-- The words of a text, with single blanks between them. -/
def words (s : String) : List String := (s.toList.splitOn ' ').map String.ofList

/-- The type that a bare specifier stands for. -/
def ArgumentType.ofBareSpecifier? (s : String) : Option ArgumentType :=
  if s = "%@" then some string
  else if s = "%lld" then some int
  else if s = "%lf" then some double
  else none

/-- The entry key and the types of the arguments, from the resource key alone. -/
def readResourceKey? (s : String) : Option (String × List ArgumentType) :=
  match words s with
  | [] => none
  | key :: specifiers => (specifiers.mapM ArgumentType.ofBareSpecifier?).map (key, ·)

theorem ArgumentType.ofBareSpecifier?_bareSpecifier (t : ArgumentType) :
    ofBareSpecifier? t.bareSpecifier = some t := by
  cases t <;> decide

theorem ArgumentType.no_blank_bareSpecifier (t : ArgumentType) :
    ' ' ∉ t.bareSpecifier.toList := by
  cases t <;> decide

namespace ResolvedEntry

variable {e : ResolvedEntry}

theorem words_resourceKey (h : IsIdentifierPath e.key) :
    words e.resourceKey = e.key :: e.arguments.map (·.type.bareSpecifier) := by
  unfold words resourceKey
  apply splitOn_intercalate rfl (List.cons_ne_nil _ _)
  intro word hword
  rcases List.mem_cons.mp hword with rfl | hspecifier
  · exact h.not_mem (by decide) (by decide)
  · obtain ⟨a, -, rfl⟩ := List.mem_map.mp hspecifier
    exact a.type.no_blank_bareSpecifier

/-- A resource key is read back as the key and the types that it is made of. -/
theorem readResourceKey?_resourceKey (h : IsIdentifierPath e.key) :
    readResourceKey? e.resourceKey = some (e.key, e.arguments.map (·.type)) := by
  have htypes : (e.arguments.map (·.type.bareSpecifier)).mapM ArgumentType.ofBareSpecifier? =
      some (e.arguments.map (·.type)) := by
    rw [mapM_eq_some_iff, List.forall₂_map_left_iff, List.forall₂_map_right_iff, List.forall₂_same]
    intro a _
    exact a.type.ofBareSpecifier?_bareSpecifier
  unfold readResourceKey?
  rw [words_resourceKey h]
  dsimp only
  rw [htypes, Option.map_some]

end ResolvedEntry

/-! ## Resource keys of a catalog -/

theorem TypedArgument.types_eq {arguments : List Argument} {typed : List TypedArgument}
    (h : List.Forall₂ ComesFrom arguments typed) :
    arguments.map (·.argumentType?) = (typed.map (·.type)).map some := by
  rw [List.map_map]
  exact (Validation.map_eq_map_of_forall₂ (fun _ _ ht => ht.type_eq.symm) h).symm

theorem ResolvedEntry.ComesFrom.isIdentifierPath {languages : List String} {entry : Entry}
    {e : ResolvedEntry} (h : e.ComesFrom languages entry) : IsIdentifierPath e.key := by
  rw [h.key_eq, ← isIdentifierPath_iff]
  exact h.key_isPath

theorem ResolvedEntry.ComesFrom.isIdentifier_of_mem {languages : List String} {entry : Entry}
    {e : ResolvedEntry} (h : e.ComesFrom languages entry) {a : TypedArgument}
    (ha : a ∈ e.arguments) : IsIdentifier a.name := by
  obtain ⟨declared, hdeclared, hfrom⟩ := Validation.exists_of_mem_forall₂ h.arguments ha
  rw [hfrom.name_eq]
  exact isIdentifier_iff.mp (h.names_areIdentifiers declared hdeclared)

/-! ## Control characters -/

theorem ResolvedEntry.ComesFrom.not_mem_resourceKey {languages : List String} {entry : Entry}
    {e : ResolvedEntry} (h : e.ComesFrom languages entry) {c : Char} (hc : IsControl c) :
    c ∉ e.resourceKey.toList := by
  intro hmem
  rcases mem_intercalate hmem with hglue | ⟨word, hword, hin⟩
  · exact absurd hglue (hc.not_mem (by decide))
  · rcases List.mem_cons.mp hword with rfl | hspecifier
    · exact h.isIdentifierPath.not_mem hc.not_isNamePart (hc.ne (by decide)) hin
    · obtain ⟨a, -, rfl⟩ := List.mem_map.mp hspecifier
      exact absurd hin (hc.not_mem (by cases a.type <;> decide))

theorem ResolvedEntry.not_mem_argumentListWith {e : ResolvedEntry} {render : String → String}
    {c : Char} (hc : IsControl c) (h : ∀ a ∈ e.arguments, c ∉ (render a.name).toList) :
    c ∉ (e.argumentListWith render).toList := by
  have hjoined : c ∉ (", ".intercalate (e.arguments.map (render ·.name))).toList := by
    intro hmem
    rcases mem_intercalate hmem with hglue | ⟨word, hword, hin⟩
    · exact absurd hglue (hc.not_mem (by decide))
    · obtain ⟨a, ha, rfl⟩ := List.mem_map.mp hword
      exact h a ha hin
  have hopening : c ≠ '[' := hc.ne (by decide)
  have hclosing : c ≠ ']' := hc.ne (by decide)
  unfold argumentListWith
  generalize ", ".intercalate _ = joined at hjoined ⊢
  simp [hjoined, hopening, hclosing]

/-! ## Keys that are told apart -/

/-- Two entries with one resource key would have one key. -/
theorem ResolvedCatalog.resourceKeys_nodup {r : ResolvedCatalog}
    (hkeys : (r.entries.map (·.key)).Nodup) (hpaths : ∀ e ∈ r.entries, IsIdentifierPath e.key) :
    (r.entries.map (·.resourceKey)).Nodup := by
  have hinjective : ∀ e ∈ r.entries, ∀ e' ∈ r.entries, e.resourceKey = e'.resourceKey → e = e' := by
    intro e he e' he' hsame
    have hread := ResolvedEntry.readResourceKey?_resourceKey (hpaths e he)
    rw [hsame, ResolvedEntry.readResourceKey?_resourceKey (hpaths e' he')] at hread
    have hkey : e.key = e'.key := (Prod.mk.inj (Option.some.inj hread)).1.symm
    exact List.inj_on_of_nodup_map hkeys he he' hkey
  exact (List.Nodup.of_map _ hkeys).map_on hinjective

/-- The row of a key is found where it stands, and no other row has the key. -/
theorem StringsTable.findPair?_of_getElem? {t : StringsTable} (h : (t.pairs.map (·.key)).Nodup)
    {place : Nat} {p : StringsPair} (hp : t.pairs[place]? = some p) :
    t.findPair? p.key = some p ∧
      ∀ (other : Nat) (q : StringsPair), t.pairs[other]? = some q → q.key = p.key →
        other = place := by
  constructor
  · exact find?_eq_some_of_nodup h (List.mem_of_getElem? hp)
  · intro other q hq hkey
    obtain ⟨hother, -⟩ := List.getElem?_eq_some_iff.mp hq
    have hother' : other < (t.pairs.map (·.key)).length := by rwa [List.length_map]
    apply (List.getElem?_inj hother' h).mp
    rw [List.getElem?_map, List.getElem?_map, hq, hp, Option.map_some, Option.map_some, hkey]

/-- Each resource key tells the key and the types of its entry, no two are equal,
and in every table the row of an entry is found by it. -/
theorem Catalog.resourceKeys_tell_entries {c : Catalog} {r : ResolvedCatalog}
    (h : c.resolve = .ok r) :
    (r.entries.map (·.resourceKey)).Nodup ∧
    ∀ (place : Nat) (entry : Entry), c.entries[place]? = some entry →
      ∃ (e : ResolvedEntry) (types : List ArgumentType), r.entries[place]? = some e ∧
        entry.arguments.map (·.argumentType?) = types.map some ∧
        readResourceKey? e.resourceKey = some (entry.key, types) ∧
        ∀ language ∈ c.languages, ∃ (t : StringsTable) (p : StringsPair),
          r.table? language = some t ∧ t.pairs[place]? = some p ∧
          e.value? language = some p.value ∧ t.findPair? e.resourceKey = some p ∧
          ∀ (other : Nat) (q : StringsPair), t.pairs[other]? = some q → q.key = e.resourceKey →
            other = place := by
  have hfrom := comesFrom_of_resolve h
  have hpaths : ∀ e ∈ r.entries, IsIdentifierPath e.key := by
    intro e he
    obtain ⟨entry, -, hentry⟩ := Validation.exists_of_mem_forall₂ hfrom.entries he
    exact hentry.isIdentifierPath
  have hnodup : (r.entries.map (·.resourceKey)).Nodup := by
    apply ResolvedCatalog.resourceKeys_nodup _ hpaths
    rw [hfrom.keys_eq]
    exact keys_nodup_of_resolve h
  refine ⟨hnodup, fun place entry hentry => ?_⟩
  obtain ⟨e, he, hcomes⟩ := Validation.getElem?_of_forall₂ hfrom.entries hentry
  refine ⟨e, e.arguments.map (·.type), he, TypedArgument.types_eq hcomes.arguments, ?_, ?_⟩
  · rw [ResolvedEntry.readResourceKey?_resourceKey hcomes.isIdentifierPath, hcomes.key_eq]
  · intro language hl
    obtain ⟨t, ht⟩ := Option.isSome_iff_exists.mp (hfrom.table?_isSome hl)
    obtain ⟨-, rfl, hrows⟩ := ResolvedCatalog.table?_eq_some_iff.mp ht
    have hpairs := (mapM_eq_some_iff.mp hrows).imp fun _ _ => ResolvedEntry.row?_eq_some_iff.mp
    have hkeys : t.pairs.map (·.key) = r.entries.map (·.resourceKey) :=
      Validation.map_eq_map_of_forall₂ (fun _ _ hrow => hrow.1) hpairs
    obtain ⟨p, hp, hkey, hvalue⟩ := Validation.getElem?_of_forall₂ hpairs he
    obtain ⟨hfind, hother⟩ := StringsTable.findPair?_of_getElem? (hkeys ▸ hnodup) hp
    rw [hkey] at hfind hother
    exact ⟨t, p, ht, hp, hvalue, hfind, hother⟩

/-- The greeting is read back with its two types, and its German row is found. -/
theorem Catalog.welcome_resourceKeys_tell_entries :
    ∃ r e t p, Catalog.welcome.resolve = .ok r ∧ r.entries[0]? = some e ∧
      readResourceKey? e.resourceKey = some ("greeting", [.int, .string]) ∧
      r.table? "de" = some t ∧ t.findPair? e.resourceKey = some p ∧
      e.value? "de" = some p.value := by
  have hresolve : Validation.outcome Catalog.welcome.resolve = .ok () := by decide +kernel
  obtain ⟨r, hr⟩ := Validation.outcome_eq_ok_iff.mp hresolve
  obtain ⟨-, hentries⟩ := resourceKeys_tell_entries hr
  have hgreeting : Catalog.welcome.entries[0]? = some .greeting := rfl
  obtain ⟨e, types, he, htypes, hread, htables⟩ := hentries 0 .greeting hgreeting
  have hknown : [ArgumentType.int, .string] = types :=
    List.map_injective_iff.mpr (fun _ _ => Option.some.inj) htypes
  obtain ⟨t, p, ht, -, hvalue, hfind, -⟩ := htables "de" (by decide)
  exact ⟨r, e, t, p, hr, he, hknown ▸ hread, ht, hfind, hvalue⟩

end Phrasebook
