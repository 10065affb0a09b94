-- What is generated from a catalog that was accepted. There is a table for
-- each language and a row and an accessor for each entry, all in the order
-- of the catalog, and the command writes the same tables.
import Phrasebook.Commands
import Phrasebook.Proofs.Acceptance
import Phrasebook.Proofs.Expansion

namespace Phrasebook

/-! ## Lists of options -/

section

variable {α β : Type} {f : α → Option β} {l : List α}

theorem mapM_eq_some_iff {bs : List β} :
    l.mapM f = some bs ↔ List.Forall₂ (fun a b => f a = some b) l bs := by
  induction l generalizing bs with
  | nil => simp [eq_comm]
  | cons a l ih =>
    simp only [List.mapM_cons, Option.bind_eq_bind, Option.bind_eq_some_iff, ih,
      List.forall₂_cons_left_iff]
    constructor
    · rintro ⟨b, hb, rest, hrest, hpure⟩
      cases hpure
      exact ⟨b, rest, hb, hrest, rfl⟩
    · rintro ⟨b, rest, hb, hrest, rfl⟩
      exact ⟨b, hb, rest, hrest, rfl⟩

theorem mapM_isSome_iff : (l.mapM f).isSome ↔ ∀ a ∈ l, (f a).isSome := by
  induction l with
  | nil => simp
  | cons a l ih =>
    rw [List.forall_mem_cons, ← ih, List.mapM_cons]
    cases f a with
    | none => simp
    | some b => cases l.mapM f <;> simp

/-- Where every element gives something, none is left out. -/
theorem forall₂_filterMap (h : ∀ a ∈ l, (f a).isSome) :
    List.Forall₂ (fun a b => f a = some b) l (l.filterMap f) := by
  induction l with
  | nil => exact .nil
  | cons a l ih =>
    obtain ⟨ha, hl⟩ := List.forall_mem_cons.mp h
    obtain ⟨b, hb⟩ := Option.isSome_iff_exists.mp ha
    rw [List.filterMap_cons_some hb]
    exact .cons hb (ih hl)

end

/-- Among elements with keys of their own, the search for the key of an element
finds that element. -/
theorem find?_eq_some_of_nodup {α : Type} {key : α → String} {l : List α}
    (hnodup : (l.map key).Nodup) {a : α} (ha : a ∈ l) : l.find? (key · == key a) = some a := by
  obtain ⟨before, after, hlist⟩ := List.append_of_mem ha
  rw [hlist, List.map_append, List.nodup_append] at hnodup
  refine List.find?_eq_some_iff_append.mpr ⟨by simp, before, after, hlist, fun other hother => ?_⟩
  have hne := hnodup.2.2 _ (List.mem_map_of_mem hother) (key a) (by simp)
  simpa using hne

/-! ## Rows and tables -/

theorem ResolvedEntry.row?_eq_some_iff {e : ResolvedEntry} {language : String} {p : StringsPair} :
    e.row? language = some p ↔ p.key = e.resourceKey ∧ e.value? language = some p.value := by
  unfold row?
  constructor
  · intro h
    obtain ⟨value, hvalue, rfl⟩ := Option.map_eq_some_iff.mp h
    exact ⟨rfl, hvalue⟩
  · rintro ⟨hkey, hvalue⟩
    rw [hvalue, Option.map_some, ← hkey]

namespace ResolvedCatalog

variable {c : Catalog} {r : ResolvedCatalog} {language : String} {t : StringsTable}

theorem table?_eq_some_iff : r.table? language = some t ↔
    language ∈ r.languages ∧ t.language = language ∧ r.rows? language = some t.pairs := by
  unfold table?
  by_cases hl : language ∈ r.languages
  · rw [if_pos (List.contains_iff_mem.mpr hl), Option.map_eq_some_iff]
    constructor
    · rintro ⟨pairs, hpairs, rfl⟩
      exact ⟨hl, rfl, hpairs⟩
    · rintro ⟨-, rfl, hpairs⟩
      exact ⟨t.pairs, hpairs, rfl⟩
  · simp [hl]

namespace ComesFrom

theorem rows?_isSome (h : r.ComesFrom c) (hl : language ∈ c.languages) :
    (r.rows? language).isSome := by
  rw [rows?, mapM_isSome_iff]
  intro e he
  obtain ⟨entry, -, hfrom⟩ := Validation.exists_of_mem_forall₂ h.entries he
  obtain ⟨t, ht, -⟩ := hfrom.template?_eq hl
  rw [ResolvedEntry.row?, ResolvedEntry.value?, ht]
  rfl

theorem table?_isSome (h : r.ComesFrom c) (hl : language ∈ c.languages) :
    (r.table? language).isSome := by
  obtain ⟨rows, hrows⟩ := Option.isSome_iff_exists.mp (h.rows?_isSome hl)
  have htable : r.table? language = some ⟨language, rows⟩ :=
    table?_eq_some_iff.mpr ⟨h.languages_eq ▸ hl, rfl, hrows⟩
  rw [htable]
  rfl

theorem tables_languages (h : r.ComesFrom c) : r.tables.map (·.language) = c.languages := by
  have hsome : ∀ language ∈ r.languages, (r.table? language).isSome :=
    fun language hl => h.table?_isSome (h.languages_eq ▸ hl)
  have hmap : r.tables.map (·.language) = r.languages.map id :=
    Validation.map_eq_map_of_forall₂ (R := fun language t => r.table? language = some t)
      (fun _ _ ht => (table?_eq_some_iff.mp ht).2.1) (forall₂_filterMap hsome)
  rw [hmap, List.map_id, h.languages_eq]

end ComesFrom

/-- The rows of a table, one for each entry. -/
theorem rows_of_mem_tables (ht : t ∈ r.tables) : List.Forall₂
    (fun e (p : StringsPair) => p.key = e.resourceKey ∧ e.value? t.language = some p.value)
    r.entries t.pairs := by
  obtain ⟨language, -, htable⟩ := List.mem_filterMap.mp ht
  obtain ⟨-, rfl, hrows⟩ := table?_eq_some_iff.mp htable
  exact (mapM_eq_some_iff.mp hrows).imp fun _ _ => ResolvedEntry.row?_eq_some_iff.mp

theorem keys_of_mem_tables (ht : t ∈ r.tables) :
    t.pairs.map (·.key) = r.accessors.map (·.resourceKey) := by
  have hkeys := Validation.map_eq_map_of_forall₂ (fun _ _ hrow => hrow.1) (rows_of_mem_tables ht)
  rw [hkeys, accessors, List.map_map]
  rfl

theorem values_of_mem_tables (ht : t ∈ r.tables) :
    t.pairs.map (fun p => some p.value) = r.entries.map (·.value? t.language) :=
  Validation.map_eq_map_of_forall₂ (fun _ _ hrow => hrow.2.symm) (rows_of_mem_tables ht)

/-- The files hold the same tables, each at the path of its language. -/
theorem tableFiles_eq (r : ResolvedCatalog) (n : Naming) (directory : String) :
    r.tableFiles n directory = r.tables.map fun t => (n.tablePath directory t.language, t) := by
  rw [tables, List.map_filterMap, tableFiles]
  apply List.filterMap_congr
  intro language _
  cases htable : r.table? language with
  | none => rfl
  | some t =>
    obtain ⟨-, rfl, -⟩ := table?_eq_some_iff.mp htable
    rfl

/-- The tables are written in their order, and the Swift file after them. -/
theorem outputs_eq (r : ResolvedCatalog) (n : Naming) (stringsDirectory swiftDirectory : String) :
    r.outputs n stringsDirectory swiftDirectory =
      r.tables.map (fun t => ⟨n.tablePath stringsDirectory t.language, t.render⟩) ++
      [⟨n.modulePath swiftDirectory, (r.accessorModule n).render⟩] := by
  rw [outputs, tableFiles_eq, List.map_map]
  rfl

theorem ComesFrom.outputs_paths (h : r.ComesFrom c) (n : Naming)
    (stringsDirectory swiftDirectory : String) :
    (r.outputs n stringsDirectory swiftDirectory).map (·.path) =
      c.languages.map (n.tablePath stringsDirectory) ++ [n.modulePath swiftDirectory] := by
  rw [outputs_eq, List.map_append, List.map_map, ← h.tables_languages, List.map_map]
  rfl

end ResolvedCatalog

/-! ## Accessors -/

/-- An accessor that carries the key and the arguments of an entry, and its text
in the first language as documentation. -/
structure Accessor.Describes (languages : List String) (entry : Entry) (a : Accessor) : Prop where
  key_eq : a.entryKey = entry.key
  arguments : List.Forall₂
    (fun declared argument => argument.1 = declared.name ∧
      declared.argumentType? = some argument.2)
    entry.arguments a.arguments
  doc_eq : ∃ first, languages.head? = some first ∧ entry.localization? first = some a.doc

theorem ResolvedEntry.ComesFrom.accessor_describes {languages : List String} {entry : Entry}
    {e : ResolvedEntry} (h : e.ComesFrom languages entry) (hsome : languages ≠ []) :
    e.accessor.Describes languages entry where
  key_eq := h.key_eq
  arguments := by
    rw [accessor, List.forall₂_map_right_iff]
    exact h.arguments.imp fun _ _ ha => ⟨ha.name_eq, ha.type_eq⟩
  doc_eq := by
    obtain ⟨first, rest, rfl⟩ := List.exists_cons_of_ne_nil hsome
    obtain ⟨t, templates, ht, -, htemplates⟩ := List.forall₂_cons_left_iff.mp h.templates
    refine ⟨first, rfl, ?_⟩
    rw [ht.source_eq, accessor, htemplates]
    rfl

theorem ResolvedCatalog.ComesFrom.accessors_describe {c : Catalog} {r : ResolvedCatalog}
    (h : r.ComesFrom c) (hsome : c.languages ≠ []) :
    List.Forall₂ (Accessor.Describes c.languages) c.entries r.accessors := by
  rw [accessors, List.forall₂_map_right_iff]
  exact h.entries.imp fun _ _ he => he.accessor_describes hsome

/-! ## Everything that is generated -/

/-- The tables are those of the languages, and each has one row for each entry.
The keys of the rows are the same everywhere, and the accessors look them up. -/
structure Artifacts.Complete (c : Catalog) (r : ResolvedCatalog) (a : Artifacts) : Prop where
  languages_eq : a.tables.map (·.language) = c.languages
  pairs_length : ∀ t ∈ a.tables, t.pairs.length = c.entries.length
  keys_eq : ∀ t ∈ a.tables,
    t.pairs.map (·.key) = a.accessorModule.accessors.map (·.resourceKey)
  values_eq : ∀ t ∈ a.tables,
    t.pairs.map (fun p => some p.value) = r.entries.map (·.value? t.language)
  accessors : List.Forall₂ (Accessor.Describes c.languages) c.entries a.accessorModule.accessors

/-- Nothing is left out of what is generated from an accepted catalog, and the
command goes over the same tables. -/
theorem ResolvedCatalog.artifacts_complete {c : Catalog} {r : ResolvedCatalog}
    (h : c.resolve = .ok r) (o : GenerateOptions) :
    c.generate o.naming = .ok (r.artifacts o.naming) ∧
    (r.artifacts o.naming).Complete c r ∧
    (o.tableFiles r).map (·.2) = (r.artifacts o.naming).tables ∧
    o.outputs r =
      (r.artifacts o.naming).tables.map
        (fun t => ⟨o.naming.tablePath o.stringsDirectory t.language, t.render⟩) ++
      [⟨o.naming.modulePath o.swiftDirectory, (r.artifacts o.naming).accessorModule.render⟩] := by
  have hfrom := Catalog.comesFrom_of_resolve h
  obtain ⟨hsome, -⟩ := Catalog.languages_of_resolve h
  have hfiles := r.tableFiles_eq o.naming o.stringsDirectory
  refine ⟨?_, ?_, ?_, ?_⟩
  · rw [Catalog.generate, h]
    rfl
  · exact {
      languages_eq := hfrom.tables_languages
      pairs_length := fun t ht => by
        rw [← (rows_of_mem_tables ht).length_eq, hfrom.entries.length_eq]
      keys_eq := fun t ht => keys_of_mem_tables ht
      values_eq := fun t ht => values_of_mem_tables ht
      accessors := hfrom.accessors_describe hsome }
  · rw [GenerateOptions.tableFiles, hfiles, List.map_map]
    exact List.map_id _
  · exact r.outputs_eq o.naming o.stringsDirectory o.swiftDirectory

/-- Two entries in two languages, one of them without arguments. -/
def Catalog.welcome : Catalog where
  languages := ["en", "de"]
  entries := [.greeting, ⟨"home.title", .ofList [("de", "Start"), ("en", "Home")], []⟩]

/-- What is generated from the two entries, with a table name of its own. -/
theorem Catalog.welcome_artifacts_complete :
    ∃ r, Catalog.welcome.resolve = .ok r ∧
      Catalog.welcome.generate ⟨"Texts", "L10n"⟩ = .ok (r.artifacts ⟨"Texts", "L10n"⟩) ∧
      (r.artifacts ⟨"Texts", "L10n"⟩).Complete Catalog.welcome r ∧
      (r.tableFiles ⟨"Texts", "L10n"⟩ "out").map (·.2) = r.tables := by
  have hresolve : Validation.outcome Catalog.welcome.resolve = .ok () := by decide +kernel
  obtain ⟨r, hr⟩ := Validation.outcome_eq_ok_iff.mp hresolve
  obtain ⟨hgenerate, hcomplete, hfiles, -⟩ := ResolvedCatalog.artifacts_complete hr
    { stringsDirectory := "out", naming := ⟨"Texts", "L10n"⟩ }
  exact ⟨r, hr, hgenerate, hcomplete, hfiles⟩

end Phrasebook
