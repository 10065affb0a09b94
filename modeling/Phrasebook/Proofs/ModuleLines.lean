-- Lines of the module. A line that is generated is one line of the file, unless a text of
-- the input breaks it: the name of the tables with any line break, or a template with a
-- carriage return alone.
import Phrasebook.Proofs.DeclaredNames
import Phrasebook.Proofs.LineBreaks

namespace Phrasebook

open Text

/-! ## Characters of lines -/

namespace SourceLine

/-- The line is one line of the file. -/
def IsWhole (line : SourceLine) : Prop := physicalLines line.chars = [line.chars]

variable {depth : Nat} {text : String} {line : SourceLine} {c : Char}

theorem chars_code : (code depth text).chars = List.replicate (4 * depth) ' ' ++ text.toList := by
  simp [chars, indent]

theorem mem_chars_code_iff (hc : IsBreak c) : c ∈ (code depth text).chars ↔ c ∈ text.toList := by
  have hblank : c ≠ ' ' := hc.ne (by decide)
  simp [chars_code, hblank]

theorem getLast?_code {start last : String} (h : last.toList.getLast? = some c) :
    (code depth (start ++ last)).chars.getLast? = some c := by
  rw [chars_code, String.toList_append, List.getLast?_append, List.getLast?_append, h,
    Option.some_or, Option.some_or]

theorem isWhole_iff : line.IsWhole ↔ ∀ c, IsBreak c → c ∉ line.chars :=
  physicalLines_eq_singleton_iff

end SourceLine

theorem AccessorModule.headerLines_areUnbroken : ∀ line ∈ headerLines, IsUnbroken line := by
  decide +kernel

/-! ## Lines of an item -/

namespace Item

variable {P : SourceLine → Prop} {table : String}

-- The proofs go through items and lists of items in turn, as their lines do.
mutual

/-- What holds of the lines of every accessor in an item, of the lines that open its
namespaces and of the lines between and after them holds of all lines. -/
theorem forall_sourceLines (hblank : P .blank) (hclose : ∀ depth, P (.code depth "\x7d")) :
    (item : Item) → (depth : Nat) →
      (∀ name, (.enum, name) ∈ item.names → ∀ depth, P (.code depth (opening name))) →
      (∀ a, Contains item a → ∀ depth, ∀ line ∈ a.sourceLines table depth, P line) →
      ∀ line ∈ item.sourceLines table depth, P line
  | accessor a, depth, _, haccessors => by
    rw [sourceLines]
    exact haccessors a (.self a) depth
  | nested name items, depth, hnames, haccessors => by
    have hinside := forall_bodyLines hblank hclose items (depth + 1)
      (fun other hother => hnames other (by rw [names]; exact List.mem_cons_of_mem _ hother))
      (fun item hitem a ha => haccessors a (.inside hitem ha))
    rw [sourceLines, List.cons_append]
    refine List.forall_mem_cons.mpr ⟨hnames name (by rw [names]; exact List.mem_cons_self) depth, ?_⟩
    exact List.forall_mem_append.mpr ⟨hinside, List.forall_mem_singleton.mpr (hclose depth)⟩

theorem forall_bodyLines (hblank : P .blank) (hclose : ∀ depth, P (.code depth "\x7d")) :
    (items : List Item) → (depth : Nat) →
      (∀ name, (.enum, name) ∈ bodyNames items → ∀ depth, P (.code depth (opening name))) →
      (∀ item ∈ items, ∀ a, Contains item a → ∀ depth, ∀ line ∈ a.sourceLines table depth,
        P line) →
      ∀ line ∈ bodyLines table depth items, P line
  | [], _, _, _ => by simp [bodyLines]
  | [item], depth, hnames, haccessors => by
    rw [bodyNames, bodyNames, List.append_nil] at hnames
    rw [bodyLines]
    exact forall_sourceLines hblank hclose item depth hnames
      (haccessors item List.mem_cons_self)
  | item :: next :: rest, depth, hnames, haccessors => by
    rw [bodyNames] at hnames
    have hitem := forall_sourceLines hblank hclose item depth
      (fun name hname => hnames name (List.mem_append_left _ hname))
      (haccessors item List.mem_cons_self)
    have hrest := forall_bodyLines hblank hclose (next :: rest) depth
      (fun name hname => hnames name (List.mem_append_right _ hname))
      (fun other hother => haccessors other (List.mem_cons_of_mem _ hother))
    rw [bodyLines]
    · exact List.forall_mem_append.mpr ⟨hitem, List.forall_mem_cons.mpr ⟨hblank, hrest⟩⟩
    · simp

end

end Item

theorem AccessorModule.forall_sourceLines {P : SourceLine → Prop} {m : AccessorModule}
    (hblank : P .blank) (hclose : ∀ depth, P (.code depth "\x7d"))
    (hnames : ∀ name, (.enum, name) ∈ m.root.names → ∀ depth, P (.code depth (Item.opening name)))
    (haccessors : ∀ a ∈ m.accessors, ∀ depth, ∀ line ∈ a.sourceLines m.tableName depth, P line) :
    ∀ line ∈ m.sourceLines, P line :=
  Item.forall_sourceLines hblank hclose m.root 0 hnames fun a ha =>
    haccessors a (Item.contains_root_iff.mp ha)

/-! ## Ends of lines -/

namespace Accessor

variable {a : Accessor}

theorem toList_docLine (a : Accessor) :
    a.docLine.toList = trimChars ([' '].intercalate (lines a.doc.toList)) := by
  simp [docLine, trim, String.toList_intercalate, Function.comp_def]

theorem feed_not_mem_docLine (a : Accessor) : '\n' ∉ a.docLine.toList := by
  rw [toList_docLine]
  exact feed_not_mem_trimChars_lines _

theorem mem_docLines_iff {depth : Nat} {line : SourceLine} :
    line ∈ a.docLines depth ↔ a.docLine ≠ "" ∧ line = .code depth ("/// " ++ a.docLine) := by
  unfold docLines
  split
  · rename_i hempty
    simp [hempty]
  · rename_i hsome
    simp [hsome]

theorem break_mem_docLines_iff {c : Char} (hc : IsBreak c) (depth : Nat) :
    (∃ line ∈ a.docLines depth, c ∈ line.chars) ↔ c ∈ a.docLine.toList := by
  have hslashes : c ∈ ("/// " ++ a.docLine).toList ↔ c ∈ a.docLine.toList := by
    rcases hc with rfl | rfl <;> simp
  simp only [mem_docLines_iff]
  constructor
  · rintro ⟨_, ⟨-, rfl⟩, hin⟩
    exact hslashes.mp ((SourceLine.mem_chars_code_iff hc).mp hin)
  · intro hin
    refine ⟨_, ⟨?_, rfl⟩, (SourceLine.mem_chars_code_iff hc).mpr (hslashes.mpr hin)⟩
    intro hempty
    rw [hempty] at hin
    cases hin

/-- The documentation is on one line unless there is a carriage return alone inside it. -/
theorem docLines_whole_iff (a : Accessor) (depth : Nat) :
    (∀ line ∈ a.docLines depth, line.IsWhole) ↔ ¬ HasLoneReturn a.doc.toList := by
  rw [← isUnbroken_trimChars_lines_iff, ← toList_docLine]
  simp only [SourceLine.isWhole_iff]
  constructor
  · intro h c hc hin
    obtain ⟨line, hline, hmem⟩ := (break_mem_docLines_iff hc depth).mpr hin
    exact h line hline c hc hmem
  · intro h line hline c hc hmem
    exact h c hc ((break_mem_docLines_iff hc depth).mp ⟨line, hline, hmem⟩)

/-- A line of an accessor does not end in a carriage return. -/
theorem getLast?_ne_return (a : Accessor) (table : String) (depth : Nat) :
    ∀ line ∈ a.sourceLines table depth, line.chars.getLast? ≠ some '\r' := by
  intro line hline
  simp only [sourceLines, List.mem_append, List.mem_cons, List.not_mem_nil, or_false] at hline
  rcases hline with hdoc | rfl | rfl | rfl
  · obtain ⟨hsome, rfl⟩ := mem_docLines_iff.mp hdoc
    obtain ⟨last, hlast⟩ := Option.ne_none_iff_exists'.mp
      (mt List.getLast?_eq_none_iff.mp (mt String.toList_eq_nil_iff.mp hsome))
    rw [SourceLine.getLast?_code hlast]
    rintro ⟨⟩
    rw [toList_docLine] at hlast
    exact absurd (isBlank_of_getLast?_trimChars hlast) (by decide)
  · have hproperty : (": String \x7b" : String).toList.getLast? = some '\x7b' := rfl
    have hfunction : (") -> String \x7b" : String).toList.getLast? = some '\x7b' := rfl
    unfold signature
    split
    · simp [SourceLine.getLast?_code hproperty]
    · simp [SourceLine.getLast?_code hfunction]
  · have hlookup : (", comment: \"\")" : String).toList.getLast? = some ')' := rfl
    have hcall : (")" : String).toList.getLast? = some ')' := rfl
    unfold body lookup
    split
    · rw [SourceLine.getLast?_code hlookup]
      decide
    · rw [SourceLine.getLast?_code hcall]
      decide
  · simp [SourceLine.chars_code]

end Accessor

theorem AccessorModule.physicalLines_render (m : AccessorModule) :
    physicalLines m.render.toList =
      headerLines ++ m.sourceLines.flatMap (fun line => physicalLines line.chars) ++ [[]] := by
  have hheader : headerLines.flatMap physicalLines = headerLines := by
    rw [List.flatMap_congr fun line hline =>
      physicalLines_eq_singleton_iff.mpr (headerLines_areUnbroken line hline)]
    exact List.flatMap_singleton' headerLines
  have hheaderEnds : ∀ line ∈ headerLines, line.getLast? ≠ some '\r' := fun line hline hlast =>
    headerLines_areUnbroken line hline '\r' (Or.inr rfl) (List.mem_of_getLast? hlast)
  have hends : ∀ line ∈ m.sourceLines, line.chars.getLast? ≠ some '\r' := by
    apply forall_sourceLines
    · simp [SourceLine.chars]
    · simp [SourceLine.chars_code]
    · intro name _ depth
      have hbrace : (" \x7b" : String).toList.getLast? = some '\x7b' := rfl
      rw [Item.opening, SourceLine.getLast?_code hbrace]
      decide
    · exact fun a _ depth => a.getLast?_ne_return m.tableName depth
  have hall : ∀ line ∈ headerLines ++ m.sourceLines.map SourceLine.chars,
      line.getLast? ≠ some '\r' :=
    List.forall_mem_append.mpr ⟨hheaderEnds, List.forall_mem_map.mpr hends⟩
  rw [toList_render, physicalLines_flatMap hall, List.flatMap_append, hheader, List.flatMap_map]

theorem AccessorModule.mem_physicalLines_render {m : AccessorModule} {line : SourceLine}
    {piece : List Char} (hline : line ∈ m.sourceLines) (hpiece : piece ∈ physicalLines line.chars) :
    piece ∈ physicalLines m.render.toList := by
  rw [physicalLines_render, List.append_assoc, List.mem_append, List.mem_append]
  exact Or.inr (Or.inl (List.mem_flatMap.mpr ⟨line, hline, hpiece⟩))

/-! ## Breaks in lines -/

theorem Text.IsBreak.isControl {c : Char} (h : IsBreak c) : IsControl c := by
  rcases h with rfl | rfl <;> decide

theorem IsIdentifier.not_mem_escapeKeyword_of_isBreak {s : String} (h : IsIdentifier s) {c : Char}
    (hc : IsBreak c) : c ∉ (escapeKeyword s).toList :=
  not_mem_escapeKeyword h hc.isControl.not_isNamePart (hc.ne (by decide))

theorem mem_stringLiteral_iff {c : Char} (hc : IsBreak c) (s : String) :
    c ∈ (stringLiteral s).toList ↔ c ∈ s.toList := by
  have hchar : ∀ d, c ∈ escapeLiteralChar d ↔ c = d := by
    intro d
    unfold escapeLiteralChar
    split
    · rcases hc with rfl | rfl <;> simp [*]
    · split
      · rcases hc with rfl | rfl <;> simp [*]
      · exact List.mem_singleton
  have hquote : c ≠ '"' := hc.ne (by decide)
  simp [stringLiteral, hquote, hchar]

/-- An accessor with nothing of a line break in its code. -/
structure Accessor.IsPlain (a : Accessor) : Prop where
  names : ∀ x ∈ a.names, IsIdentifier x.2
  resourceKey : IsUnbroken a.resourceKey.toList
  argumentList : IsUnbroken a.argumentList.toList

namespace Accessor.IsPlain

variable {a : Accessor} {table : String} {depth : Nat} {c : Char}

theorem not_mem_signature (h : a.IsPlain) (hc : IsBreak c) : c ∉ a.signature.toList := by
  obtain ⟨hmember, harguments⟩ := List.forall_mem_cons.mp h.names
  have hname := hmember.not_mem_escapeKeyword_of_isBreak hc
  have hparameters : c ∉ (", ".intercalate (a.arguments.map parameter)).toList := by
    intro hmem
    rcases mem_intercalate hmem with hglue | ⟨_, hparameter, hin⟩
    · exact absurd hglue (hc.not_mem (by decide))
    · obtain ⟨p, hp, rfl⟩ := List.mem_map.mp hparameter
      have hname := (harguments _ (List.mem_map_of_mem hp)).not_mem_escapeKeyword_of_isBreak hc
      have htype : c ∉ p.2.name.toList := hc.not_mem (by cases p.2 <;> decide)
      rcases hc with rfl | rfl <;> simp [parameter, hname, htype] at hin
  unfold signature
  generalize ", ".intercalate (a.arguments.map parameter) = parameters at hparameters
  split
  · rcases hc with rfl | rfl <;> simp [hname]
  · rcases hc with rfl | rfl <;> simp [hname, hparameters]

theorem mem_body_iff (h : a.IsPlain) (hc : IsBreak c) :
    c ∈ (a.body table).toList ↔ c ∈ table.toList := by
  have hlookup : c ∈ (a.lookup table).toList ↔ c ∈ table.toList := by
    have hkey := mt (mem_stringLiteral_iff hc a.resourceKey).mp (h.resourceKey c hc)
    apply Iff.trans _ (mem_stringLiteral_iff hc table)
    unfold lookup
    generalize stringLiteral a.resourceKey = key, stringLiteral table = name at hkey
    rcases hc with rfl | rfl <;> simp [hkey]
  have hpassed := h.argumentList c hc
  unfold body
  split
  · exact hlookup
  · rw [← hlookup]
    rcases hc with rfl | rfl <;> simp [hpassed]

theorem body_isWhole_iff (h : a.IsPlain) :
    (SourceLine.code depth (a.body table)).IsWhole ↔ IsUnbroken table.toList := by
  rw [SourceLine.isWhole_iff]
  refine forall₂_congr fun c hc => not_congr ?_
  rw [SourceLine.mem_chars_code_iff hc, h.mem_body_iff hc]

/-- The breaks in the lines of an accessor are those of the name of the tables and of its
documentation. -/
theorem mem_sourceLines_iff (h : a.IsPlain) (hc : IsBreak c) :
    (∃ line ∈ a.sourceLines table depth, c ∈ line.chars) ↔
      c ∈ table.toList ∨ c ∈ a.docLine.toList := by
  have hsignature : c ∉ (SourceLine.code depth a.signature).chars :=
    mt (SourceLine.mem_chars_code_iff hc).mp (h.not_mem_signature hc)
  have hclose : c ∉ (SourceLine.code depth "\x7d").chars :=
    mt (SourceLine.mem_chars_code_iff hc).mp (hc.not_mem (by decide))
  have hbody : c ∈ (SourceLine.code (depth + 1) (a.body table)).chars ↔ c ∈ table.toList :=
    (SourceLine.mem_chars_code_iff hc).trans (h.mem_body_iff hc)
  rw [← break_mem_docLines_iff hc depth, ← hbody, or_comm]
  simp [sourceLines, or_and_right, exists_or, hsignature, hclose]

end Accessor.IsPlain

namespace AccessorModule

variable {m : AccessorModule} {c : Char}

/-- The breaks in the lines of a module come from the name of the tables and from the
documentation of its accessors. -/
theorem mem_sourceLines_iff (hnames : ∀ x ∈ m.root.names, IsIdentifier x.2)
    (hplain : ∀ a ∈ m.accessors, a.IsPlain) (hc : IsBreak c) :
    (∃ line ∈ m.sourceLines, c ∈ line.chars) ↔
      ∃ a ∈ m.accessors, c ∈ m.tableName.toList ∨ c ∈ a.docLine.toList := by
  constructor
  · rintro ⟨line, hline, hin⟩
    revert line
    apply forall_sourceLines
    · intro hin
      cases hin
    · intro depth hin
      rw [SourceLine.mem_chars_code_iff hc] at hin
      exact absurd hin (hc.not_mem (by decide))
    · intro name hname depth hin
      have hplain := (hnames _ hname).not_mem_escapeKeyword_of_isBreak hc
      rw [SourceLine.mem_chars_code_iff hc, Item.opening] at hin
      rcases hc with rfl | rfl <;> simp [hplain] at hin
    · intro a ha depth line hline hin
      exact ⟨a, ha, ((hplain a ha).mem_sourceLines_iff hc).mp ⟨line, hline, hin⟩⟩
  · rintro ⟨a, ha, hin⟩
    have hinfix := sourceLines_infix ha
    obtain ⟨line, hline, hmem⟩ := ((hplain a ha).mem_sourceLines_iff hc).mpr hin
    exact ⟨line, hinfix.subset hline, hmem⟩

theorem sourceLines_whole_iff (hnames : ∀ x ∈ m.root.names, IsIdentifier x.2)
    (hplain : ∀ a ∈ m.accessors, a.IsPlain) :
    (∀ line ∈ m.sourceLines, line.IsWhole) ↔
      ∀ a ∈ m.accessors, IsUnbroken m.tableName.toList ∧ ¬ HasLoneReturn a.doc.toList := by
  simp only [SourceLine.isWhole_iff, ← isUnbroken_trimChars_lines_iff, ← Accessor.toList_docLine]
  constructor
  · intro h a ha
    have hfree : ∀ c, IsBreak c → ¬ (c ∈ m.tableName.toList ∨ c ∈ a.docLine.toList) := by
      intro c hc hin
      obtain ⟨line, hline, hmem⟩ := (mem_sourceLines_iff hnames hplain hc).mpr ⟨a, ha, hin⟩
      exact h line hline c hc hmem
    exact ⟨fun c hc hin => hfree c hc (Or.inl hin), fun c hc hin => hfree c hc (Or.inr hin)⟩
  · intro h line hline c hc hmem
    obtain ⟨a, ha, hin⟩ := (mem_sourceLines_iff hnames hplain hc).mp ⟨line, hline, hmem⟩
    rcases hin with htable | hdoc
    · exact (h a ha).1 c hc htable
    · exact (h a ha).2 c hc hdoc

end AccessorModule

/-! ## Accepted catalogs -/

theorem ResolvedEntry.ComesFrom.accessor_isPlain {languages : List String} {entry : Entry}
    {e : ResolvedEntry} (h : e.ComesFrom languages entry) : e.accessor.IsPlain where
  names := fun _ hx => entry.isIdentifier_of_mem_names h.key_isPath h.names_areIdentifiers
    (h.pathNames_eq ▸ List.mem_append_right _ hx)
  resourceKey := fun _ hc => h.not_mem_resourceKey hc.isControl
  argumentList := fun _ hc => ResolvedEntry.not_mem_argumentListWith hc.isControl fun _ ha =>
    (h.isIdentifier_of_mem ha).not_mem_escapeKeyword_of_isBreak hc

namespace ResolvedCatalog.ComesFrom

variable {c : Catalog} {r : ResolvedCatalog} {n : Naming}

theorem accessors_arePlain (h : r.ComesFrom c) : ∀ a ∈ r.accessors, a.IsPlain := by
  intro a ha
  obtain ⟨e, he, rfl⟩ := List.mem_map.mp ha
  obtain ⟨entry, -, hfrom⟩ := Validation.exists_of_mem_forall₂ h.entries he
  exact hfrom.accessor_isPlain

theorem names_areIdentifiers (h : r.ComesFrom c)
    (htype : Settings.checkTypeName n.typeName = .ok ()) :
    ∀ x ∈ (r.accessorModule n).root.names, IsIdentifier x.2 := fun _ hx =>
  h.isIdentifier_of_mem_names (Settings.checkTypeName_eq_ok_iff.mp htype) (h.mem_names_iff.mp hx)

end ResolvedCatalog.ComesFrom

/-- The lines of a module are lines of its file, unless they are broken. The name of the
tables breaks the lookups, and a carriage return alone inside a template breaks the
documentation. -/
theorem Catalog.module_lines_whole_iff {c : Catalog} {r : ResolvedCatalog} {n : Naming}
    (h : c.resolve = .ok r) (htype : Settings.checkTypeName n.typeName = .ok ()) :
    physicalLines (r.accessorModule n).render.toList = AccessorModule.headerLines ++
      (r.accessorModule n).sourceLines.flatMap (fun line => physicalLines line.chars) ++ [[]] ∧
    (∀ a ∈ r.accessors, ∃ depth,
      a.sourceLines n.tableName depth <:+: (r.accessorModule n).sourceLines ∧
      ((∀ line ∈ a.docLines depth, line.IsWhole) ↔ ¬ HasLoneReturn a.doc.toList) ∧
      ((SourceLine.code (depth + 1) (a.body n.tableName)).IsWhole ↔
        IsUnbroken n.tableName.toList)) ∧
    ((∀ line ∈ (r.accessorModule n).sourceLines, line.IsWhole) ↔
      ∀ a ∈ r.accessors, IsUnbroken n.tableName.toList ∧ ¬ HasLoneReturn a.doc.toList) := by
  have hcomes := comesFrom_of_resolve h
  have hplain := hcomes.accessors_arePlain
  have hnames := hcomes.names_areIdentifiers htype
  refine ⟨AccessorModule.physicalLines_render _, fun a ha => ?_, ?_⟩
  · have hinfix := AccessorModule.sourceLines_infix (m := r.accessorModule n) ha
    exact ⟨a.depth, hinfix, a.docLines_whole_iff a.depth, (hplain a ha).body_isWhole_iff⟩
  · exact AccessorModule.sourceLines_whole_iff hnames hplain

/-- A catalog of one text. -/
def Catalog.titled (text : String) : Catalog := ⟨["en"], [⟨"title", .ofList [("en", text)], []⟩]⟩

/-- The accessor of the one text. -/
def Accessor.titled (text : String) : Accessor := ⟨"title", "title", [], "[]", text⟩

/-- Line feeds and carriage returns before line feeds break nothing. -/
theorem Catalog.titled_module_lines_whole :
    ∃ r, (Catalog.titled "First line\n\r\nsecond line\n").resolve = .ok r ∧
      (∃ a ∈ r.accessors, a.docLine = "First line  second line") ∧
      ∀ line ∈ (r.accessorModule {}).sourceLines, line.IsWhole := by
  have haccessors : (Catalog.titled "First line\n\r\nsecond line\n").resolve.map (·.accessors) =
      .ok [.titled "First line\n\r\nsecond line\n"] := by
    decide +kernel
  obtain ⟨r, hr, hone⟩ := Validation.map_eq_ok_iff.mp haccessors
  obtain ⟨-, -, hwhole⟩ := module_lines_whole_iff (n := {}) hr (by decide)
  rw [hone] at hwhole
  refine ⟨r, hr, ⟨_, hone ▸ List.mem_singleton_self _, by decide⟩, hwhole.mpr ?_⟩
  exact List.forall_mem_singleton.mpr (by decide)

/-- What comes after a carriage return alone is a line of its own, and so is what comes
after a line feed in the name of the tables. -/
theorem Catalog.titled_module_lines_broken :
    ∃ r, (Catalog.titled "First line\rsecond line").resolve = .ok r ∧
      (∃ line ∈ (Accessor.titled "First line\rsecond line").docLines 1,
        line ∈ (r.accessorModule {}).sourceLines ∧ ¬ line.IsWhole) ∧
      "second line".toList ∈ physicalLines (r.accessorModule {}).render.toList ∧
      Settings.checkTableName "Main\nText" = .ok () ∧
      (∃ line ∈ (r.accessorModule ⟨"Main\nText", "Localization"⟩).sourceLines,
        line = .code 2 ((Accessor.titled "First line\rsecond line").lookup "Main\nText") ∧
        ¬ line.IsWhole) ∧
      "Text\", comment: \"\")".toList ∈
        physicalLines (r.accessorModule ⟨"Main\nText", "Localization"⟩).render.toList := by
  have haccessors : (Catalog.titled "First line\rsecond line").resolve.map (·.accessors) =
      .ok [.titled "First line\rsecond line"] := by
    decide +kernel
  obtain ⟨r, hr, hone⟩ := Validation.map_eq_ok_iff.mp haccessors
  have hdoc : .code 1 "/// First line\rsecond line" ∈ (r.accessorModule {}).sourceLines := by
    rw [ResolvedCatalog.accessorModule, hone]
    decide +kernel
  have hlookup : .code 2 ((Accessor.titled "First line\rsecond line").lookup "Main\nText") ∈
      (r.accessorModule ⟨"Main\nText", "Localization"⟩).sourceLines := by
    rw [ResolvedCatalog.accessorModule, hone]
    decide +kernel
  refine ⟨r, hr, ⟨_, ?_, hdoc, ?_⟩, ?_, by decide, ⟨_, hlookup, rfl, ?_⟩, ?_⟩
  · decide
  · unfold SourceLine.IsWhole
    decide
  · exact AccessorModule.mem_physicalLines_render hdoc (by decide)
  · unfold SourceLine.IsWhole
    decide
  · exact AccessorModule.mem_physicalLines_render hlookup (by decide)

end Phrasebook
