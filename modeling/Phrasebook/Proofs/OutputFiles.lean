-- What a run that writes leaves in a file tree. Every output is written over
-- the ones before it that have its place, so the table of a language is lost
-- if a language after it leads to the same directory.
import Phrasebook.Proofs.CommandRuns
import Phrasebook.Proofs.TablePaths

namespace Phrasebook

open CommandM

/-! ## Written files -/

namespace FileTree

variable {t t' : FileTree} {text : String} {outputs : List Output}

/-- The text that a list of outputs leaves at a place: that of the last output
whose path leads there. -/
def lastText? (t : FileTree) (outputs : List Output) (place : Place) : Option String :=
  (outputs.reverse.find? fun o => t.placeOf o.path == place).map (·.text)

/-- Every file is what the outputs leave there, or what it was. -/
structure Holds (t t' : FileTree) (outputs : List Output) : Prop where
  keeps : t.KeepsDirectories t'
  file?_eq (place : Place) : t'.file? place =
    ((t.lastText? outputs place).map String.toUTF8).or (t.file? place)
  locate_eq : ∀ o ∈ outputs, t'.locate o.path = .ok (t.placeOf o.path)

theorem holds_nil (t : FileTree) : t.Holds t [] where
  keeps := (AddsDirectories.refl t).keeps
  file?_eq _ := rfl
  locate_eq := by simp

theorem lastText?_cons (t : FileTree) (o : Output) (outputs : List Output) (place : Place) :
    t.lastText? (o :: outputs) place =
      (t.lastText? outputs place).or (if t.placeOf o.path = place then some o.text else none) := by
  unfold lastText?
  rw [List.reverse_cons, List.find?_append, Option.map_or]
  by_cases h : t.placeOf o.path = place
  · simp [h]
  · simp [h]

theorem KeepsDirectories.lastText?_eq (h : t.KeepsDirectories t') (outputs : List Output)
    (place : Place) : t'.lastText? outputs place = t.lastText? outputs place := by
  unfold lastText?
  simp only [h.placeOf_eq]

/-- One more output before the others. -/
theorem Holds.cons {t₂ : FileTree} {o : Output} (hkeeps : t.KeepsDirectories t₂)
    (hfile : ∀ place, t₂.file? place =
      if place = t.placeOf o.path then some o.text.toUTF8 else t.file? place)
    (hlocate : t₂.locate o.path = .ok (t.placeOf o.path)) (h : t₂.Holds t' outputs) :
    t.Holds t' (o :: outputs) where
  keeps := hkeeps.trans h.keeps
  file?_eq place := by
    rw [h.file?_eq, hkeeps.lastText?_eq, lastText?_cons, hfile]
    by_cases hplace : place = t.placeOf o.path
    · rw [if_pos hplace, if_pos hplace.symm, Option.map_or, Option.or_assoc]
      rfl
    · rw [if_neg hplace, if_neg (Ne.symm hplace), Option.or_none]
  locate_eq := by
    rw [List.forall_mem_cons]
    refine ⟨h.keeps.locate hlocate, fun other hother => ?_⟩
    rw [h.locate_eq other hother, hkeeps.placeOf_eq]

/-- Writing one output after the other. -/
theorem holds_of_writeOutputs (h : runOn (writeOutputs outputs) t = (.ok (), t')) :
    t.Holds t' outputs := by
  induction outputs generalizing t with
  | nil =>
    cases h
    exact holds_nil _
  | cons o outputs ih =>
    obtain ⟨t₂, hwrite, hrest⟩ := writeOutputs_cons_eq_ok.mp h
    obtain ⟨t₁, hmade, hput⟩ := writeText_eq_ok hwrite
    have hadds : t.AddsDirectories t₁ := hmade
    have hputs := write_eq_ok (commit_eq_ok hput)
    have hplace := hadds.keeps.placeOf_eq o.path
    refine Holds.cons (hadds.keeps.trans hputs.keeps) (fun place => ?_) ?_ (ih hrest)
    · rw [hputs.file?_eq, hplace, hadds.file?_eq]
    · rw [hputs.locate_eq, hplace]

theorem lastText?_append (t : FileTree) (before after : List Output) (place : Place) :
    t.lastText? (before ++ after) place =
      (t.lastText? after place).or (t.lastText? before place) := by
  unfold lastText?
  rw [List.reverse_append, List.find?_append, Option.map_or]

theorem lastText?_eq_none_iff {place : Place} :
    t.lastText? outputs place = none ↔ ∀ o ∈ outputs, t.placeOf o.path ≠ place := by
  simp [lastText?]

theorem exists_of_lastText?_eq_some {place : Place} (h : t.lastText? outputs place = some text) :
    ∃ o ∈ outputs, t.placeOf o.path = place ∧ o.text = text := by
  obtain ⟨o, hfind, htext⟩ := Option.map_eq_some_iff.mp h
  have hmem := List.mem_of_find?_eq_some hfind
  exact ⟨o, by simpa using hmem, by simpa using List.find?_some hfind, htext⟩

section

variable {before after : List Output} {o : Output}

theorem Holds.read_eq (h : t.Holds t' outputs) (ho : o ∈ outputs)
    (hlast : t.lastText? outputs (t.placeOf o.path) = some text) :
    t'.read o.path = .ok text.toUTF8 := by
  apply read_eq_ok (h.locate_eq o ho)
  rw [h.file?_eq, hlast]
  rfl

/-- An output is kept if no output after it has its place. -/
theorem Holds.read_eq_of_last (h : t.Holds t' (before ++ o :: after))
    (hlast : ∀ later ∈ after, t.placeOf later.path ≠ t.placeOf o.path) :
    t'.read o.path = .ok o.text.toUTF8 := by
  apply h.read_eq (by simp)
  rw [lastText?_append, lastText?_cons, lastText?_eq_none_iff.mpr hlast, if_pos rfl]
  rfl

/-- If some output after it has its place, one of these is there instead. -/
theorem Holds.read_eq_of_later (h : t.Holds t' (before ++ o :: after))
    (hlater : ∃ later ∈ after, t.placeOf later.path = t.placeOf o.path) :
    ∃ later ∈ after, t.placeOf later.path = t.placeOf o.path ∧
      t'.read o.path = .ok later.text.toUTF8 := by
  cases htext : t.lastText? after (t.placeOf o.path) with
  | none =>
    obtain ⟨later, hmem, hplace⟩ := hlater
    exact absurd hplace (lastText?_eq_none_iff.mp htext later hmem)
  | some text =>
    obtain ⟨later, hmem, hplace, rfl⟩ := exists_of_lastText?_eq_some htext
    refine ⟨later, hmem, hplace, h.read_eq (by simp) ?_⟩
    rw [lastText?_append, lastText?_cons, htext]
    rfl

end

end FileTree

/-! ## Rendered tables -/

/-- The header tells the language, if the languages differ in slashes and dots. -/
theorem StringsTable.language_eq_of_render_eq {table other : StringsTable}
    (h : table.render = other.render)
    (hplain : table.language.toList.filter Language.isPlainChar =
      other.language.toList.filter Language.isPlainChar) : table.language = other.language := by
  have hlines := congrArg String.toList h
  unfold render header at hlines
  simp only [String.toList_append, List.append_assoc] at hlines
  have hrest := List.append_cancel_left (List.append_cancel_left hlines)
  have hcount : table.language.toList.count '\n' = other.language.toList.count '\n' := by
    rw [← List.count_filter (p := Language.isPlainChar) (by decide), hplain,
      List.count_filter (by decide)]
  exact String.toList_inj.mp (eq_of_append_mark_eq hrest hcount)

/-! ## Options that were checked -/

namespace GenerateOptions

/-- Options with directories that have a name, and names without slashes. -/
structure Fits (o : GenerateOptions) : Prop where
  stringsDirectory : o.stringsDirectory ≠ ""
  swiftDirectory : o.swiftDirectory ≠ ""
  tableName : '/' ∉ o.naming.tableName.toList
  typeName : '/' ∉ o.naming.typeName.toList

end GenerateOptions

section

variable {σ : Type} [FileStore (StateM σ)] {s s' : σ} {name : String}

theorem ne_empty_of_checkOutputDirectory
    (h : runOn (checkOutputDirectory name) s = (.ok (), s')) : name ≠ "" := by
  rintro rfl
  cases h

theorem not_mem_of_checkTableName (h : Settings.checkTableName name = .ok ()) :
    '/' ∉ name.toList := by
  unfold Settings.checkTableName at h
  split at h
  · cases h
  · split at h
    · rename_i hplain
      intro hslash
      simp [Settings.isPlainName, hslash] at hplain
    · cases h

theorem not_mem_of_checkTypeName (h : Settings.checkTypeName name = .ok ()) :
    '/' ∉ name.toList :=
  (Settings.checkTypeName_eq_ok_iff.mp h).not_mem (by decide)

theorem GenerateOptions.fits_of_prepare {o : GenerateOptions} {c : ResolvedCatalog}
    (h : runOn o.prepare s = (.ok c, s')) : o.Fits := by
  obtain ⟨⟨⟩, s₁, htargets, -⟩ := runOn_bind_eq_ok.mp h
  obtain ⟨⟨⟩, s₂, hstrings, hrest⟩ := runOn_bind_eq_ok.mp htargets
  obtain ⟨⟨⟩, s₃, hswift, hnames⟩ := runOn_bind_eq_ok.mp hrest
  obtain ⟨⟨⟩, s₄, htable, htype⟩ := runOn_bind_eq_ok.mp hnames
  exact {
    stringsDirectory := ne_empty_of_checkOutputDirectory hstrings
    swiftDirectory := ne_empty_of_checkOutputDirectory hswift
    tableName := not_mem_of_checkTableName (congrArg Prod.fst htable)
    typeName := not_mem_of_checkTypeName (congrArg Prod.fst htype) }

end

/-! ## Files of a catalog -/

namespace GenerateOptions

variable {o : GenerateOptions} {c : ResolvedCatalog} {t t' : FileTree}

/-- The output of a table. -/
def tableOutput (o : GenerateOptions) (table : StringsTable) : Output :=
  ⟨o.naming.tablePath o.stringsDirectory table.language, table.render⟩

def moduleOutput (o : GenerateOptions) (c : ResolvedCatalog) : Output :=
  ⟨o.naming.modulePath o.swiftDirectory, (c.accessorModule o.naming).render⟩

theorem outputs_eq (o : GenerateOptions) (c : ResolvedCatalog) :
    o.outputs c = c.tables.map o.tableOutput ++ [o.moduleOutput c] :=
  c.outputs_eq o.naming o.stringsDirectory o.swiftDirectory

theorem Fits.goesDown_tableOutput (h : o.Fits) {table : StringsTable}
    (hcode : Language.isCode table.language) :
    Path.GoesDown o.stringsDirectory (o.tableOutput table).path
      (Language.directorySteps table.language ++ [o.naming.tableName ++ ".strings"]) :=
  Naming.goesDown_tablePath hcode h.tableName

theorem Fits.goesDown_moduleOutput (h : o.Fits) (c : ResolvedCatalog) :
    Path.GoesDown o.swiftDirectory (o.moduleOutput c).path [o.naming.typeName ++ ".swift"] :=
  Naming.goesDown_modulePath h.typeName

theorem Fits.placeOf_moduleOutput_ne (h : o.Fits) {table : StringsTable}
    (hcode : Language.isCode table.language) :
    t.placeOf (o.moduleOutput c).path ≠ t.placeOf (o.tableOutput table).path := by
  intro hplace
  rw [(h.goesDown_tableOutput hcode).placeOf_eq, (h.goesDown_moduleOutput c).placeOf_eq,
    ← List.append_assoc] at hplace
  have hname := (List.append_inj' hplace rfl).2
  have hlast := congrArg (fun names => names.map fun name => name.toList.getLast?) hname
  simp at hlast

theorem Fits.placeOf_tableOutput_eq_iff (h : o.Fits) {table other : StringsTable}
    (hcode : Language.isCode table.language) (hother : Language.isCode other.language) :
    t.placeOf (o.tableOutput other).path = t.placeOf (o.tableOutput table).path ↔
      Language.directorySteps other.language = Language.directorySteps table.language := by
  rw [(h.goesDown_tableOutput hcode).placeOf_eq, (h.goesDown_tableOutput hother).placeOf_eq,
    List.append_cancel_left_eq, List.append_cancel_right_eq]

/-- What a run that writes makes of a tree. -/
structure Wrote (o : GenerateOptions) (c : ResolvedCatalog) (t t' : FileTree) : Prop where
  prepare_eq : runOn o.prepare t = (.ok c, t)
  fits : o.Fits
  holds : t.Holds t' (o.outputs c)
  languages_eq : c.tables.map (·.language) = c.languages
  codes : ∀ table ∈ c.tables, Language.isCode table.language
  nodup : (c.tables.map (·.language)).Nodup

theorem wrote_of_generate {text : String} (hcheck : o.check = false)
    (hrun : runOn o.generate t = (.ok text, t')) : ∃ c, o.Wrote c t t' := by
  obtain ⟨c, t₁, hprepare, hwrite, -⟩ := outputs_of_generate_eq_ok hcheck hrun
  obtain rfl := (prepare_inspects o).eq_of_runOn hprepare
  obtain ⟨catalog, hresolve⟩ := exists_catalog_of_prepare hprepare
  have hfrom := Catalog.comesFrom_of_resolve hresolve
  have hlanguages := hfrom.tables_languages
  refine ⟨c, hprepare, fits_of_prepare hprepare, FileTree.holds_of_writeOutputs hwrite,
    hlanguages.trans hfrom.languages_eq.symm, fun table htable => ?_, ?_⟩
  · apply Catalog.isCode_of_resolve hresolve
    rw [← hlanguages]
    exact List.mem_map_of_mem htable
  · rw [hlanguages]
    exact (Catalog.languages_of_resolve hresolve).2

namespace Wrote

theorem read_modulePath (h : o.Wrote c t t') : t'.read (o.naming.modulePath o.swiftDirectory) =
    .ok (c.accessorModule o.naming).render.toUTF8 := by
  have hholds := h.holds
  rw [outputs_eq] at hholds
  exact hholds.read_eq_of_last (by simp)

/-- A table is kept exactly if no table after it goes to the same directory. -/
theorem read_tableOutput_iff (h : o.Wrote c t t') {before after : List StringsTable}
    {table : StringsTable} (htables : c.tables = before ++ table :: after) :
    t'.read (o.tableOutput table).path = .ok table.render.toUTF8 ↔
      ∀ later ∈ after,
        Language.directorySteps later.language ≠ Language.directorySteps table.language := by
  have hcodes := h.codes
  have hnodup := h.nodup
  have hholds := h.holds
  have houtputs : o.outputs c = before.map o.tableOutput ++
      o.tableOutput table :: (after.map o.tableOutput ++ [o.moduleOutput c]) := by
    rw [outputs_eq, htables]
    simp
  rw [htables] at hcodes hnodup
  rw [houtputs] at hholds
  have htable := hcodes table (by simp)
  have hcode : ∀ later ∈ after, Language.isCode later.language :=
    fun later hlater => hcodes later (by simp [hlater])
  have hne : ∀ later ∈ after, later.language ≠ table.language := by
    rw [List.map_append, List.map_cons] at hnodup
    have hfirst := (List.nodup_cons.mp (List.nodup_append.mp hnodup).2.1).1
    exact fun later hlater heq => hfirst (heq ▸ List.mem_map_of_mem hlater)
  constructor
  · intro hread later hlater hsteps
    obtain ⟨written, hwritten, hplace, hread'⟩ := hholds.read_eq_of_later
      ⟨o.tableOutput later, by simpa using .inl ⟨later, hlater, rfl⟩,
        (h.fits.placeOf_tableOutput_eq_iff htable (hcode later hlater)).mpr hsteps⟩
    rw [List.mem_append, List.mem_map, List.mem_singleton] at hwritten
    rcases hwritten with ⟨other, hother, rfl⟩ | rfl
    · have hsame := (h.fits.placeOf_tableOutput_eq_iff htable (hcode other hother)).mp hplace
      rw [hread] at hread'
      have hrender := String.toByteArray_inj.mp (Except.ok.inj hread')
      have hlanguage := StringsTable.language_eq_of_render_eq hrender
        (Language.filter_eq_of_directorySteps_eq hsame.symm)
      exact hne other hother hlanguage.symm
    · exact h.fits.placeOf_moduleOutput_ne htable hplace
  · intro hsteps
    apply hholds.read_eq_of_last
    intro later hlater
    rw [List.mem_append, List.mem_map, List.mem_singleton] at hlater
    rcases hlater with ⟨other, hother, rfl⟩ | rfl
    · rw [Ne, h.fits.placeOf_tableOutput_eq_iff htable (hcode other hother)]
      exact hsteps other hother
    · exact h.fits.placeOf_moduleOutput_ne htable

theorem read_tablePath_iff (h : o.Wrote c t t') {before after : List String} {language : String}
    (hsplit : c.languages = before ++ language :: after) : ∃ table,
      c.table? language = some table ∧
      (t'.read (o.naming.tablePath o.stringsDirectory language) = .ok table.render.toUTF8 ↔
        ∀ later ∈ after, Language.directorySteps later ≠ Language.directorySteps language) := by
  rw [← h.languages_eq] at hsplit
  obtain ⟨tables, rest, htables, rfl, hrest⟩ := List.map_eq_append_iff.mp hsplit
  obtain ⟨table, later, rfl, rfl, rfl⟩ := List.map_eq_cons_iff.mp hrest
  obtain ⟨found, -, hfound⟩ := List.mem_filterMap.mp (htables ▸ by simp : table ∈ c.tables)
  obtain ⟨-, rfl, -⟩ := ResolvedCatalog.table?_eq_some_iff.mp hfound
  refine ⟨table, hfound, ?_⟩
  rw [List.forall_mem_map]
  exact h.read_tableOutput_iff htables

end Wrote

/-- After a run that writes, the Swift file is what it should be, and so is the
table of a language exactly if no language after it leads to the same
directory. -/
theorem generate_files {text : String} (hcheck : o.check = false)
    (hrun : runOn o.generate t = (.ok text, t')) : ∃ c, runOn o.prepare t = (.ok c, t) ∧
      t'.read (o.naming.modulePath o.swiftDirectory) =
        .ok (c.accessorModule o.naming).render.toUTF8 ∧
      ∀ before language after, c.languages = before ++ language :: after →
        ∃ table, c.table? language = some table ∧
          (t'.read (o.naming.tablePath o.stringsDirectory language) = .ok table.render.toUTF8 ↔
            ∀ later ∈ after,
              Language.directorySteps later ≠ Language.directorySteps language) := by
  obtain ⟨c, hwrote⟩ := wrote_of_generate hcheck hrun
  exact ⟨c, hwrote.prepare_eq, hwrote.read_modulePath,
    fun before language after hsplit => hwrote.read_tablePath_iff hsplit⟩

theorem exists_run_of_isOk (h : (runOn o.generate t).1.isOk) :
    ∃ text t', runOn o.generate t = (.ok text, t') := by
  rcases hrun : runOn o.generate t with ⟨e | text, t'⟩
  · rw [hrun] at h
    cases h
  · exact ⟨text, t', rfl⟩

theorem exists_prepared_of_isOk (h : (runOn o.prepare t).1.isOk) :
    ∃ c, runOn o.prepare t = (.ok c, t) := by
  rcases hprepare : runOn o.prepare t with ⟨e | c, t'⟩
  · rw [hprepare] at h
    cases h
  · obtain rfl := (prepare_inspects o).eq_of_runOn hprepare
    exact ⟨c, rfl⟩

theorem languages_of_prepare {languages : List String}
    (hprepare : runOn o.prepare t = (.ok c, t'))
    (h : (runOn o.prepare t).1.toOption.map (·.languages) = some languages) :
    c.languages = languages := by
  rw [hprepare] at h
  exact Option.some.inj h

end GenerateOptions

/-- A catalog without entries in two languages. -/
def FileTree.twoLanguages : FileTree where
  nodes := [(["langgen.json"],
    .file "\x7b\"languages\": [\"en\", \"de\"], \"items\": []\x7d".toUTF8)]
  working := []

/-- The tables of two codes without slashes are both there. -/
theorem FileTree.twoLanguages_generate_files : ∃ (text : String) (t' : FileTree)
    (c : ResolvedCatalog) (english german : StringsTable),
    runOn GenerateOptions.small.generate FileTree.twoLanguages = (.ok text, t') ∧
    c.table? "en" = some english ∧ c.table? "de" = some german ∧
    t'.read "./en.lproj/Localizable.strings" = .ok english.render.toUTF8 ∧
    t'.read "./de.lproj/Localizable.strings" = .ok german.render.toUTF8 := by
  obtain ⟨text, t', hrun⟩ := GenerateOptions.exists_run_of_isOk
    (o := .small) (t := FileTree.twoLanguages) (by decide +kernel)
  obtain ⟨c, hprepare, -, htables⟩ := GenerateOptions.generate_files rfl hrun
  have hlanguages : c.languages = ["en", "de"] :=
    GenerateOptions.languages_of_prepare hprepare (by decide +kernel)
  obtain ⟨english, henglish, hread⟩ := htables [] "en" ["de"] hlanguages
  obtain ⟨german, hgerman, hread'⟩ := htables ["en"] "de" [] hlanguages
  refine ⟨text, t', c, english, german, hrun, henglish, hgerman, hread.mpr ?_, hread'.mpr ?_⟩
  · intro later hlater
    rw [List.mem_singleton.mp hlater]
    exact Language.directorySteps_ne (by decide) (by decide) (by decide)
  · simp

/-- A catalog without entries in two languages with slashes in their codes. -/
def FileTree.slashedLanguages : FileTree where
  nodes := [(["langgen.json"],
    .file "\x7b\"languages\": [\"en-1/./\", \"en-1///\"], \"items\": []\x7d".toUTF8)]
  working := []

/-- Two codes can lead to one directory, and the table of the first is lost. -/
theorem FileTree.slashedLanguages_lose_a_table : ∃ (text : String) (t' : FileTree)
    (c : ResolvedCatalog) (table : StringsTable),
    runOn GenerateOptions.small.generate FileTree.slashedLanguages = (.ok text, t') ∧
    runOn GenerateOptions.small.prepare FileTree.slashedLanguages =
      (.ok c, FileTree.slashedLanguages) ∧
    "en-1/./" ∈ c.languages ∧ c.table? "en-1/./" = some table ∧
    t'.read (GenerateOptions.small.naming.tablePath "." "en-1/./") ≠ .ok table.render.toUTF8 := by
  obtain ⟨text, t', hrun⟩ := GenerateOptions.exists_run_of_isOk
    (o := .small) (t := FileTree.slashedLanguages) (by decide +kernel)
  obtain ⟨c, hwrote⟩ := GenerateOptions.wrote_of_generate rfl hrun
  have hlanguages : c.languages = [] ++ "en-1/./" :: ["en-1///"] :=
    GenerateOptions.languages_of_prepare hwrote.prepare_eq (by decide +kernel)
  obtain ⟨table, htable, hread⟩ := hwrote.read_tablePath_iff hlanguages
  refine ⟨text, t', c, table, hrun, hwrote.prepare_eq, by simp [hlanguages], htable, ?_⟩
  intro hkept
  exact hread.mp hkept "en-1///" (by simp) (by decide +kernel)

end Phrasebook
