-- Runs that are repeated. A run that wrote finds its directories and its outputs
-- in the tree that it left, and the catalog too unless an output has its place. So
-- the same run does and says the same once more, and changes nothing.
import Phrasebook.Proofs.CatalogPaths
import Phrasebook.Proofs.UpToDateRuns

namespace Phrasebook

open CommandM

open Validation (bind_eq_ok_iff mapError_eq_ok_iff)

/-! ## Trees that look the same -/

/-- A command that gives the same in two trees and leaves both as they are. -/
def CommandM.Agrees {α : Type} (command : CommandM (StateM FileTree) α) (t t' : FileTree) : Prop :=
  ∃ result, command.runOn t = (result, t) ∧ command.runOn t' = (result, t')

namespace CommandM.Agrees

variable {α β ε : Type} {t t' : FileTree}

theorem bind {command : CommandM (StateM FileTree) α} {next : α → CommandM (StateM FileTree) β}
    (h : command.Agrees t t') (hnext : ∀ a, (next a).Agrees t t') :
    (command >>= next).Agrees t t' := by
  obtain ⟨result, ht, ht'⟩ := h
  cases result with
  | error e =>
    refine ⟨.error e, ?_, ?_⟩
    · rw [runOn_bind, ht]
    · rw [runOn_bind, ht']
  | ok a =>
    obtain ⟨result, ha, ha'⟩ := hnext a
    refine ⟨result, ?_, ?_⟩
    · rw [runOn_bind, ht]
      exact ha
    · rw [runOn_bind, ht']
      exact ha'

theorem pure (a : α) : (Pure.pure a : CommandM (StateM FileTree) α).Agrees t t' :=
  ⟨.ok a, rfl, rfl⟩

theorem throw (e : CommandError) :
    (MonadExcept.throw e : CommandM (StateM FileTree) α).Agrees t t' :=
  ⟨.error e, rfl, rfl⟩

theorem check (result : Except CommandError α) :
    (CommandM.check result : CommandM (StateM FileTree) α).Agrees t t' :=
  ⟨result, rfl, rfl⟩

theorem perform {action : StateM FileTree (Except ε α)} {found : Except ε α}
    (h : actOn action t = (found, t)) (h' : actOn action t' = (found, t'))
    (meaning : ε → CommandError) : (CommandM.perform action meaning).Agrees t t' := by
  refine ⟨found.mapError meaning, ?_, ?_⟩
  · rw [runOn_perform, h]
  · rw [runOn_perform, h']

end CommandM.Agrees

section

variable {t t' : FileTree} {path : String}

theorem checkCatalogPath_agrees (hkind : t'.kind? path = t.kind? path) :
    (checkCatalogPath path : CommandM (StateM FileTree) Unit).Agrees t t' := by
  unfold checkCatalogPath
  refine Agrees.bind ⟨.ok (t.kind? path), rfl, ?_⟩ fun kind => ?_
  · rw [← hkind]
    rfl
  · split
    · exact Agrees.throw _
    · exact Agrees.pure ()
    · exact Agrees.throw _

/-- A catalog is read alike where its file is the same. -/
theorem CatalogSource.load_agrees {source : CatalogSource}
    (hkind : t'.kind? source.path = t.kind? source.path)
    (hread : t'.read source.path = t.read source.path) :
    (source.load : CommandM (StateM FileTree) Catalog).Agrees t t' := by
  unfold load
  refine Agrees.bind (checkCatalogPath_agrees hkind) fun _ => ?_
  refine Agrees.bind (Agrees.check _) fun format => ?_
  have hread' : readAt t' source.path = readAt t source.path := hread
  refine Agrees.perform (readFrom_run source.path format t) ?_ _
  rw [readFrom_run, hread']

end

/-! ## Directories that outputs go to -/

/-- What a path goes down to is found in a directory. -/
theorem Path.GoesDown.kind?_eq {t : FileTree} {directory path : String} {names : List String}
    {place : Place} (h : GoesDown directory path names) (hnames : names ≠ [])
    (hdirectory : directory ≠ "") (hlocate : t.locate path = .ok place) :
    t.kind? directory = some .directory := by
  obtain ⟨relative, hrelative, rfl, rfl⟩ := h.join_eq
  obtain ⟨⟨⟩, hcheck, hwalk⟩ := bind_eq_ok_iff.mp hlocate
  rw [rawSteps_join hrelative, FileTree.origin, isAbsolute_join hrelative, List.append_assoc]
    at hwalk
  -- The walk comes by the place of the directory, and has a step to take from there.
  obtain ⟨above, habove, hrest⟩ := FileTree.walk_append_eq_ok.mp hwalk
  have hsteps : rawSteps relative ≠ [] :=
    fun hraw => hnames (by rw [steps, hraw])
  obtain ⟨first, rest, hfirst⟩ := List.exists_cons_of_ne_nil hsteps
  rw [hfirst, List.cons_append] at hrest
  have hnode := FileTree.directory_of_walk_cons hrest
  have hpart := FileTree.checkPath_of_sublist hcheck (sublist_join hrelative) hdirectory
  rw [FileTree.kind?_of_locate (FileTree.locate_of_walk hpart habove hnode), hnode]
  rfl

section

variable {t t' : FileTree} {path : String} {source : CatalogSource} {catalog : Catalog}

theorem checkOutputDirectory_agrees (h : runOn (checkOutputDirectory path) t = (.ok (), t))
    (hkind : t'.kind? path = some .directory) :
    (checkOutputDirectory path : CommandM (StateM FileTree) Unit).Agrees t t' := by
  refine ⟨.ok (), h, ?_⟩
  unfold checkOutputDirectory at h ⊢
  split at h
  · cases h
  · rename_i hblank
    have hlook : actOn (FileStore.kind? path) t' = (some .directory, t') := by
      rw [← hkind]
      rfl
    rw [if_neg hblank, runOn_bind, runOn_lift, hlook]
    rfl

/-- A catalog that was loaded was read from a file, in a format that follows from
the extension if none is given. -/
theorem exists_read_of_load (h : runOn source.load t = (.ok catalog, t')) :
    (∃ content, t.read source.path = .ok content) ∧
      (source.format = none → ∃ format, Format.ofPath source.path = .ok format) := by
  obtain ⟨⟨⟩, s₁, hpath, hrest⟩ := runOn_bind_eq_ok.mp h
  obtain ⟨given, s₂, hgiven, hread⟩ := runOn_bind_eq_ok.mp hrest
  obtain rfl := (checkCatalogPath_inspects source.path).eq_of_runOn hpath
  obtain ⟨hgiven, rfl⟩ := Prod.ext_iff.mp hgiven
  rw [runOn_perform, readFrom_run] at hread
  obtain ⟨format, hformat, hbytes⟩ :=
    bind_eq_ok_iff.mp (mapError_eq_ok_iff.mp (congrArg Prod.fst hread))
  obtain ⟨content, hcontent, -⟩ := bind_eq_ok_iff.mp hbytes
  refine ⟨⟨content, mapError_eq_ok_iff.mp hcontent⟩, fun hnone => ⟨format, ?_⟩⟩
  have hgiven' : source.format.mapM Settings.format = .ok given := hgiven
  rw [hnone] at hgiven'
  cases hgiven'
  exact hformat

end

namespace GenerateOptions

variable {o : GenerateOptions} {c : ResolvedCatalog} {t t' : FileTree} {text : String}

/-- The parts of a preparation that succeeds. -/
theorem parts_of_prepare (h : runOn o.prepare t = (.ok c, t)) :
    runOn (checkOutputDirectory o.stringsDirectory) t = (.ok (), t) ∧
      runOn (checkOutputDirectory o.swiftDirectory) t = (.ok (), t) ∧
      ∃ catalog, runOn o.source.load t = (.ok catalog, t) := by
  obtain ⟨⟨⟩, t₁, htargets, hsource⟩ := runOn_bind_eq_ok.mp h
  obtain rfl := o.checkTargets_inspects.eq_of_runOn htargets
  obtain ⟨⟨⟩, t₂, hstrings, hrest⟩ := runOn_bind_eq_ok.mp htargets
  obtain rfl := (checkOutputDirectory_inspects o.stringsDirectory).eq_of_runOn hstrings
  obtain ⟨⟨⟩, t₃, hswift, -⟩ := runOn_bind_eq_ok.mp hrest
  obtain rfl := (checkOutputDirectory_inspects o.swiftDirectory).eq_of_runOn hswift
  obtain ⟨catalog, t₄, hload, -⟩ := runOn_bind_eq_ok.mp hsource
  obtain rfl := o.source.load_inspects.eq_of_runOn hload
  exact ⟨hstrings, hswift, catalog, hload⟩

namespace Wrote

theorem exists_table (h : o.Wrote c t t') : ∃ table, table ∈ c.tables := by
  obtain ⟨catalog, hresolve⟩ := exists_catalog_of_prepare h.prepare_eq
  have hlanguages := (Catalog.comesFrom_of_resolve hresolve).languages_eq
  have hsome : c.tables ≠ [] := by
    intro htables
    have hnone := h.languages_eq
    rw [htables, hlanguages] at hnone
    exact (Catalog.languages_of_resolve hresolve).1 hnone.symm
  exact List.exists_mem_of_ne_nil _ hsome

theorem kind?_stringsDirectory (h : o.Wrote c t t') :
    t'.kind? o.stringsDirectory = some .directory := by
  obtain ⟨table, htable⟩ := h.exists_table
  have houtput : o.tableOutput table ∈ o.outputs c := by
    rw [outputs_eq]
    exact List.mem_append_left _ (List.mem_map_of_mem htable)
  have hdown := h.fits.goesDown_tableOutput (h.codes table htable)
  exact hdown.kind?_eq (by simp) h.fits.stringsDirectory (h.holds.locate_eq _ houtput)

theorem kind?_swiftDirectory (h : o.Wrote c t t') :
    t'.kind? o.swiftDirectory = some .directory := by
  have houtput : o.moduleOutput c ∈ o.outputs c := by simp [outputs_eq]
  have hdown := h.fits.goesDown_moduleOutput c
  exact hdown.kind?_eq (by simp) h.fits.swiftDirectory (h.holds.locate_eq _ houtput)

theorem checkTargets_agrees (h : o.Wrote c t t') :
    (o.checkTargets : CommandM (StateM FileTree) Unit).Agrees t t' := by
  obtain ⟨hstrings, hswift, -⟩ := parts_of_prepare h.prepare_eq
  unfold checkTargets
  refine Agrees.bind (checkOutputDirectory_agrees hstrings h.kind?_stringsDirectory) fun _ => ?_
  refine Agrees.bind (checkOutputDirectory_agrees hswift h.kind?_swiftDirectory) fun _ => ?_
  exact Agrees.bind (Agrees.check _) fun _ => Agrees.check _

/-- A catalog that is spared is read again as it was. -/
theorem load_agrees (h : o.Wrote c t t') (hspares : o.SparesCatalog c t) :
    (o.source.load : CommandM (StateM FileTree) Catalog).Agrees t t' := by
  obtain ⟨-, -, catalog, hload⟩ := parts_of_prepare h.prepare_eq
  obtain ⟨⟨content, hread⟩, -⟩ := exists_read_of_load hload
  obtain ⟨hlocate, hfile⟩ := FileTree.locate_of_read hread
  have hread' : t'.read o.source.path = .ok content := by
    apply FileTree.read_eq_ok (h.holds.keeps.locate hlocate)
    rw [h.holds.file?_eq, FileTree.lastText?_eq_none_iff.mpr hspares, hfile]
    rfl
  apply CatalogSource.load_agrees
  · rw [FileTree.kind?_of_read hread, FileTree.kind?_of_read hread']
  · rw [hread, hread']

theorem prepare_again (h : o.Wrote c t t') (hspares : o.SparesCatalog c t) :
    runOn o.prepare t' = (.ok c, t') := by
  have hagrees := h.checkTargets_agrees.bind fun _ => (h.load_agrees hspares).bind fun catalog =>
    Agrees.check (catalog.prepare.mapError .refusedCatalog)
  obtain ⟨result, ht, ht'⟩ := hagrees
  have hresult := h.prepare_eq.symm.trans ht
  cases hresult
  exact ht'

end Wrote

/-- After a run that writes, the same run succeeds with the same report and changes
nothing, unless an output was written over the catalog. None is if the format of
the catalog follows from its extension. -/
theorem generate_repeats (hcheck : o.check = false)
    (hrun : runOn o.generate t = (.ok text, t')) : ∃ c, runOn o.prepare t = (.ok c, t) ∧
      (o.SparesCatalog c t → runOn o.generate t' = (.ok text, t')) ∧
      (o.source.format = none → o.SparesCatalog c t) := by
  obtain ⟨c, hwrote⟩ := wrote_of_generate hcheck hrun
  obtain ⟨found, s₁, hprepare, -, rfl⟩ := outputs_of_generate_eq_ok hcheck hrun
  have hfound := hwrote.prepare_eq.symm.trans hprepare
  cases hfound
  refine ⟨c, hwrote.prepare_eq, fun hspares => ?_, fun hformat => ?_⟩
  · exact generate_of_holds hcheck (hwrote.prepare_again hspares) hwrote.holds
  · obtain ⟨-, -, catalog, hload⟩ := parts_of_prepare hwrote.prepare_eq
    obtain ⟨-, hnamed⟩ := exists_read_of_load hload
    obtain ⟨format, hpath⟩ := hnamed hformat
    exact hwrote.fits.sparesCatalog hwrote.codes hpath t

end GenerateOptions

/-- A run with the small catalog does the same when it is repeated. -/
theorem FileTree.twoLanguages_generate_repeats : ∃ text t',
    runOn GenerateOptions.small.generate FileTree.twoLanguages = (.ok text, t') ∧
    runOn GenerateOptions.small.generate t' = (.ok text, t') := by
  obtain ⟨text, t', hrun⟩ := GenerateOptions.exists_run_of_isOk
    (o := .small) (t := FileTree.twoLanguages) (by decide +kernel)
  obtain ⟨c, -, hagain, hspares⟩ := GenerateOptions.generate_repeats rfl hrun
  exact ⟨text, t', hrun, hagain (hspares rfl)⟩

/-- A catalog in the place of the Swift file. -/
def FileTree.misplaced : FileTree where
  nodes := [(["Localization.swift"], .file "\x7b\"languages\": [\"en\"], \"items\": []\x7d".toUTF8)]
  working := []

def GenerateOptions.misplaced : GenerateOptions :=
  { source := { path := "Localization.swift", format := some "json" } }

/-- Given the format, a run writes over that catalog, and cannot be repeated. -/
theorem FileTree.misplaced_generate_fails_again : ∃ text t' e,
    runOn GenerateOptions.misplaced.generate FileTree.misplaced = (.ok text, t') ∧
    (runOn GenerateOptions.misplaced.generate t').1 = .error e := by
  obtain ⟨text, t', hrun⟩ := GenerateOptions.exists_run_of_isOk
    (o := .misplaced) (t := FileTree.misplaced) (by decide +kernel)
  have hagain : (runOn GenerateOptions.misplaced.generate
      (runOn GenerateOptions.misplaced.generate FileTree.misplaced).2).1.isOk = false := by
    decide +kernel
  rw [hrun] at hagain
  cases hresult : (runOn GenerateOptions.misplaced.generate t').1 with
  | error e => exact ⟨text, t', e, hrun, hresult⟩
  | ok other =>
    rw [hresult] at hagain
    cases hagain

end Phrasebook
