-- Runs on files that are up to date. Outputs that are put over what they have put
-- there before change nothing, so where a run that compares finds nothing to do,
-- a run that writes does nothing.
import Phrasebook.Proofs.Comparison
import Phrasebook.Proofs.Overwriting

namespace Phrasebook

open CommandM

namespace FileTree

variable {t t' : FileTree} {place : Place} {path : String} {node : FileNode}
  {outputs : List Output}

/-! ## Outputs put over files -/

/-- The outputs put at their places, one after the other. -/
def putOutputs (t : FileTree) : List Output → FileTree
  | [] => t
  | o :: rest => putOutputs (t.set (t.placeOf o.path) (.file o.text.toUTF8)) rest

/-- What is put at a place does not matter if an output is put there later. -/
theorem putOutputs_set (h : (t.file? place).isSome)
    (hlater : ∃ o ∈ outputs, t.placeOf o.path = place) :
    (t.set place node).putOutputs outputs = t.putOutputs outputs := by
  induction outputs generalizing t with
  | nil => simp at hlater
  | cons o outputs ih =>
    unfold putOutputs
    show ((t.set place node).set (t.placeOf o.path) _).putOutputs outputs = _
    by_cases hplace : place = t.placeOf o.path
    · rw [← hplace, set_set]
    · rw [set_comm hplace h]
      have hrest : ∃ later ∈ outputs, t.placeOf later.path = place := by
        simpa [Ne.symm hplace] using hlater
      exact ih (file?_set_isSome h) hrest

theorem exists_lastText? {o : Output} (ho : o ∈ outputs) :
    ∃ text, t.lastText? outputs (t.placeOf o.path) = some text :=
  Option.ne_none_iff_exists'.mp fun hnone => lastText?_eq_none_iff.mp hnone o ho rfl

/-- Outputs that are put over what they have put there before change nothing. -/
theorem putOutputs_self (h : ∀ place text, t.lastText? outputs place = some text →
    t.file? place = some text.toUTF8) : t.putOutputs outputs = t := by
  induction outputs with
  | nil => rfl
  | cons o outputs ih =>
    have hself := ih fun place text hlast => h place text (by rw [lastText?_cons, hlast]; rfl)
    unfold putOutputs
    -- The first output matters only if no later one has its place.
    by_cases hlater : ∃ later ∈ outputs, t.placeOf later.path = t.placeOf o.path
    · obtain ⟨text, htext⟩ := exists_lastText? (t := t) (List.mem_cons_self (a := o) (l := outputs))
      have hfile := Option.isSome_of_eq_some (h _ _ htext)
      rw [putOutputs_set hfile hlater, hself]
    · have hlast : t.lastText? (o :: outputs) (t.placeOf o.path) = some o.text := by
        rw [lastText?_cons, lastText?_eq_none_iff.mpr (by simpa using hlater), if_pos rfl]
        rfl
      rw [set_self (h _ _ hlast), hself]

/-! ## Writing over files -/

/-- A path that ends in a name and leads to a file. -/
structure HasFile (t : FileTree) (path : String) : Prop where
  endsInName : Path.EndsInName path
  locate_eq : t.locate path = .ok (t.placeOf path)
  file?_isSome : (t.file? (t.placeOf path)).isSome

theorem HasFile.set {content : ByteArray} (h : t.HasFile path)
    (hfile : (t.file? place).isSome) : (t.set place (.file content)).HasFile path where
  endsInName := h.endsInName
  locate_eq :=
    (keepsDirectories_set (ne_nil_of_file? hfile) (no_directory_of_file? hfile) _).locate h.locate_eq
  file?_isSome := file?_set_isSome h.file?_isSome

theorem writeOutputs_over (h : ∀ o ∈ outputs, t.HasFile o.path) :
    runOn (writeOutputs outputs) t = (.ok (), t.putOutputs outputs) := by
  induction outputs generalizing t with
  | nil => rfl
  | cons o outputs ih =>
    obtain ⟨ho, hrest⟩ := List.forall_mem_cons.mp h
    rw [writeOutputs_cons_run, writeText_over ho.endsInName ho.locate_eq ho.file?_isSome]
    exact ih fun other hother => (hrest other hother).set ho.file?_isSome

/-- Outputs that were written can be written again, and change nothing. -/
theorem Holds.writeOutputs_again (h : t.Holds t' outputs)
    (hname : ∀ o ∈ outputs, Path.EndsInName o.path) :
    runOn (writeOutputs outputs) t' = (.ok (), t') := by
  have hfile : ∀ place text, t'.lastText? outputs place = some text →
      t'.file? place = some text.toUTF8 := by
    intro place text hlast
    rw [h.file?_eq, ← h.keeps.lastText?_eq, hlast]
    rfl
  have hasFile : ∀ o ∈ outputs, t'.HasFile o.path := by
    intro o ho
    obtain ⟨text, htext⟩ := exists_lastText? (t := t') ho
    refine ⟨hname o ho, ?_, Option.isSome_of_eq_some (hfile _ _ htext)⟩
    rw [h.locate_eq o ho, h.keeps.placeOf_eq]
  rw [writeOutputs_over hasFile, putOutputs_self hfile]

/-- Files that hold the outputs are as if they had been written just now. -/
theorem holds_of_isHeld (h : ∀ o ∈ outputs, o.IsHeld t) : t.Holds t outputs where
  keeps := (AddsDirectories.refl t).keeps
  file?_eq place := by
    cases hlast : t.lastText? outputs place with
    | none => rfl
    | some text =>
      obtain ⟨o, ho, rfl, rfl⟩ := exists_of_lastText?_eq_some hlast
      rw [(locate_of_read (h o ho)).2]
      rfl
  locate_eq o ho := (locate_of_read (h o ho)).1

end FileTree

/-! ## Outputs of a run -/

namespace Path

theorem endsInName_join {directory name ending : String} (hname : '/' ∉ name.toList)
    (hending : '/' ∉ ending.toList) (hlong : 2 < ending.length) :
    EndsInName (join directory (name ++ ending)) := by
  have hslash : '/' ∉ (name ++ ending).toList := by simp [hname, hending]
  obtain ⟨hempty, hdot, hup⟩ := name_append_ne name hlong
  refine ⟨rawSteps directory, name ++ ending, ?_, hdot, hup⟩
  rw [rawSteps_join (isAbsolute_of_not_mem hslash), rawSteps_name hslash hempty]

end Path

namespace GenerateOptions

variable {o : GenerateOptions} {c : ResolvedCatalog} {t t' : FileTree} {text : String}

theorem Fits.endsInName (h : o.Fits) : ∀ output ∈ o.outputs c, Path.EndsInName output.path := by
  intro output houtput
  rw [outputs_eq, List.mem_append, List.mem_map, List.mem_singleton] at houtput
  obtain ⟨table, -, rfl⟩ | rfl := houtput
  · exact Path.endsInName_join h.tableName (by decide) (by decide)
  · exact Path.endsInName_join h.typeName (by decide) (by decide)

/-- A run that writes finds what it wrote before, and changes nothing. -/
theorem generate_of_holds (hcheck : o.check = false)
    (hprepare : runOn o.prepare t' = (.ok c, t')) (h : t.Holds t' (o.outputs c)) :
    runOn o.generate t' = (.ok (o.report c), t') := by
  have hwrite := h.writeOutputs_again (fits_of_prepare hprepare).endsInName
  rw [generate_of_write hcheck, runOn_bind, hprepare]
  dsimp only
  rw [runOn_bind, hwrite]
  rfl

/-- If a run that compares succeeds, the same run that writes succeeds too, and
leaves every file and directory as it is. -/
theorem generate_of_upToDate (hcheck : o.check = true) (hrun : runOn o.generate t = (.ok text, t')) :
    t' = t ∧ ∃ c, runOn o.prepare t = (.ok c, t) ∧
      runOn { o with check := false }.generate t = (.ok (o.report c), t) := by
  obtain rfl := (generate_inspects hcheck).eq_of_runOn hrun
  have hrest := hrun
  rw [generate_of_check hcheck] at hrest
  obtain ⟨c, t₁, hprepare, -⟩ := runOn_bind_eq_ok.mp hrest
  obtain rfl := (prepare_inspects o).eq_of_runOn hprepare
  rw [generate_eq_compare hcheck hprepare] at hrun
  have hholds := FileTree.holds_of_isHeld (compare_eq_ok.mp ⟨text, hrun⟩)
  exact ⟨rfl, c, hprepare, generate_of_holds (o := { o with check := false }) rfl hprepare hholds⟩

end GenerateOptions

/-- What a run with the small catalog leaves. -/
def FileTree.written : FileTree := (runOn GenerateOptions.small.generate FileTree.twoLanguages).2

/-- The outputs are found there, and may be written again. -/
theorem FileTree.written_generate_of_upToDate :
    (∃ text, runOn GenerateOptions.smallCheck.generate FileTree.written =
      (.ok text, FileTree.written)) ∧
    ∃ text, runOn GenerateOptions.small.generate FileTree.written = (.ok text, FileTree.written) := by
  obtain ⟨text, t', hrun⟩ := GenerateOptions.exists_run_of_isOk
    (o := .smallCheck) (t := FileTree.written) (by decide +kernel)
  obtain ⟨hsame, c, -, hwrite⟩ := GenerateOptions.generate_of_upToDate rfl hrun
  rw [hsame] at hrun
  exact ⟨⟨text, hrun⟩, _, hwrite⟩

end Phrasebook
