-- The places of catalogs and of outputs. The last name of a path is that of its
-- place, and where its extension names a format no output has that name.
import Phrasebook.Proofs.OutputFiles

namespace Phrasebook

open CommandM

/-! ## Last names -/

namespace FileTree

variable {t : FileTree} {path name : String}

/-- Steps that stay where they are lead nowhere. -/
theorem follow_filter (place : Place) (steps : List String) :
    follow place (steps.filter (· ≠ ".")) = follow place steps := by
  induction steps generalizing place with
  | nil => rfl
  | cons step steps ih =>
    by_cases hdot : step = "."
    · rw [List.filter_cons_of_neg (by simp [hdot]), ih, follow, if_pos hdot]
    · rw [List.filter_cons_of_pos (by simp [hdot]), follow, follow]
      simp only [ih]

theorem follow_steps (place : Place) (path : String) :
    follow place (Path.steps path) = follow place (Path.rawSteps path) := by
  cases hraw : Path.rawSteps path with
  | nil =>
    rw [Path.steps, hraw]
  | cons first rest =>
    show _ = follow place ([first] ++ rest)
    rw [Path.steps_of_rawSteps_cons hraw, follow_append, follow_filter, follow_append]
    split
    · rename_i hroot
      rw [hroot.1]
      rfl
    · rfl

/-- A path that ends in a name leads to something with that name. -/
theorem getLast?_placeOf (h : (Path.steps path).getLast? = some name) (hdot : name ≠ ".")
    (hup : name ≠ "..") : (t.placeOf path).getLast? = some name := by
  obtain ⟨names, hsteps⟩ := List.getLast?_eq_some_iff.mp h
  rw [placeOf, ← follow_steps, hsteps, follow_append, follow, if_neg hdot, if_neg hup, follow,
    List.getLast?_concat]

end FileTree

/-! ## Extensions -/

namespace Path

variable {path name ending extension found : String}

/-- The extension of a name with an ending is that of the ending, or there is none. -/
theorem nameExtension?_append (hending : ending.toList = '.' :: extension.toList)
    (hdot : '.' ∉ extension.toList) (h : nameExtension? (name ++ ending) = some found) :
    found = extension := by
  have hparts : (name ++ ending).toList.splitOn '.' =
      name.toList.splitOn '.' ++ [extension.toList] := by
    rw [String.toList_append, hending, List.splitOn_append_cons_self,
      List.splitOn_eq_singleton hdot]
  unfold nameExtension? at h
  rw [hparts] at h
  dsimp only at h
  split at h
  · cases h
  · cases h
  · simpa using h.symm

theorem exists_name_of_extension? (h : extension? path = some found) :
    ∃ name, (steps path).getLast? = some name ∧ name ≠ "." ∧ name ≠ ".." ∧
      nameExtension? name = some found := by
  unfold extension? at h
  split at h
  · cases h
  · rename_i name hlast
    split at h
    · cases h
    · rename_i hdots
      rw [not_or] at hdots
      exact ⟨name, hlast, hdots.1, hdots.2, h⟩

end Path

/-! ## Catalogs with an extension -/

theorem Format.exists_name_of_ofPath {path : String} {format : Format}
    (h : Format.ofPath path = .ok format) (t : FileTree) :
    ∃ name extension, (t.placeOf path).getLast? = some name ∧
      Path.nameExtension? name = some extension ∧ Format.ofName? extension = some format := by
  unfold Format.ofPath at h
  split at h
  · rename_i hformat
    cases h
    obtain ⟨extension, hextension, hname⟩ := Option.bind_eq_some_iff.mp hformat
    obtain ⟨name, hlast, hdot, hup, hfound⟩ := Path.exists_name_of_extension? hextension
    exact ⟨name, extension, FileTree.getLast?_placeOf hlast hdot hup, hfound, hname⟩
  · cases h

/-- Where the extension of a catalog tells its format, a name with another extension
leads elsewhere. -/
theorem Format.placeOf_ne {t : FileTree} {catalog path directory name ending extension : String}
    {names : List String} {format : Format} (h : Format.ofPath catalog = .ok format)
    (hdown : Path.GoesDown directory path (names ++ [name ++ ending]))
    (hending : ending.toList = '.' :: extension.toList) (hdot : '.' ∉ extension.toList)
    (hother : Format.ofName? extension = none) : t.placeOf path ≠ t.placeOf catalog := by
  intro hplace
  obtain ⟨last, found, hlast, hfound, hformat⟩ := exists_name_of_ofPath h t
  rw [← hplace, hdown.placeOf_eq, ← List.append_assoc, List.getLast?_concat] at hlast
  obtain rfl := Option.some.inj hlast
  obtain rfl := Path.nameExtension?_append hending hdot hfound
  rw [hother] at hformat
  cases hformat

namespace GenerateOptions

variable {o : GenerateOptions} {c : ResolvedCatalog} {t : FileTree}

/-- No output leads to where the catalog is. -/
def SparesCatalog (o : GenerateOptions) (c : ResolvedCatalog) (t : FileTree) : Prop :=
  ∀ output ∈ o.outputs c, t.placeOf output.path ≠ t.placeOf o.source.path

/-- A catalog with an extension that tells its format is never overwritten. -/
theorem Fits.sparesCatalog {format : Format} (h : o.Fits)
    (hcodes : ∀ table ∈ c.tables, Language.isCode table.language)
    (hformat : Format.ofPath o.source.path = .ok format) (t : FileTree) : o.SparesCatalog c t := by
  intro output houtput
  rw [outputs_eq, List.mem_append, List.mem_map, List.mem_singleton] at houtput
  obtain ⟨table, htable, rfl⟩ | rfl := houtput
  · have hdown := h.goesDown_tableOutput (hcodes table htable)
    have hending : ".strings".toList = '.' :: "strings".toList := by decide
    exact Format.placeOf_ne hformat hdown hending (by decide) (by decide)
  · have hdown : Path.GoesDown o.swiftDirectory (o.moduleOutput c).path
        ([] ++ [o.naming.typeName ++ ".swift"]) := h.goesDown_moduleOutput c
    have hending : ".swift".toList = '.' :: "swift".toList := by decide
    exact Format.placeOf_ne hformat hdown hending (by decide) (by decide)

end GenerateOptions

end Phrasebook
