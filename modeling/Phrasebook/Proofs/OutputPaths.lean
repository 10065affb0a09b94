-- The paths of the outputs. Whatever slashes and dots are in the codes of a
-- catalog, its tables and its Swift file stay in the directories they go to.
import Phrasebook.Proofs.OutputFiles

namespace Phrasebook

/-- The outputs of an accepted catalog go down from their directory: a table by
the directories of its language, and the Swift file by its name alone. So they
lead to places below the directory. -/
theorem Catalog.outputs_go_down {c : Catalog} {r : ResolvedCatalog} (h : c.resolve = .ok r)
    {n : Naming} (htable : Settings.checkTableName n.tableName = .ok ())
    (htype : Settings.checkTypeName n.typeName = .ok ()) (directory : String) :
    (∀ language ∈ c.languages,
      Path.GoesDown directory (n.tablePath directory language)
        (Language.directorySteps language ++ [n.tableName ++ ".strings"])) ∧
    Path.GoesDown directory (n.modulePath directory) [n.typeName ++ ".swift"] ∧
    ∀ t : FileTree,
      (∀ language ∈ c.languages,
        t.placeOf directory <+: t.placeOf (n.tablePath directory language)) ∧
      t.placeOf directory <+: t.placeOf (n.modulePath directory) := by
  have htables : ∀ language ∈ c.languages,
      Path.GoesDown directory (n.tablePath directory language)
        (Language.directorySteps language ++ [n.tableName ++ ".strings"]) :=
    fun language hl => Naming.goesDown_tablePath (isCode_of_resolve h language hl)
      (not_mem_of_checkTableName htable)
  have hmodule : Path.GoesDown directory (n.modulePath directory) [n.typeName ++ ".swift"] :=
    Naming.goesDown_modulePath (not_mem_of_checkTypeName htype)
  refine ⟨htables, hmodule, fun t => ⟨fun language hl => ?_, ?_⟩⟩
  · rw [(htables language hl).placeOf_eq]
    exact List.prefix_append _ _
  · rw [hmodule.placeOf_eq]
    exact List.prefix_append _ _

/-- A catalog without entries, in a language whose code ends in a slash and dots. -/
def Catalog.dotted : Catalog := ⟨["en-1/.."], []⟩

/-- The ending keeps the dots of a code from being a step back. -/
theorem Catalog.dotted_outputs_go_down : (∃ r, Catalog.dotted.resolve = .ok r) ∧
    Path.GoesDown "out" "out/en-1/...lproj/Localizable.strings"
      ["en-1", "...lproj", "Localizable.strings"] := by
  have hresolve : Validation.outcome Catalog.dotted.resolve = .ok () := by decide +kernel
  obtain ⟨r, hr⟩ := Validation.outcome_eq_ok_iff.mp hresolve
  obtain ⟨htables, -, -⟩ := outputs_go_down hr (n := {}) (by decide) (by decide) "out"
  exact ⟨⟨r, hr⟩, htables "en-1/.." (by decide)⟩

end Phrasebook
