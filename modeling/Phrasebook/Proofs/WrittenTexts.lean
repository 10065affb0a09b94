-- Texts that are written to a path. A write that succeeds is seen by the comparison
-- with its text and with no other, in a directory that is there, and a write that fails
-- has changed no file.
import Phrasebook.Proofs.Comparison
import Phrasebook.Proofs.Overwriting

namespace Phrasebook

/-- The path of the directory that a path is in: all its steps but the last one. It is
empty for a single name, which is in the directory that relative paths start from. -/
def Path.parent? (path : String) : Option String :=
  if steps path = [] then none else some (ofSteps (isAbsolute path) (steps path).dropLast)

namespace FileTree

variable {t t' : FileTree} {path text : String} {content : ByteArray}

/-! ## Directories by their paths -/

/-- A path leads to a directory. The empty path leads to where relative paths start. -/
def LeadsToDirectory (t : FileTree) (path : String) : Prop :=
  path = "" ∧ t.node? t.working = some .directory ∨ t.kind? path = some .directory

/-- A write comes by the directory that its path is in. -/
theorem leadsToDirectory_of_write (h : t.write path content = .ok t') :
    ∃ parent, Path.parent? path = some parent ∧ t'.LeadsToDirectory parent := by
  have hkeeps := (write_eq_ok h).keeps
  obtain ⟨_ | ⟨directory, name⟩, htarget, hrest⟩ := Validation.bind_eq_ok_iff.mp h
  · cases hrest
  · obtain ⟨above, hsteps, hwalk, hcheck, hnode⟩ := exists_above_of_target htarget
    refine ⟨Path.ofSteps (Path.isAbsolute path) above, ?_, ?_⟩
    · rw [Path.parent?, hsteps, if_neg (by simp), List.dropLast_concat]
    · by_cases hempty : Path.ofSteps (Path.isAbsolute path) above = ""
      · rw [hempty] at hwalk ⊢
        obtain rfl : t.working = directory := Except.ok.inj hwalk
        exact .inl ⟨rfl, hkeeps.working_eq ▸ hkeeps.directory_of_directory _ hnode⟩
      · have hlocate := hkeeps.locate (locate_of_walk (hcheck hempty) hwalk hnode)
        right
        rw [kind?_of_locate hlocate, hkeeps.directory_of_directory _ hnode]
        rfl

/-! ## Comparisons with what was written -/

/-- A comparison finds the text that a file holds, and no other. -/
theorem holdsText_of_read (h : t.read path = .ok text.toUTF8) (other : String) :
    actOn (FileStore.holdsText path other) t = (.ok (decide (other = text)), t) := by
  have hread : readAt t path = .ok text.toUTF8 := h
  rw [holdsText_run, holdsText_eq, hread, compareText, fromUTF8?_toUTF8]
  dsimp only
  rw [Bool.beq_eq_decide_eq, decide_eq_decide.mpr eq_comm]

/-- What a write that succeeded made of a tree: the file at the path holds the text, in a
directory that is there, and every other file is what it was. -/
structure HasWritten (t t' : FileTree) (path text : String) : Prop where
  keeps : t.KeepsDirectories t'
  parent : ∃ parent, Path.parent? path = some parent ∧ t'.LeadsToDirectory parent
  holdsText_eq (other : String) :
    actOn (FileStore.holdsText path other) t' = (.ok (decide (other = text)), t')
  file?_eq (place : Place) :
    t'.file? place = if place = t.placeOf path then some text.toUTF8 else t.file? place

theorem hasWritten_of_writeText (h : actOn (FileStore.writeText path text) t = (.ok (), t')) :
    t.HasWritten t' path text := by
  obtain ⟨t₁, hmade, hrun⟩ := writeText_eq_ok h
  have hadds : t.AddsDirectories t₁ := hmade
  have hwrite : t₁.write path text.toUTF8 = .ok t' := commit_eq_ok hrun
  have hputs := write_eq_ok hwrite
  have hread : t'.read path = .ok text.toUTF8 := by
    apply read_eq_ok hputs.locate_eq
    rw [hputs.file?_eq, if_pos rfl]
  refine ⟨hadds.keeps.trans hputs.keeps, leadsToDirectory_of_write hwrite,
    holdsText_of_read hread, fun place => ?_⟩
  rw [hputs.file?_eq, hadds.keeps.placeOf_eq, hadds.file?_eq]

/-- Writing a text to a path either succeeds, and then the path compares as up to date
with this text alone, or fails, and then there are at most more directories. -/
theorem writeText_changes (t : FileTree) (path text : String) :
    (∀ t', actOn (FileStore.writeText path text) t = (.ok (), t') → t.HasWritten t' path text) ∧
    (∀ e t', actOn (FileStore.writeText path text) t = (.error e, t') → t.AddsDirectories t') :=
  ⟨fun _ => hasWritten_of_writeText, fun _ _ => writeText_eq_error⟩

/-- A text is written through directories that have to be made first, and the same text
to a path that ends in a slash is not. -/
theorem twoLanguages_writeText_changes : ∃ t' t'' : FileTree,
    actOn (FileStore.writeText "out/../new/notes.txt" "Hello") twoLanguages = (.ok (), t') ∧
    twoLanguages.HasWritten t' "out/../new/notes.txt" "Hello" ∧
    actOn (FileStore.writeText "new/notes/" "Hello") twoLanguages = (.error .isDirectory, t'') ∧
    twoLanguages.AddsDirectories t'' := by
  have hok : (actOn (FileStore.writeText "out/../new/notes.txt" "Hello") twoLanguages).1 =
      .ok () := by decide +kernel
  have herror : (actOn (FileStore.writeText "new/notes/" "Hello") twoLanguages).1 =
      .error .isDirectory := by decide +kernel
  refine ⟨_, _, Prod.ext hok rfl, ?_, Prod.ext herror rfl, ?_⟩
  · exact (writeText_changes twoLanguages "out/../new/notes.txt" "Hello").1 _ (Prod.ext hok rfl)
  · exact (writeText_changes twoLanguages "new/notes/" "Hello").2 _ _ (Prod.ext herror rfl)

end FileTree

end Phrasebook
