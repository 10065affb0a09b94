-- What a run may touch. A file changes only where an output leads, a directory is
-- made only where a path above an output leads, and nothing is removed, however
-- the run ends.
import Phrasebook.Proofs.Comparison
import Phrasebook.Proofs.Overwriting

namespace Phrasebook

open CommandM

open Validation (bind_eq_ok_iff)

namespace FileTree

variable {t t' : FileTree} {path : String} {content : ByteArray} {files directories : List String}

/-! ## Trees that are the same elsewhere -/

/-- A file is new or changed only where one of some paths leads, a directory is new
only where one of some other paths leads, and whatever there was is there still. -/
structure SameElsewhere (t t' : FileTree) (files directories : List String) : Prop where
  keeps : t.KeepsDirectories t'
  file_remains (place : Place) : (t.file? place).isSome → (t'.file? place).isSome
  new_file (place : Place) :
    t'.file? place = t.file? place ∨ ∃ path ∈ files, t'.locate path = .ok place
  new_directory (place : Place) : t'.node? place = some .directory →
    t.node? place = some .directory ∨
      t.node? place = none ∧ ∃ path ∈ directories, t'.locate path = .ok place

namespace SameElsewhere

theorem refl (t : FileTree) : t.SameElsewhere t files directories where
  keeps := (AddsDirectories.refl t).keeps
  file_remains _ h := h
  new_file _ := .inl rfl
  new_directory _ h := .inl h

theorem node?_eq_none {place : Place} (h : t.SameElsewhere t' files directories)
    (hnone : t'.node? place = none) : t.node? place = none := by
  rcases hnode : t.node? place with _ | _ | _
  · rfl
  · have hfile := h.file_remains place (by simp [file?, hnode, FileNode.content?])
    simp [file?, hnone] at hfile
  · have hkept := h.keeps.directory_of_directory place hnode
    simp [hnone] at hkept

theorem trans {t₁ : FileTree} (h : t.SameElsewhere t₁ files directories)
    (h' : t₁.SameElsewhere t' files directories) : t.SameElsewhere t' files directories where
  keeps := h.keeps.trans h'.keeps
  file_remains place hfile := h'.file_remains place (h.file_remains place hfile)
  new_file place := by
    rcases h'.new_file place with hsame | hpath
    · rcases h.new_file place with hold | ⟨path, hpath, hlocate⟩
      · exact .inl (hsame.trans hold)
      · exact .inr ⟨path, hpath, h'.keeps.locate hlocate⟩
    · exact .inr hpath
  new_directory place hnode := by
    rcases h'.new_directory place hnode with hnode₁ | ⟨hnone, hpath⟩
    · rcases h.new_directory place hnode₁ with hold | ⟨hnone, path, hpath, hlocate⟩
      · exact .inl hold
      · exact .inr ⟨hnone, path, hpath, h'.keeps.locate hlocate⟩
    · exact .inr ⟨h.node?_eq_none hnone, hpath⟩

end SameElsewhere

/-- A directory that was made is found by its path. -/
theorem locate_of_makeDirectory (h : t.makeDirectory path = .ok t') :
    ∃ place, t'.locate path = .ok place ∧
      ∀ other, t'.node? other = if other = place then some .directory else t.node? other := by
  have hkeeps := (makeDirectory_eq_ok h).keeps
  obtain ⟨_ | ⟨directory, name⟩, htarget, hrest⟩ := bind_eq_ok_iff.mp h
  · cases hrest
  · obtain ⟨hcheck, hsteps, hdot, hup, hwalk, hnode⟩ := target_eq_some htarget
    dsimp only at hrest
    split at hrest
    · cases hrest
    · rename_i hshort
      split at hrest
      · cases hrest
      · cases hrest
        have hset (other : Place) : (t.set (directory ++ [name]) .directory).node? other =
            if other = directory ++ [name] then some .directory else t.node? other :=
          node?_set t (by simp) .directory other
        have hname : t.walk (t.origin path) (Path.rawSteps path) = .ok (directory ++ [name]) := by
          rw [hsteps]
          exact walk_append_eq_ok.mpr ⟨directory, hwalk, (walk_name hdot hup).mpr ⟨hnode, hshort, rfl⟩⟩
        refine ⟨directory ++ [name], ?_, hset⟩
        exact locate_of_walk hcheck (hkeeps.walk hname) (by rw [hset, if_pos rfl])

theorem sameElsewhere_of_makeDirectory (h : t.makeDirectory path = .ok t')
    (hpath : path ∈ directories) : t.SameElsewhere t' files directories where
  keeps := (makeDirectory_eq_ok h).keeps
  file_remains place hfile := by rwa [(makeDirectory_eq_ok h).file?_eq]
  new_file place := .inl ((makeDirectory_eq_ok h).file?_eq place)
  new_directory place hnode := by
    obtain ⟨made, hlocate, hnode?⟩ := locate_of_makeDirectory h
    rcases (makeDirectory_eq_ok h).node?_eq place with hsame | ⟨hnone, -⟩
    · exact .inl (hsame ▸ hnode)
    · -- Nothing else became a directory.
      have hmade : place = made := by
        by_contra hne
        rw [hnode?, if_neg hne, hnone] at hnode
        cases hnode
      exact .inr ⟨hnone, path, hpath, hmade ▸ hlocate⟩

theorem sameElsewhere_of_write (h : t.write path content = .ok t') (hpath : path ∈ files) :
    t.SameElsewhere t' files directories where
  keeps := (write_eq_ok h).keeps
  file_remains place hfile := by
    rw [(write_eq_ok h).file?_eq]
    split
    · rfl
    · exact hfile
  new_file place := by
    by_cases hplace : place = t.placeOf path
    · exact .inr ⟨path, hpath, hplace ▸ (write_eq_ok h).locate_eq⟩
    · exact .inl (by rw [(write_eq_ok h).file?_eq, if_neg hplace])
  new_directory place hnode := by
    rw [(write_eq_ok h).node?_eq] at hnode
    split at hnode
    · cases hnode
    · exact .inl hnode

end FileTree

/-! ## Actions that keep to some paths -/

open FileTree

section

variable {α β : Type} {files directories : List String}

/-- An action that changes a tree at some paths only, however it ends. -/
def KeepsTo (files directories : List String) (action : StateM FileTree α) : Prop :=
  ∀ t : FileTree, t.SameElsewhere (actOn action t).2 files directories

theorem Looks.keepsTo {action : StateM FileTree α} (h : Looks action) :
    KeepsTo files directories action := by
  intro t
  rw [h t]
  exact .refl t

theorem KeepsTo.bind {action : StateM FileTree α} {next : α → StateM FileTree β}
    (h : KeepsTo files directories action) (hnext : ∀ a, KeepsTo files directories (next a)) :
    KeepsTo files directories (action >>= next) :=
  fun t => (h t).trans (hnext (actOn action t).1 (actOn action t).2)

/-- A change that fails changes nothing. -/
theorem keepsTo_commit {change : FileTree → Except FileError FileTree}
    (h : ∀ t t', change t = .ok t' → t.SameElsewhere t' files directories) :
    KeepsTo files directories (commit change) := by
  intro t
  rcases hrun : actOn (commit change) t with ⟨e | ⟨⟨⟩⟩, t'⟩
  · rw [commit_eq_error hrun]
    exact .refl t
  · exact h t t' (commit_eq_ok hrun)

variable {path : String}

theorem makeDirectory_keepsTo (hpath : path ∈ directories) :
    KeepsTo files directories (FileStore.makeDirectory path : StateM FileTree _) :=
  keepsTo_commit fun _ _ h => sameElsewhere_of_makeDirectory h hpath

theorem ensureDirectory_keepsTo (hpath : path ∈ directories) :
    KeepsTo files directories (FileStore.ensureDirectory path : StateM FileTree _) := by
  unfold FileStore.ensureDirectory
  apply KeepsTo.bind (makeDirectory_keepsTo hpath)
  intro made
  apply Looks.keepsTo
  split
  · exact Looks.pure _
  · exact Looks.bind (isDirectory_looks path) fun _ => Looks.pure _

theorem ensureDirectories_keepsTo {paths : List String} (hpaths : paths ⊆ directories) :
    KeepsTo files directories (FileStore.ensureDirectories paths : StateM FileTree _) := by
  induction paths with
  | nil => exact (Looks.pure _).keepsTo
  | cons path outer ih =>
    obtain ⟨hpath, houter⟩ := List.cons_subset.mp hpaths
    unfold FileStore.ensureDirectories
    apply KeepsTo.bind (makeDirectory_keepsTo hpath)
    intro made
    split
    · exact (Looks.pure _).keepsTo
    · apply KeepsTo.bind (ih houter)
      intro above
      split
      · exact ensureDirectory_keepsTo hpath
      · exact (Looks.pure _).keepsTo
    · apply Looks.keepsTo
      exact Looks.bind (isDirectory_looks path) fun _ => Looks.pure _

theorem writeText_keepsTo (text : String) (hpath : path ∈ files)
    (hparents : Path.parents path ⊆ directories) :
    KeepsTo files directories (FileStore.writeText path text : StateM FileTree _) := by
  unfold FileStore.writeText
  apply KeepsTo.bind (ensureDirectories_keepsTo hparents)
  intro made
  split
  · exact keepsTo_commit fun _ _ h => sameElsewhere_of_write h hpath
  · exact (Looks.pure _).keepsTo

/-- Outputs are written at their paths, and up to the first one that fails. -/
theorem writeOutputs_keepsTo {outputs : List Output} (t : FileTree)
    (hfiles : ∀ o ∈ outputs, o.path ∈ files)
    (hdirectories : ∀ o ∈ outputs, Path.parents o.path ⊆ directories) :
    t.SameElsewhere (runOn (writeOutputs outputs) t).2 files directories := by
  induction outputs generalizing t with
  | nil => exact .refl t
  | cons o outputs ih =>
    obtain ⟨hfile, hfiles⟩ := List.forall_mem_cons.mp hfiles
    obtain ⟨hdirectory, hdirectories⟩ := List.forall_mem_cons.mp hdirectories
    have hwrite := writeText_keepsTo o.text hfile hdirectory t
    rw [writeOutputs_cons_run]
    rcases hrun : actOn (FileStore.writeText o.path o.text) t with ⟨e | ⟨⟨⟩⟩, t₁⟩
    · rw [hrun] at hwrite
      exact hwrite
    · rw [hrun] at hwrite
      exact hwrite.trans (ih t₁ hfiles hdirectories)

end

/-! ## Runs -/

namespace GenerateOptions

/-- The paths that a run writes to: those of the tables and of the Swift file, or none
if it finds no catalog that it accepts. -/
def outputPaths (o : GenerateOptions) (t : FileTree) : List String :=
  match (runOn o.prepare t).1 with
  | .ok c => c.languages.map (o.naming.tablePath o.stringsDirectory) ++
      [o.naming.modulePath o.swiftDirectory]
  | .error _ => []

variable {o : GenerateOptions} {t : FileTree}

/-- A run that prepared its outputs leaves the tree as writing them does. -/
theorem state_of_generate {c : ResolvedCatalog} (hcheck : o.check = false)
    (hprepare : runOn o.prepare t = (.ok c, t)) :
    (runOn o.generate t).2 = (runOn (writeOutputs (o.outputs c)) t).2 := by
  rw [generate_of_write hcheck, runOn_bind, hprepare]
  dsimp only
  rw [runOn_bind]
  rcases runOn (writeOutputs (o.outputs c)) t with ⟨_ | ⟨⟨⟩⟩, t'⟩
  · rfl
  · rfl

theorem state_of_generate_of_error {e : CommandError} (hprepare : runOn o.prepare t = (.error e, t)) :
    (runOn o.generate t).2 = t := by
  by_cases hcheck : o.check = true
  · exact (generate_inspects hcheck).state_eq t
  · rw [generate_of_write (Bool.eq_false_of_not_eq_true hcheck), runOn_bind, hprepare]

/-- However a run ends, it changed and made files only at the paths of its outputs, and
made directories only at paths above these. Nothing was removed. -/
theorem generate_sameElsewhere (o : GenerateOptions) (t : FileTree) :
    t.SameElsewhere (runOn o.generate t).2 (o.outputPaths t)
      ((o.outputPaths t).flatMap Path.parents) := by
  have hstate := (prepare_inspects o).state_eq t
  rcases hprepare : runOn o.prepare t with ⟨e | c, t₁⟩
  · obtain rfl : t₁ = t := by rwa [hprepare] at hstate
    rw [state_of_generate_of_error hprepare]
    exact .refl t₁
  · obtain rfl : t₁ = t := by rwa [hprepare] at hstate
    by_cases hcheck : o.check = true
    · rw [(generate_inspects hcheck).state_eq]
      exact .refl t₁
    · have hpaths : o.outputPaths t₁ = (o.outputs c).map (·.path) := by
        rw [outputPaths, hprepare, paths_of_prepare hprepare]
      rw [state_of_generate (Bool.eq_false_of_not_eq_true hcheck) hprepare, hpaths]
      apply writeOutputs_keepsTo
      · intro output houtput
        exact List.mem_map_of_mem houtput
      · intro output houtput above habove
        exact List.mem_flatMap.mpr ⟨output.path, List.mem_map_of_mem houtput, habove⟩

end GenerateOptions

end Phrasebook
