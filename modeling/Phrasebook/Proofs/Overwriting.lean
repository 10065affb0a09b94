-- Writing over files that are there. The directories above such a file are found
-- and left as they are, and only the content of the file changes.
import Mathlib.Data.String.Basic
import Phrasebook.Proofs.ParentPaths
import Phrasebook.Proofs.StoreRuns

namespace Phrasebook

open Validation (bind_eq_ok_iff)

/-- A path that ends in a name, and not in a dot step. -/
def Path.EndsInName (path : String) : Prop :=
  ∃ names name, rawSteps path = names ++ [name] ∧ name ≠ "." ∧ name ≠ ".."

namespace FileTree

variable {t : FileTree} {place found directory : Place} {path part name text : String}
  {steps names : List String} {content : ByteArray}

/-! ## Directories that are there -/

theorem checkPath_eq_ok_iff : checkPath path = .ok () ↔
    path.toList.contains (Char.ofNat 0) = false ∧ path ≠ "" ∧ ¬ path.utf8ByteSize > longestPath := by
  unfold checkPath
  split
  · simp_all
  · split
    · simp_all
    · split
      · simp_all
      · simp_all

/-- A part of a path is no longer than it, and has no other characters. -/
theorem checkPath_of_sublist (h : checkPath path = .ok ()) (hsub : part.toList.Sublist path.toList)
    (hne : part ≠ "") : checkPath part = .ok () := by
  rw [checkPath_eq_ok_iff] at h ⊢
  obtain ⟨hnul, -, hlong⟩ := h
  refine ⟨?_, hne, ?_⟩
  · rw [List.contains_eq_mem, decide_eq_false_iff_not] at hnul ⊢
    exact fun hmem => hnul (hsub.subset hmem)
  · have hle := String.utf8Len_le_of_sublist hsub
    rw [String.utf8Len_toList, String.utf8Len_toList] at hle
    omega

/-- A directory is found by its path, with a slash at the end or without. -/
theorem locate_of_walk (hcheck : checkPath path = .ok ())
    (hwalk : t.walk (t.origin path) (Path.rawSteps path) = .ok place)
    (hnode : t.node? place = some .directory) : t.locate path = .ok place := by
  refine bind_eq_ok_iff.mpr ⟨(), hcheck, ?_⟩
  split
  · exact walk_concat_dot.mpr ⟨hwalk, hnode⟩
  · rwa [List.append_nil]

/-- A path names something if what is before its last step is a directory. -/
theorem target_of_walk (hcheck : checkPath path = .ok ())
    (hwalk : t.walk (t.origin path) (Path.rawSteps path).dropLast = .ok directory)
    (hnode : t.node? directory = some .directory) : t.target path =
      .ok ((Path.rawSteps path).getLast?.bind fun name =>
        if name = "." ∨ name = ".." then none else some (directory, name)) := by
  refine bind_eq_ok_iff.mpr ⟨(), hcheck, bind_eq_ok_iff.mpr ⟨directory, ?_, ?_⟩⟩
  · exact walk_concat_dot.mpr ⟨hwalk, hnode⟩
  · cases (Path.rawSteps path).getLast? with
    | none => rfl
    | some name => rfl

/-- A directory that is there is not made again. -/
theorem makeDirectory_of_walk (hcheck : checkPath path = .ok ())
    (hwalk : t.walk (t.origin path) (Path.rawSteps path) = .ok place)
    (hnode : t.node? place = some .directory) : t.makeDirectory path = .error .alreadyExists := by
  obtain hraw | ⟨init, last, hraw⟩ := (Path.rawSteps path).eq_nil_or_concat'
  · have horigin : t.origin path = place := by
      rw [hraw] at hwalk
      exact Except.ok.inj hwalk
    have htarget := target_of_walk (t := t) hcheck (by rw [hraw]; rfl) (horigin ▸ hnode)
    rw [hraw] at htarget
    unfold makeDirectory
    rw [htarget]
    rfl
  · rw [hraw] at hwalk
    obtain ⟨directory, hinit, hlast⟩ := walk_append_eq_ok.mp hwalk
    have htarget := target_of_walk hcheck (by rwa [hraw, List.dropLast_concat])
      (directory_of_walk_cons hlast)
    rw [hraw, List.getLast?_concat, Option.bind_some] at htarget
    unfold makeDirectory
    rw [htarget]
    by_cases hdots : last = "." ∨ last = ".."
    · rw [if_pos hdots]
      rfl
    · rw [if_neg hdots]
      rw [not_or] at hdots
      obtain ⟨-, hshort, rfl⟩ := (walk_name hdots.1 hdots.2).mp hlast
      simp only [bind, Except.bind, if_neg hshort, hnode]
      rfl

theorem kind?_of_locate (h : t.locate path = .ok place) :
    t.kind? path = (t.node? place).map FileNode.kind := by
  rw [kind?, h]

theorem ensureDirectories_of_walk (hcheck : checkPath path = .ok ())
    (hwalk : t.walk (t.origin path) (Path.rawSteps path) = .ok place)
    (hnode : t.node? place = some .directory) (outer : List String) :
    actOn (FileStore.ensureDirectories (path :: outer)) t = (.ok (), t) := by
  have hmade : actOn (FileStore.makeDirectory path) t = (.error .alreadyExists, t) := by
    show commit (·.makeDirectory path) t = _
    rw [commit, makeDirectory_of_walk hcheck hwalk hnode]
  have hkind : actOn (FileStore.kind? path) t = (some .directory, t) := by
    show (t.kind? path, t) = _
    rw [kind?_of_locate (locate_of_walk hcheck hwalk hnode), hnode]
    rfl
  rw [FileStore.ensureDirectories, actOn_bind, hmade]
  show actOn (FileStore.isDirectory path >>= _) t = _
  rw [actOn_bind, FileStore.isDirectory, actOn_bind, hkind]
  rfl

/-! ## Directories above a path -/

/-- A step that stays where it is can be left out. -/
theorem walk_filter (h : t.walk place steps = .ok found) :
    t.walk place (steps.filter (· ≠ ".")) = .ok found := by
  induction steps generalizing place with
  | nil => exact h
  | cons step steps ih =>
    obtain ⟨middle, hstep, hsteps⟩ := walk_append_eq_ok.mp (List.singleton_append ▸ h)
    by_cases hdot : step = "."
    · subst hdot
      obtain ⟨-, rfl⟩ := walk_dot.mp hstep
      exact ih hsteps
    · rw [List.filter_cons_of_pos (by simpa using hdot)]
      exact walk_append_eq_ok.mpr ⟨middle, hstep, ih hsteps⟩

/-- The steps before a name, without the dots that stay where they are, lead where
all of them lead. -/
theorem exists_steps_of_walk (hraw : Path.rawSteps path = names ++ [name]) (hdot : name ≠ ".")
    (hwalk : t.walk place names = .ok found) :
    ∃ above, Path.steps path = above ++ [name] ∧ t.walk place above = .ok found := by
  cases names with
  | nil =>
    refine ⟨[], ?_, hwalk⟩
    rw [Path.steps_of_rawSteps_cons hraw, if_neg fun h => hdot h.1]
    rfl
  | cons first rest =>
    rw [List.cons_append] at hraw
    have hsteps := Path.steps_of_rawSteps_cons hraw
    rw [List.filter_append, List.filter_cons_of_pos (by simpa using hdot), List.filter_nil,
      ← List.append_assoc] at hsteps
    refine ⟨_, hsteps, ?_⟩
    obtain ⟨middle, hfirst, hrest⟩ := walk_append_eq_ok.mp (List.singleton_append ▸ hwalk)
    split
    · rename_i hroot
      rw [hroot.1] at hfirst
      obtain ⟨-, rfl⟩ := walk_dot.mp hfirst
      exact walk_filter hrest
    · exact walk_append_eq_ok.mpr ⟨middle, hfirst, walk_filter hrest⟩

/-- The directory that a path is in has a path of its own, with all steps but the last
one, and is found by it unless that is empty. -/
theorem exists_above_of_target (h : t.target path = .ok (some (directory, name))) :
    ∃ above, Path.steps path = above ++ [name] ∧
      t.walk (t.origin (Path.ofSteps (Path.isAbsolute path) above))
        (Path.rawSteps (Path.ofSteps (Path.isAbsolute path) above)) = .ok directory ∧
      (Path.ofSteps (Path.isAbsolute path) above ≠ "" →
        checkPath (Path.ofSteps (Path.isAbsolute path) above) = .ok ()) ∧
      t.node? directory = some .directory := by
  obtain ⟨hcheck, hraw, hdot, -, hwalk, hnode⟩ := target_eq_some h
  obtain ⟨above, hsteps, habove⟩ := exists_steps_of_walk hraw hdot hwalk
  have hsub : above.Sublist (Path.rawSteps path) := by
    refine List.Sublist.trans ?_ (Path.sublist_steps path)
    rw [hsteps]
    exact List.sublist_append_left _ _
  have hsome : ∀ step ∈ above, Path.IsStep step :=
    fun step hstep => Path.isStep_of_mem_rawSteps (hsub.subset hstep)
  have horigin : t.origin (Path.ofSteps (Path.isAbsolute path) above) = t.origin path := by
    rw [origin, Path.isAbsolute_ofSteps hsome, origin]
  refine ⟨above, hsteps, ?_, checkPath_of_sublist hcheck (Path.sublist_ofSteps hsub), hnode⟩
  rw [horigin, Path.rawSteps_ofSteps hsome]
  exact habove

/-- No directory above a path is made if the nearest of them is there. -/
theorem ensureDirectories_parents (h : t.target path = .ok (some (directory, name))) :
    actOn (FileStore.ensureDirectories (Path.parents path)) t = (.ok (), t) := by
  obtain ⟨above, hsteps, hwalk, hcheck, hnode⟩ := exists_above_of_target h
  obtain hnone | ⟨outer, houter⟩ := Path.parents_eq hsteps
  · rw [hnone]
    rfl
  · have hne : Path.ofSteps (Path.isAbsolute path) above ≠ "" := by
      have hmem : Path.ofSteps (Path.isAbsolute path) above ∈ Path.parents path := by simp [houter]
      simpa [Path.parents] using (List.mem_filter.mp hmem).2
    rw [houter]
    exact ensureDirectories_of_walk (hcheck hne) hwalk hnode outer

/-! ## Files that are there -/

/-- A file whose path ends in a name is in a directory, and has that name. -/
theorem exists_target_of_locate (hname : Path.EndsInName path) (h : t.locate path = .ok place)
    (hfile : (t.file? place).isSome) : ∃ directory name,
      t.target path = .ok (some (directory, name)) ∧ directory ++ [name] = place ∧
      endsInSlash path = false ∧ ¬ name.utf8ByteSize > longestName := by
  obtain ⟨names, name, hraw, hdot, hup⟩ := hname
  obtain ⟨⟨⟩, hcheck, hwalk⟩ := bind_eq_ok_iff.mp h
  cases hslash : endsInSlash path with
  | true =>
    rw [hslash, if_pos rfl] at hwalk
    rw [file?, (walk_concat_dot.mp hwalk).2] at hfile
    cases hfile
  | false =>
    rw [hslash, if_neg Bool.false_ne_true, List.append_nil, hraw] at hwalk
    obtain ⟨directory, hnames, hlast⟩ := walk_append_eq_ok.mp hwalk
    obtain ⟨hnode, hshort, rfl⟩ := (walk_name hdot hup).mp hlast
    have htarget := target_of_walk hcheck (by rwa [hraw, List.dropLast_concat]) hnode
    rw [hraw, List.getLast?_concat, Option.bind_some, if_neg (by simp [hdot, hup])] at htarget
    exact ⟨directory, name, htarget, rfl, rfl, hshort⟩

theorem file?_eq_some_iff :
    t.file? place = some content ↔ t.node? place = some (.file content) := by
  unfold file?
  cases t.node? place with
  | none => simp
  | some node => cases node <;> simp [FileNode.content?]

theorem locate_of_read (h : t.read path = .ok content) :
    t.locate path = .ok (t.placeOf path) ∧ t.file? (t.placeOf path) = some content := by
  obtain ⟨place, hlocate, hread⟩ := Validation.bind_eq_ok_iff.mp h
  obtain rfl := placeOf_of_locate hlocate
  refine ⟨hlocate, ?_⟩
  split at hread
  · cases hread
  · cases hread
  · rename_i hnode
    cases hread
    exact file?_eq_some_iff.mpr hnode

theorem kind?_of_read (h : t.read path = .ok content) : t.kind? path = some .file := by
  obtain ⟨hlocate, hfile⟩ := locate_of_read h
  rw [kind?_of_locate hlocate, file?_eq_some_iff.mp hfile]
  rfl

/-- Writing over a file changes its content and nothing else. -/
theorem writeText_over (hname : Path.EndsInName path) (h : t.locate path = .ok place)
    (hfile : (t.file? place).isSome) : actOn (FileStore.writeText path text) t =
      (.ok (), t.set place (.file text.toUTF8)) := by
  obtain ⟨directory, name, htarget, rfl, hslash, hshort⟩ := exists_target_of_locate hname h hfile
  obtain ⟨old, hold⟩ := Option.isSome_iff_exists.mp hfile
  rw [file?_eq_some_iff] at hold
  have hwrite : t.write path text.toUTF8 =
      .ok (t.set (directory ++ [name]) (.file text.toUTF8)) := by
    unfold write
    rw [htarget]
    simp only [bind, Except.bind, hslash, if_neg hshort, hold]
    rfl
  rw [writeText_run, ensureDirectories_parents htarget]
  show commit (·.write path text.toUTF8) t = _
  rw [commit, hwrite]

/-! ## Nodes that are put over others -/

section

variable {other : Place} {nodes : List (Place × FileNode)} {node older : FileNode}

theorem setNode_self (h : nodes.lookup place = some node) : setNode place node nodes = nodes := by
  induction nodes with
  | nil => cases h
  | cons first rest ih =>
    obtain ⟨first, old⟩ := first
    rw [lookup_cons_place] at h
    unfold setNode
    by_cases hfirst : place = first
    · rw [if_pos hfirst] at h
      cases h
      rw [if_pos hfirst.symm, hfirst]
    · rw [if_neg hfirst] at h
      rw [if_neg (Ne.symm hfirst), ih h]

theorem setNode_setNode (place : Place) (node older : FileNode) (nodes : List (Place × FileNode)) :
    setNode place node (setNode place older nodes) = setNode place node nodes := by
  induction nodes with
  | nil => simp [setNode]
  | cons first rest ih =>
    by_cases hfirst : first.1 = place
    · simp [setNode, hfirst]
    · simp [setNode, hfirst, ih]

/-- Nodes that are put at two places may be put in either order, if one of the
places is taken already. -/
theorem setNode_comm (hne : place ≠ other) (h : (nodes.lookup place).isSome)
    (node older : FileNode) : setNode other node (setNode place older nodes) =
      setNode place older (setNode other node nodes) := by
  induction nodes with
  | nil => cases h
  | cons first rest ih =>
    obtain ⟨first, old⟩ := first
    by_cases hplace : first = place
    · subst hplace
      simp [setNode, hne]
    · rw [lookup_cons_place, if_neg (Ne.symm hplace)] at h
      by_cases hother : first = other
      · subst hother
        simp [setNode, hplace]
      · simp [setNode, hplace, hother, ih h]

/-! ## Files that are put over others -/

theorem ne_nil_of_file? (h : (t.file? place).isSome) : place ≠ [] := by
  rintro rfl
  cases h

theorem no_directory_of_file? (h : (t.file? place).isSome) : t.node? place ≠ some .directory := by
  intro hnode
  rw [file?, hnode] at h
  cases h

theorem lookup_of_file? (h : (t.file? place).isSome) : (t.nodes.lookup place).isSome := by
  obtain ⟨content, hcontent⟩ := Option.isSome_iff_exists.mp h
  rw [file?_eq_some_iff] at hcontent
  cases place with
  | nil => cases hcontent
  | cons name rest => exact Option.isSome_iff_exists.mpr ⟨_, hcontent⟩

theorem set_self (h : t.file? place = some content) :
    t.set place (.file content) = t := by
  rw [file?_eq_some_iff] at h
  cases place with
  | nil => cases h
  | cons name rest => rw [set, setNode_self h]

theorem set_set (t : FileTree) (place : Place) (node older : FileNode) :
    (t.set place older).set place node = t.set place node := by
  rw [set, set, set, setNode_setNode]

theorem set_comm (hne : place ≠ other) (h : (t.file? place).isSome) (node older : FileNode) :
    (t.set place older).set other node = (t.set other node).set place older := by
  rw [set, set, set, set, setNode_comm hne (lookup_of_file? h)]

theorem file?_set_of_ne (hne : other ≠ place) :
    (t.set place node).file? other = t.file? other := by
  unfold file?
  cases other with
  | nil => rfl
  | cons name rest =>
    show ((setNode place node t.nodes).lookup (name :: rest)).bind _ = _
    rw [lookup_setNode, if_neg hne]
    rfl

theorem file?_set_isSome (h : (t.file? other).isSome) :
    ((t.set place (.file content)).file? other).isSome := by
  by_cases hplace : other = place
  · subst hplace
    unfold file?
    rw [node?_set t (ne_nil_of_file? h), if_pos rfl]
    rfl
  · rwa [file?_set_of_ne hplace]

end

end FileTree

end Phrasebook
