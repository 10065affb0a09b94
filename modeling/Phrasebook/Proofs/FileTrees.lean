-- File trees under change. A change adds directories where there was nothing,
-- or puts one file at the place of its path, and leaves the rest as it was.
import Phrasebook.FileTree
import Phrasebook.Proofs.Checks

namespace Phrasebook

def FileNode.content? : FileNode → Option ByteArray
  | file content => some content
  | directory => none

namespace FileTree

open Validation (bind_eq_ok_iff)

variable {t t' : FileTree} {place found : Place} {step : String} {steps : List String}
  {path name : String} {content : ByteArray}

/-! ## Nodes -/

theorem lookup_cons_place (other first : Place) (node : FileNode)
    (rest : List (Place × FileNode)) : List.lookup other ((first, node) :: rest) =
      if other = first then some node else List.lookup other rest := by
  rw [List.lookup_cons]
  by_cases h : other = first
  · simp [h]
  · simp [h, beq_false_of_ne h]

theorem lookup_setNode (place other : Place) (node : FileNode) (nodes : List (Place × FileNode)) :
    (setNode place node nodes).lookup other =
      if other = place then some node else nodes.lookup other := by
  induction nodes with
  | nil => exact lookup_cons_place other place node []
  | cons first rest ih =>
    obtain ⟨first, old⟩ := first
    unfold setNode
    by_cases hfirst : first = place
    · rw [if_pos hfirst, lookup_cons_place, lookup_cons_place, hfirst]
      split
      · rfl
      · rfl
    · rw [if_neg hfirst, lookup_cons_place, lookup_cons_place, ih]
      by_cases h : other = first
      · have hne : ¬ other = place := fun he => hfirst (h ▸ he)
        rw [if_pos h, if_neg hne, if_pos h]
      · rw [if_neg h, if_neg h]

theorem node?_set (t : FileTree) (h : place ≠ []) (node : FileNode) (other : Place) :
    (t.set place node).node? other = if other = place then some node else t.node? other := by
  cases other with
  | nil =>
    rw [if_neg (Ne.symm h)]
    rfl
  | cons name rest => exact lookup_setNode place (name :: rest) node t.nodes

/-- The content of the file at a place. -/
def file? (t : FileTree) (place : Place) : Option ByteArray :=
  (t.node? place).bind FileNode.content?

/-! ## Walks -/

/-- The place that steps lead to, whatever there is on the way. -/
def follow : Place → List String → Place
  | place, [] => place
  | place, step :: rest =>
    if step = "." then follow place rest
    else if step = ".." then follow place.dropLast rest
    else follow (place ++ [step]) rest

/-- The place of a path, by its steps alone. -/
def placeOf (t : FileTree) (path : String) : Place := follow (t.origin path) (Path.rawSteps path)

theorem follow_append (place : Place) (steps rest : List String) :
    follow place (steps ++ rest) = follow (follow place steps) rest := by
  induction steps generalizing place with
  | nil => rfl
  | cons step steps ih =>
    rw [List.cons_append, follow, follow]
    split
    · exact ih place
    · split
      · exact ih place.dropLast
      · exact ih (place ++ [step])

/-- Without a step back, the steps are those of the place. -/
theorem follow_eq_append (h : ".." ∉ steps) :
    follow place steps = place ++ steps.filter (· ≠ ".") := by
  induction steps generalizing place with
  | nil => simp [follow]
  | cons step steps ih =>
    rw [List.mem_cons, not_or] at h
    obtain ⟨hup, hsteps⟩ := h
    unfold follow
    by_cases hdot : step = "."
    · rw [if_pos hdot, ih hsteps, List.filter_cons_of_neg (by simp [hdot])]
    · rw [if_neg hdot, if_neg (Ne.symm hup), ih hsteps, List.filter_cons_of_pos (by simp [hdot]),
        List.append_assoc]
      rfl

theorem walk_cons (h : t.node? place = some .directory) : t.walk place (step :: steps) =
    if step = "." then t.walk place steps
    else if step = ".." then t.walk place.dropLast steps
    else if step.utf8ByteSize > longestName then .error .nameTooLong
    else t.walk (place ++ [step]) steps := by
  rw [FileTree.walk, h]

theorem directory_of_walk_cons (h : t.walk place (step :: steps) = .ok found) :
    t.node? place = some .directory := by
  unfold walk at h
  split at h
  · cases h
  · cases h
  · assumption

theorem follow_of_walk (h : t.walk place steps = .ok found) : follow place steps = found := by
  induction steps generalizing place with
  | nil => exact Except.ok.inj h
  | cons step steps ih =>
    rw [walk_cons (directory_of_walk_cons h)] at h
    unfold follow
    by_cases hdot : step = "."
    · rw [if_pos hdot] at h ⊢
      exact ih h
    · rw [if_neg hdot] at h ⊢
      by_cases hup : step = ".."
      · rw [if_pos hup] at h ⊢
        exact ih h
      · rw [if_neg hup] at h ⊢
        split at h
        · cases h
        · exact ih h

theorem walk_append (t : FileTree) (place : Place) (steps rest : List String) :
    t.walk place (steps ++ rest) = (t.walk place steps).bind fun found => t.walk found rest := by
  induction steps generalizing place with
  | nil => rfl
  | cons step steps ih =>
    rw [List.cons_append, walk, walk]
    split
    · rfl
    · rfl
    · split
      · exact ih place
      · split
        · exact ih place.dropLast
        · split
          · rfl
          · exact ih (place ++ [step])

theorem walk_append_eq_ok {rest : List String} : t.walk place (steps ++ rest) = .ok found ↔
    ∃ middle, t.walk place steps = .ok middle ∧ t.walk middle rest = .ok found := by
  rw [walk_append]
  cases t.walk place steps with
  | error e => simp [Except.bind]
  | ok middle => simp [Except.bind]

theorem walk_dot : t.walk place ["."] = .ok found ↔
    t.node? place = some .directory ∧ place = found := by
  unfold walk
  cases t.node? place with
  | none => simp
  | some node => cases node <;> simp [walk]

/-- A walk that may end anywhere, and the same walk to a directory. -/
theorem walk_concat_dot : t.walk place (steps ++ ["."]) = .ok found ↔
    t.walk place steps = .ok found ∧ t.node? found = some .directory := by
  rw [walk_append_eq_ok]
  constructor
  · rintro ⟨middle, hwalk, hdot⟩
    obtain ⟨hnode, rfl⟩ := walk_dot.mp hdot
    exact ⟨hwalk, hnode⟩
  · rintro ⟨hwalk, hnode⟩
    exact ⟨found, hwalk, walk_dot.mpr ⟨hnode, rfl⟩⟩

/-- A name leads from a directory to what has that name in it. -/
theorem walk_name (hdot : name ≠ ".") (hup : name ≠ "..") :
    t.walk place [name] = .ok found ↔ t.node? place = some .directory ∧
      ¬ name.utf8ByteSize > longestName ∧ place ++ [name] = found := by
  constructor
  · intro hwalk
    have hnode := directory_of_walk_cons hwalk
    rw [walk_cons hnode, if_neg hdot, if_neg hup] at hwalk
    split at hwalk
    · cases hwalk
    · rename_i hshort
      exact ⟨hnode, hshort, Except.ok.inj hwalk⟩
  · rintro ⟨hnode, hshort, rfl⟩
    rw [walk_cons hnode, if_neg hdot, if_neg hup, if_neg hshort]
    rfl

theorem placeOf_of_locate (h : t.locate path = .ok place) : t.placeOf path = place := by
  obtain ⟨⟨⟩, -, hwalk⟩ := bind_eq_ok_iff.mp h
  have hfollow := follow_of_walk hwalk
  rw [follow_append] at hfollow
  split at hfollow
  · exact hfollow
  · exact hfollow

theorem read_eq_ok (h : t.locate path = .ok place) (hfile : t.file? place = some content) :
    t.read path = .ok content := by
  obtain ⟨node, hnode, hcontent⟩ := Option.bind_eq_some_iff.mp hfile
  refine bind_eq_ok_iff.mpr ⟨place, h, ?_⟩
  rw [hnode]
  cases node with
  | file found =>
    cases hcontent
    rfl
  | directory => cases hcontent

/-! ## Where a path would name something -/

/-- The place of a path that names something in a directory. -/
theorem target_eq_some {directory : Place}
    (h : t.target path = .ok (some (directory, name))) :
    checkPath path = .ok () ∧ Path.rawSteps path = (Path.rawSteps path).dropLast ++ [name] ∧
      name ≠ "." ∧ name ≠ ".." ∧
      t.walk (t.origin path) (Path.rawSteps path).dropLast = .ok directory ∧
      t.node? directory = some .directory := by
  obtain ⟨⟨⟩, hcheck, hrest⟩ := bind_eq_ok_iff.mp h
  obtain ⟨found, hwalk, hlast⟩ := bind_eq_ok_iff.mp hrest
  obtain ⟨hwalk, hnode⟩ := walk_concat_dot.mp hwalk
  split at hlast
  · cases hlast
  · rename_i last hlast'
    split at hlast
    · cases hlast
    · rename_i hdots
      cases hlast
      rw [not_or] at hdots
      exact ⟨hcheck, (List.dropLast_append_getLast? _ hlast').symm, hdots.1, hdots.2, hwalk, hnode⟩

/-- Something in a directory is found by its path, unless that ends in a slash
and so asks for a directory. -/
theorem locate_of_target {directory : Place}
    (h : t.target path = .ok (some (directory, name))) (hslash : endsInSlash path = false)
    (hshort : ¬ name.utf8ByteSize > longestName) : t.locate path = .ok (directory ++ [name]) := by
  obtain ⟨hcheck, hsteps, hdot, hup, hwalk, hnode⟩ := target_eq_some h
  have hname : t.walk directory [name] = .ok (directory ++ [name]) :=
    (walk_name hdot hup).mpr ⟨hnode, hshort, rfl⟩
  unfold locate
  rw [hcheck, hslash, hsteps]
  show t.walk (t.origin path) (((Path.rawSteps path).dropLast ++ [name]) ++ []) = _
  rw [List.append_nil, walk_append, hwalk]
  exact hname

/-! ## Trees that keep their directories -/

/-- Every directory is still there. -/
structure KeepsDirectories (t t' : FileTree) : Prop where
  working_eq : t'.working = t.working
  directory_of_directory (place : Place) :
    t.node? place = some .directory → t'.node? place = some .directory

namespace KeepsDirectories

theorem trans {t t₁ t' : FileTree} (h : t.KeepsDirectories t₁) (h' : t₁.KeepsDirectories t') :
    t.KeepsDirectories t' where
  working_eq := h'.working_eq.trans h.working_eq
  directory_of_directory place hnode :=
    h'.directory_of_directory place (h.directory_of_directory place hnode)

theorem origin_eq (h : t.KeepsDirectories t') (path : String) : t'.origin path = t.origin path := by
  unfold origin
  rw [h.working_eq]

theorem placeOf_eq (h : t.KeepsDirectories t') (path : String) :
    t'.placeOf path = t.placeOf path := by
  unfold placeOf
  rw [h.origin_eq]

theorem walk (h : t.KeepsDirectories t') (hwalk : t.walk place steps = .ok found) :
    t'.walk place steps = .ok found := by
  induction steps generalizing place with
  | nil => exact hwalk
  | cons step steps ih =>
    have hnode := directory_of_walk_cons hwalk
    rw [walk_cons hnode] at hwalk
    rw [walk_cons (h.directory_of_directory place hnode)]
    by_cases hdot : step = "."
    · rw [if_pos hdot] at hwalk ⊢
      exact ih hwalk
    · rw [if_neg hdot] at hwalk ⊢
      by_cases hup : step = ".."
      · rw [if_pos hup] at hwalk ⊢
        exact ih hwalk
      · rw [if_neg hup] at hwalk ⊢
        split at hwalk
        · cases hwalk
        · rename_i hshort
          rw [if_neg hshort]
          exact ih hwalk

theorem locate (h : t.KeepsDirectories t') (hlocate : t.locate path = .ok place) :
    t'.locate path = .ok place := by
  obtain ⟨⟨⟩, hcheck, hwalk⟩ := bind_eq_ok_iff.mp hlocate
  refine bind_eq_ok_iff.mpr ⟨(), hcheck, ?_⟩
  rw [h.origin_eq]
  exact h.walk hwalk

end KeepsDirectories

/-! ## Trees with more directories -/

/-- There are directories where there was nothing, and all else is the same. -/
structure AddsDirectories (t t' : FileTree) : Prop where
  working_eq : t'.working = t.working
  node?_eq (place : Place) :
    t'.node? place = t.node? place ∨ t.node? place = none ∧ t'.node? place = some .directory

namespace AddsDirectories

theorem refl (t : FileTree) : t.AddsDirectories t := ⟨rfl, fun _ => .inl rfl⟩

theorem trans {t t₁ t' : FileTree} (h : t.AddsDirectories t₁) (h' : t₁.AddsDirectories t') :
    t.AddsDirectories t' where
  working_eq := h'.working_eq.trans h.working_eq
  node?_eq place := by
    obtain hsame' | ⟨hnone', hdirectory'⟩ := h'.node?_eq place
    · rw [hsame']
      exact h.node?_eq place
    · obtain hsame | ⟨-, hdirectory⟩ := h.node?_eq place
      · exact .inr ⟨hsame ▸ hnone', hdirectory'⟩
      · rw [hdirectory] at hnone'
        cases hnone'

theorem node?_of_some {node : FileNode} (h : t.AddsDirectories t')
    (hnode : t.node? place = some node) : t'.node? place = some node := by
  obtain hsame | ⟨hnone, -⟩ := h.node?_eq place
  · rw [hsame, hnode]
  · rw [hnode] at hnone
    cases hnone

theorem keeps (h : t.AddsDirectories t') : t.KeepsDirectories t' where
  working_eq := h.working_eq
  directory_of_directory _ hnode := h.node?_of_some hnode

/-- The files are the same. -/
theorem file?_eq (h : t.AddsDirectories t') (place : Place) : t'.file? place = t.file? place := by
  unfold file?
  obtain hsame | ⟨hnone, hdirectory⟩ := h.node?_eq place
  · rw [hsame]
  · rw [hnone, hdirectory]
    rfl

end AddsDirectories

theorem addsDirectories_set (hne : place ≠ []) (hfree : t.node? place = none) :
    t.AddsDirectories (t.set place .directory) where
  working_eq := rfl
  node?_eq other := by
    rw [node?_set t hne]
    by_cases hplace : other = place
    · rw [if_pos hplace, hplace]
      exact .inr ⟨hfree, rfl⟩
    · rw [if_neg hplace]
      exact .inl rfl

theorem makeDirectory_eq_ok (h : t.makeDirectory path = .ok t') : t.AddsDirectories t' := by
  obtain ⟨_ | ⟨directory, name⟩, -, hrest⟩ := bind_eq_ok_iff.mp h
  · cases hrest
  · dsimp only at hrest
    split at hrest
    · cases hrest
    · split at hrest
      · cases hrest
      · rename_i hfree
        cases hrest
        exact addsDirectories_set (by simp) (by simpa using hfree)

/-! ## Trees with one more file -/

/-- A file with some content is where a path leads, all else is the same, and
the path leads there still. -/
structure PutsFile (t t' : FileTree) (path : String) (content : ByteArray) : Prop where
  working_eq : t'.working = t.working
  node?_eq (place : Place) :
    t'.node? place = if place = t.placeOf path then some (.file content) else t.node? place
  no_directory : t.node? (t.placeOf path) ≠ some .directory
  locate_eq : t'.locate path = .ok (t.placeOf path)

namespace PutsFile

theorem keeps (h : t.PutsFile t' path content) : t.KeepsDirectories t' where
  working_eq := h.working_eq
  directory_of_directory place hnode := by
    have hne : place ≠ t.placeOf path := by
      rintro rfl
      exact h.no_directory hnode
    rw [h.node?_eq, if_neg hne, hnode]

theorem file?_eq (h : t.PutsFile t' path content) (place : Place) :
    t'.file? place = if place = t.placeOf path then some content else t.file? place := by
  unfold file?
  rw [h.node?_eq]
  by_cases hplace : place = t.placeOf path
  · rw [if_pos hplace, if_pos hplace]
    rfl
  · rw [if_neg hplace, if_neg hplace]

end PutsFile

theorem keepsDirectories_set (hne : place ≠ []) (hfree : t.node? place ≠ some .directory)
    (node : FileNode) : t.KeepsDirectories (t.set place node) where
  working_eq := rfl
  directory_of_directory other hnode := by
    rw [node?_set t hne, if_neg]
    · exact hnode
    · rintro rfl
      exact hfree hnode

theorem putsFile_set (h : t.locate path = .ok place) (hne : place ≠ [])
    (hfree : t.node? place ≠ some .directory) (content : ByteArray) :
    t.PutsFile (t.set place (.file content)) path content := by
  obtain rfl := placeOf_of_locate h
  exact ⟨rfl, node?_set t hne (.file content), hfree,
    (keepsDirectories_set hne hfree (.file content)).locate h⟩

theorem write_eq_ok (h : t.write path content = .ok t') : t.PutsFile t' path content := by
  obtain ⟨_ | ⟨directory, name⟩, htarget, hrest⟩ := bind_eq_ok_iff.mp h
  · cases hrest
  · dsimp only at hrest
    split at hrest
    · cases hrest
    · rename_i hslash
      split at hrest
      · cases hrest
      · rename_i hshort
        split at hrest
        · cases hrest
        · rename_i hkind
          cases hrest
          have hlocate := locate_of_target htarget (by simpa using hslash) hshort
          refine putsFile_set hlocate (by simp) ?_ content
          intro hdirectory
          exact hkind (by rw [hdirectory]; rfl)

end FileTree

end Phrasebook
