-- Paths that are joined to a directory. The steps of both are walked one after
-- the other, so a path without steps back leads to a place below the directory.
import Phrasebook.Proofs.FileTrees

namespace Phrasebook

/-! ## Steps of joined paths -/

namespace Path

variable {directory middle path name : String} {names : List String}

theorem rawSteps_append {first rest : List Char} {path : String}
    (h : path.toList = first ++ '/' :: rest) :
    rawSteps path = rawSteps (String.ofList first) ++ rawSteps (String.ofList rest) := by
  unfold rawSteps
  rw [h, List.splitOn_append_cons_self, List.filter_append, List.map_append, String.toList_ofList,
    String.toList_ofList]

theorem rawSteps_name (h : '/' ∉ name.toList) (hne : name ≠ "") : rawSteps name = [name] := by
  unfold rawSteps
  rw [List.splitOn_eq_singleton h]
  simp [hne]

theorem isAbsolute_of_not_mem (h : '/' ∉ path.toList) : isAbsolute path = false := by
  unfold isAbsolute
  cases hlist : path.toList with
  | nil => rfl
  | cons c rest =>
    apply beq_false_of_ne
    rintro ⟨⟩
    exact h (by simp [hlist])

theorem join_of_relative (hpath : isAbsolute path = false) : join directory path =
    if directory = "" ∨ directory.toList.getLast? = some '/' then directory ++ path
    else directory ++ "/" ++ path := by
  rw [join, hpath, if_neg Bool.false_ne_true]

theorem rawSteps_join (hpath : isAbsolute path = false) :
    rawSteps (join directory path) = rawSteps directory ++ rawSteps path := by
  rw [join_of_relative hpath]
  by_cases hslash : directory.toList.getLast? = some '/'
  · obtain ⟨first, hfirst⟩ := List.getLast?_eq_some_iff.mp hslash
    have hjoined : (directory ++ path).toList = first ++ '/' :: path.toList := by
      simp [hfirst]
    rw [if_pos (.inr hslash), rawSteps_append hjoined, rawSteps_append hfirst]
    simp [rawSteps]
  · by_cases hempty : directory = ""
    · rw [if_pos (.inl hempty), hempty, String.empty_append]
      rfl
    · have hjoined : (directory ++ "/" ++ path).toList =
          directory.toList ++ '/' :: path.toList := by
        simp
      rw [if_neg (by simp [hempty, hslash]), rawSteps_append hjoined]
      simp

theorem isAbsolute_join (hpath : isAbsolute path = false) :
    isAbsolute (join directory path) = isAbsolute directory := by
  rw [join_of_relative hpath]
  cases hlist : directory.toList with
  | nil =>
    obtain rfl := String.toList_eq_nil_iff.mp hlist
    rw [if_pos (.inl rfl), String.empty_append, hpath]
    rfl
  | cons first rest =>
    split
    · simp [isAbsolute, hlist]
    · simp [isAbsolute, hlist]

/-- A directory is written out in what is joined to it. -/
theorem sublist_join (hpath : isAbsolute path = false) :
    directory.toList.Sublist (join directory path).toList := by
  rw [join_of_relative hpath]
  split
  · rw [String.toList_append]
    exact List.sublist_append_left _ _
  · rw [String.append_assoc, String.toList_append]
    exact List.sublist_append_left _ _

theorem steps_of_rawSteps_cons {first : String} {rest : List String}
    (hraw : rawSteps path = first :: rest) : steps path =
      (if first = "." ∧ isAbsolute path then [] else [first]) ++ rest.filter (· ≠ ".") := by
  rw [steps, hraw]

theorem steps_of_head?_ne (hdot : (rawSteps path).head? ≠ some ".") :
    steps path = (rawSteps path).filter (· ≠ ".") := by
  cases hraw : rawSteps path with
  | nil =>
    rw [steps, hraw]
    rfl
  | cons first rest =>
    have hfirst : first ≠ "." := fun h => hdot (by rw [hraw, h]; rfl)
    rw [steps_of_rawSteps_cons hraw, if_neg (fun h => hfirst h.1),
      List.filter_cons_of_pos (by simp [hfirst])]
    rfl

/-- The steps of a joined path are those of the directory and those of the path. -/
theorem steps_join (hpath : isAbsolute path = false) (hdot : (rawSteps path).head? ≠ some ".") :
    steps (join directory path) = steps directory ++ steps path := by
  have hjoin : rawSteps (join directory path) = _ := rawSteps_join hpath
  cases hraw : rawSteps directory with
  | nil =>
    rw [hraw, List.nil_append] at hjoin
    rw [steps_of_head?_ne hdot, steps_of_head?_ne (hjoin ▸ hdot), hjoin, steps, hraw]
    rfl
  | cons first rest =>
    rw [hraw, List.cons_append] at hjoin
    rw [steps_of_head?_ne hdot, steps_of_rawSteps_cons hraw, steps_of_rawSteps_cons hjoin,
      isAbsolute_join hpath, List.filter_append, List.append_assoc]

/-- Joining one path after the other is joining both at once. -/
theorem join_join (hmiddle : isAbsolute middle = false) (hpath : isAbsolute path = false) :
    join (join directory middle) path = join directory (join middle path) := by
  have hrelative : isAbsolute (join middle path) = false := by
    rw [isAbsolute_join hpath, hmiddle]
  rw [join_of_relative hmiddle, join_of_relative hrelative]
  by_cases hempty : middle = ""
  · subst hempty
    have hjoin : join "" path = path := by
      rw [join_of_relative hpath, if_pos (.inl rfl), String.empty_append]
    rw [hjoin, String.append_empty, String.append_empty]
    split
    · rename_i hslash
      rw [join_of_relative hpath, if_pos hslash]
    · have hslash : (directory ++ "/").toList.getLast? = some '/' := by simp
      rw [join_of_relative hpath, if_pos (.inr hslash)]
  · have hlast (before : String) : (before ++ middle).toList.getLast? = middle.toList.getLast? := by
      rw [String.toList_append, List.getLast?_append_of_ne_nil _ (by simpa using hempty)]
    have hjoined (before : String) : join (before ++ middle) path = before ++ join middle path := by
      have hnonempty : before ++ middle ≠ "" := by simp [hempty]
      rw [join_of_relative hpath, join_of_relative hpath, hlast]
      simp only [hempty, hnonempty, false_or]
      split
      · exact String.append_assoc
      · simp only [String.append_assoc]
    split
    · exact hjoined directory
    · exact hjoined (directory ++ "/")

/-- A path does not open with a dot step if its first character is neither a
slash nor a dot. -/
theorem head?_rawSteps_ne {c : Char} {rest : List Char} (hlist : path.toList = c :: rest)
    (hslash : c ≠ '/') (hdot : c ≠ '.') : (rawSteps path).head? ≠ some "." := by
  obtain ⟨first, pieces, hpieces⟩ := List.exists_cons_of_ne_nil (List.splitOn_ne_nil '/' rest)
  have hsplit : path.toList.splitOn '/' = (c :: first) :: pieces := by
    rw [hlist, List.splitOn_cons_eq_if_modifyHead, if_neg (by simpa using hslash), hpieces]
    rfl
  intro hhead
  rw [rawSteps, hsplit, List.filter_cons_of_pos (by simp), List.map_cons, List.head?_cons] at hhead
  have hchars := congrArg String.toList (Option.some.inj hhead)
  rw [String.toList_ofList] at hchars
  cases hchars
  exact hdot rfl

/-! ## Names with an ending -/

section

variable {ending : String}

/-- A name with an ending of some length is a step into a directory. -/
theorem name_append_ne (name : String) (hlong : 2 < ending.length) :
    name ++ ending ≠ "" ∧ name ++ ending ≠ "." ∧ name ++ ending ≠ ".." := by
  have hlength : 2 < (name ++ ending).length := by
    rw [String.length_append]
    omega
  refine ⟨fun h => ?_, fun h => ?_, fun h => ?_⟩
  all_goals exact absurd (h ▸ hlength) (by decide)

end

/-! ## Going down -/

/-- A path that goes down from a directory by some names: what is joined to the
directory has these for its steps, and no name is a step to the same directory
or back. -/
structure GoesDown (directory path : String) (names : List String) : Prop where
  join_eq : ∃ relative, isAbsolute relative = false ∧ steps relative = names ∧
    path = join directory relative
  no_dot : "." ∉ names
  no_up : ".." ∉ names

theorem goesDown_join (hpath : isAbsolute path = false)
    (hdot : (rawSteps path).head? ≠ some ".") (hup : ".." ∉ rawSteps path) :
    GoesDown directory (join directory path) (steps path) where
  join_eq := ⟨path, hpath, rfl, rfl⟩
  no_dot := by simp [steps_of_head?_ne hdot]
  no_up := by
    rw [steps_of_head?_ne hdot]
    exact fun hmem => hup (List.mem_filter.mp hmem).1

/-- A name with an ending goes down by one step. -/
theorem goesDown_join_name {ending : String} (hname : '/' ∉ name.toList)
    (hending : '/' ∉ ending.toList) (hlong : 2 < ending.length) :
    GoesDown directory (join directory (name ++ ending)) [name ++ ending] := by
  have hslash : '/' ∉ (name ++ ending).toList := by simp [hname, hending]
  obtain ⟨hempty, hdot, hup⟩ := name_append_ne name hlong
  have hraw := rawSteps_name hslash hempty
  have hhead : (rawSteps (name ++ ending)).head? ≠ some "." := by simpa [hraw] using hdot
  have hsteps : steps (name ++ ending) = [name ++ ending] := by
    rw [steps_of_head?_ne hhead, hraw]
    exact List.filter_cons_of_pos (by simp [hdot])
  have hdown : GoesDown directory (join directory (name ++ ending)) _ :=
    goesDown_join (isAbsolute_of_not_mem hslash) hhead (by simpa [hraw] using hup.symm)
  rwa [hsteps] at hdown

theorem head?_rawSteps_ne_of_not_mem_steps (hpath : isAbsolute path = false)
    (hdot : "." ∉ steps path) : (rawSteps path).head? ≠ some "." := by
  intro hhead
  obtain ⟨rest, hraw⟩ := List.head?_eq_some_iff.mp hhead
  apply hdot
  rw [steps_of_rawSteps_cons hraw, hpath]
  simp

namespace GoesDown

variable {more : List String}

theorem trans (h : GoesDown directory middle names) (h' : GoesDown middle path more) :
    GoesDown directory path (names ++ more) where
  join_eq := by
    obtain ⟨first, hfirst, rfl, rfl⟩ := h.join_eq
    obtain ⟨second, hsecond, rfl, rfl⟩ := h'.join_eq
    refine ⟨join first second, ?_, ?_, join_join hfirst hsecond⟩
    · rw [isAbsolute_join hsecond, hfirst]
    · exact steps_join hsecond (head?_rawSteps_ne_of_not_mem_steps hsecond h'.no_dot)
  no_dot := by simp [h.no_dot, h'.no_dot]
  no_up := by simp [h.no_up, h'.no_up]

/-- In every tree the path leads below the place of the directory. -/
theorem placeOf_eq (h : GoesDown directory path names) (t : FileTree) :
    t.placeOf path = t.placeOf directory ++ names := by
  obtain ⟨relative, hrelative, rfl, rfl⟩ := h.join_eq
  have hsteps := steps_of_head?_ne (head?_rawSteps_ne_of_not_mem_steps hrelative h.no_dot)
  have hup : ".." ∉ rawSteps relative := by
    intro hmem
    apply h.no_up
    rw [hsteps]
    exact List.mem_filter.mpr ⟨hmem, by decide⟩
  unfold FileTree.placeOf FileTree.origin
  rw [isAbsolute_join hrelative, rawSteps_join hrelative, FileTree.follow_append,
    FileTree.follow_eq_append hup, hsteps]

end GoesDown

end Path

end Phrasebook
