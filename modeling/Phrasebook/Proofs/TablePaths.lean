-- Where the generated files go. A table goes to the place that the directory
-- and the steps of its language lead to, and codes that lead to the same place
-- differ in slashes and dots only.
import Phrasebook.Naming
import Phrasebook.Proofs.JoinedPaths
import Phrasebook.Proofs.LanguageCodes

namespace Phrasebook

theorem flatMap_filter_eq {α β : Type} {p : α → Bool} {f : α → List β} {l : List α}
    (h : ∀ a ∈ l, p a = false → f a = []) : (l.filter p).flatMap f = l.flatMap f := by
  induction l with
  | nil => rfl
  | cons b l ih =>
    obtain ⟨hb, hl⟩ := List.forall_mem_cons.mp h
    cases hp : p b with
    | true => rw [List.filter_cons_of_pos hp, List.flatMap_cons, List.flatMap_cons, ih hl]
    | false =>
      rw [List.filter_cons_of_neg (by simp [hp]), List.flatMap_cons, hb hp, ih hl, List.nil_append]

/-! ## Directories of languages -/

namespace Language

/-- A step back before the ending is one in the code. -/
theorem upStep_infix_of_append {code : List Char}
    (h : upStep <:+: code ++ ".lproj/".toList) : upStep <:+: code := by
  obtain ⟨before, after, heq⟩ := h
  rcases List.append_eq_append_iff.mp heq with ⟨more, hcode, -⟩ | ⟨more, hend, hafter⟩
  · exact ⟨before, more, hcode.symm⟩
  · -- The ending holds a slash only as its last character, after a letter.
    have hmore : more ∈ (".lproj/".toList).inits := (List.mem_inits _ _).mpr ⟨after, hafter.symm⟩
    have hlast := congrArg List.reverse hend
    simp only [String.reduceToList, List.inits, List.map_cons, List.map_nil, List.mem_cons,
      List.not_mem_nil, or_false] at hmore
    rcases hmore with rfl | rfl | rfl | rfl | rfl | rfl | rfl | rfl
    · exact ⟨before, [], by simpa using hend⟩
    all_goals simp [upStep] at hlast

theorem up_not_mem_rawSteps {code : String} (h : isCode code = true) :
    ".." ∉ Path.rawSteps (code ++ ".lproj") := by
  intro hmem
  obtain ⟨step, hstep, heq⟩ := List.mem_map.mp hmem
  have hchars : step = ['.', '.'] := by
    rw [← String.toList_ofList (l := step), heq]
    rfl
  have hsplit := (List.mem_filter.mp hstep).1
  obtain ⟨first, rest, hpieces, hfirst, hrest⟩ :=
    (cutAt_splitOn '/' (code ++ ".lproj").toList).between_marks
  rw [hpieces, hchars] at hsplit
  rcases List.mem_cons.mp hsplit with hfirst' | hrest'
  · obtain ⟨c, tail, hcode, halpha⟩ := exists_head_of_isCode h
    rw [← hfirst', String.toList_append, hcode] at hfirst
    obtain ⟨rfl, -⟩ := List.cons_prefix_cons.mp hfirst
    exact absurd halpha (by decide)
  · have hin := hrest _ hrest'
    rw [String.toList_append, List.append_assoc] at hin
    exact isCode_not_upStep h (upStep_infix_of_append hin)

/-- A code is no path from the root. -/
theorem isAbsolute_of_isCode {code : String} (h : isCode code = true) :
    Path.isAbsolute (code ++ ".lproj") = false := by
  obtain ⟨c, rest, hcode, halpha⟩ := exists_head_of_isCode h
  rw [Path.isAbsolute, String.toList_append, hcode, List.cons_append, List.head?_cons]
  apply beq_false_of_ne
  rintro ⟨⟩
  exact absurd halpha (by decide)

/-- A code does not open with a dot step. -/
theorem head?_rawSteps_ne {code : String} (h : isCode code = true) :
    (Path.rawSteps (code ++ ".lproj")).head? ≠ some "." := by
  obtain ⟨c, rest, hcode, halpha⟩ := exists_head_of_isCode h
  have hlist : (code ++ ".lproj").toList = c :: (rest ++ ".lproj".toList) := by
    rw [String.toList_append, hcode, List.cons_append]
  apply Path.head?_rawSteps_ne hlist
  · rintro rfl
    exact absurd halpha (by decide)
  · rintro rfl
    exact absurd halpha (by decide)

/-- The directories that the table of a language goes to, one in the other. -/
def directorySteps (code : String) : List String :=
  (Path.rawSteps (code ++ ".lproj")).filter (· ≠ ".")

theorem directorySteps_of_not_mem {code : String} (h : '/' ∉ code.toList) :
    directorySteps code = [code ++ ".lproj"] := by
  have hlength : 1 < (code ++ ".lproj").length := by
    rw [String.length_append]
    exact Nat.lt_add_left _ (by decide)
  have hempty : code ++ ".lproj" ≠ "" := fun h => absurd (h ▸ hlength) (by decide)
  have hdot : code ++ ".lproj" ≠ "." := fun h => absurd (h ▸ hlength) (by decide)
  rw [directorySteps, Path.rawSteps_name (by simpa using h) hempty]
  exact List.filter_cons_of_pos (by simp [hdot])

/-- Codes without slashes lead to directories of their own. -/
theorem directorySteps_ne {code other : String} (h : '/' ∉ code.toList) (h' : '/' ∉ other.toList)
    (hne : code ≠ other) : directorySteps code ≠ directorySteps other := by
  rw [directorySteps_of_not_mem h, directorySteps_of_not_mem h']
  intro hsteps
  apply hne
  have hnames := congrArg String.toList (List.singleton_inj.mp hsteps)
  rw [String.toList_append, String.toList_append] at hnames
  exact String.toList_inj.mp (List.append_cancel_right hnames)

/-- Whatever is neither a slash nor a dot. -/
def isPlainChar (c : Char) : Bool := c != '/' && c != '.'

/-- The steps hold all of a code but for slashes and dots. -/
theorem flatMap_directorySteps (code : String) :
    (directorySteps code).flatMap (·.toList.filter isPlainChar) =
      (code ++ ".lproj").toList.filter isPlainChar := by
  have hdots : ∀ step ∈ Path.rawSteps (code ++ ".lproj"), decide (step ≠ ".") = false →
      step.toList.filter isPlainChar = [] := by
    intro step _ hstep
    rw [of_not_not (of_decide_eq_false hstep)]
    rfl
  have hempties : ∀ piece ∈ (code ++ ".lproj").toList.splitOn '/', (!piece.isEmpty) = false →
      (String.ofList piece).toList.filter isPlainChar = [] := by
    intro piece _ hpiece
    obtain rfl : piece = [] := by simpa using hpiece
    rfl
  have hmarks : ((code ++ ".lproj").toList.splitOn '/').flatten =
      (code ++ ".lproj").toList.filter (· != '/') := (cutAt_splitOn '/' _).flatten_eq
  rw [directorySteps, flatMap_filter_eq hdots, Path.rawSteps, List.flatMap_map,
    flatMap_filter_eq hempties]
  simp only [String.toList_ofList]
  rw [List.flatMap_def, ← List.filter_flatten, hmarks, List.filter_filter]
  apply List.filter_congr
  intro c _
  unfold isPlainChar
  cases c != '/'
  · rfl
  · rw [Bool.true_and, Bool.and_true]

/-- Codes that lead to the same directory differ in slashes and dots only. -/
theorem filter_eq_of_directorySteps_eq {code other : String}
    (h : directorySteps code = directorySteps other) :
    code.toList.filter isPlainChar = other.toList.filter isPlainChar := by
  have hplain := flatMap_directorySteps code
  rw [h, flatMap_directorySteps other, String.toList_append, String.toList_append,
    List.filter_append, List.filter_append] at hplain
  exact (List.append_cancel_right hplain).symm

end Language

/-! ## Paths of the outputs -/

namespace Naming

variable {n : Naming} {directory code : String}

theorem goesDown_languageDirectory (hcode : Language.isCode code = true) :
    Path.GoesDown directory (Path.join directory (code ++ ".lproj"))
      (Language.directorySteps code) := by
  have hhead := Language.head?_rawSteps_ne hcode
  have hdown : Path.GoesDown directory (Path.join directory (code ++ ".lproj")) _ :=
    Path.goesDown_join (Language.isAbsolute_of_isCode hcode) hhead
      (Language.up_not_mem_rawSteps hcode)
  rwa [Path.steps_of_head?_ne hhead] at hdown

/-- A table is below the directories of its language. -/
theorem goesDown_tablePath (hcode : Language.isCode code = true)
    (hname : '/' ∉ n.tableName.toList) :
    Path.GoesDown directory (n.tablePath directory code)
      (Language.directorySteps code ++ [n.tableName ++ ".strings"]) :=
  (goesDown_languageDirectory hcode).trans
    (Path.goesDown_join_name hname (by decide) (by decide))

theorem goesDown_modulePath (hname : '/' ∉ n.typeName.toList) :
    Path.GoesDown directory (n.modulePath directory) [n.typeName ++ ".swift"] :=
  Path.goesDown_join_name hname (by decide) (by decide)

end Naming

end Phrasebook
