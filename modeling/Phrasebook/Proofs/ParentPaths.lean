-- The paths of the directories above a path. They are written anew from the
-- steps, and stand character for character in the path itself.
import Phrasebook.Proofs.Identifiers
import Phrasebook.Proofs.JoinedPaths
import Phrasebook.Proofs.ListPieces

namespace Phrasebook

/-! ## Pieces of a text -/

section

variable {α : Type} {l m : List (List α)} {glue : List α}

/-- Some of the pieces, joined, are a part of all of them, joined. -/
theorem sublist_intercalate (h : l.Sublist m) :
    (glue.intercalate l).Sublist (glue.intercalate m) := by
  induction h with
  | slnil => exact .refl _
  | @cons l m piece hsub ih =>
    cases m with
    | nil =>
      rw [List.sublist_nil.mp hsub]
      exact List.nil_sublist _
    | cons next m =>
      rw [List.intercalate_cons_cons, List.append_assoc]
      exact ih.trans ((List.sublist_append_right _ _).trans (List.sublist_append_right _ _))
  | @cons_cons l m piece hsub ih =>
    cases l with
    | nil =>
      cases m with
      | nil => exact .refl _
      | cons next m =>
        rw [List.intercalate_singleton, List.intercalate_cons_cons, List.append_assoc]
        exact List.sublist_append_left _ _
    | cons first l =>
      obtain ⟨next, m, rfl⟩ := List.exists_cons_of_ne_nil (l := m) (by rintro rfl; cases hsub)
      rw [List.intercalate_cons_cons, List.intercalate_cons_cons]
      exact ih.append_left _

end

namespace Path

variable {path step : String} {names : List String} {absolute : Bool}

/-! ## Names -/

/-- A text that can be a step: not empty, and without a slash. -/
def IsStep (step : String) : Prop := step ≠ "" ∧ '/' ∉ step.toList

theorem isStep_of_mem_rawSteps (h : step ∈ rawSteps path) : IsStep step := by
  obtain ⟨piece, hpiece, rfl⟩ := List.mem_map.mp h
  obtain ⟨hsplit, hsome⟩ := List.mem_filter.mp hpiece
  refine ⟨by simpa using hsome, ?_⟩
  rw [String.toList_ofList]
  exact not_mem_of_mem_splitOn hsplit

/-! ## Written steps -/

theorem rawSteps_intercalate (h : ∀ name ∈ names, IsStep name) :
    rawSteps ("/".intercalate names) = names := by
  by_cases hempty : names = []
  · subst hempty
    rfl
  · have hsplit : (("/".intercalate names).toList.splitOn '/').map String.ofList = names :=
      splitOn_intercalate rfl hempty fun name hname => (h name hname).2
    have hsome : ∀ piece ∈ ("/".intercalate names).toList.splitOn '/',
        (!piece.isEmpty) = true := by
      intro piece hpiece
      have hname := h (String.ofList piece) (hsplit ▸ List.mem_map_of_mem hpiece)
      simpa using hname.1
    rw [rawSteps, List.filter_eq_self.mpr hsome, hsplit]

theorem rawSteps_ofSteps (h : ∀ name ∈ names, IsStep name) :
    rawSteps (ofSteps absolute names) = names := by
  cases absolute with
  | false =>
    show rawSteps ("" ++ "/".intercalate names) = names
    rw [String.empty_append, rawSteps_intercalate h]
  | true =>
    have hlist : (ofSteps true names).toList = [] ++ '/' :: ("/".intercalate names).toList := by
      simp [ofSteps]
    rw [rawSteps_append hlist, String.ofList_toList, rawSteps_intercalate h]
    rfl

theorem isAbsolute_ofSteps (h : ∀ name ∈ names, IsStep name) :
    isAbsolute (ofSteps absolute names) = absolute := by
  cases absolute with
  | true => simp [isAbsolute, ofSteps]
  | false =>
    show isAbsolute ("" ++ "/".intercalate names) = false
    rw [String.empty_append]
    cases names with
    | nil => rfl
    | cons first rest =>
      obtain ⟨hempty, hslash⟩ := h first List.mem_cons_self
      obtain ⟨c, more, hfirst⟩ := List.exists_cons_of_ne_nil (l := first.toList) (by simpa using hempty)
      rw [isAbsolute, String.toList_intercalate, List.map_cons, hfirst,
        List.intercalate_cons_cons_left, List.head?_cons]
      apply beq_false_of_ne
      rintro ⟨⟩
      exact hslash (by simp [hfirst])

/-- Some of the steps of a path, written anew, are a part of it. -/
theorem sublist_ofSteps (h : names.Sublist (rawSteps path)) :
    (ofSteps (isAbsolute path) names).toList.Sublist path.toList := by
  have hmap := h.map String.toList
  have hpieces : (names.map String.toList).Sublist
      ((path.toList.splitOn '/').filter (!·.isEmpty)) := by
    rw [rawSteps, List.map_map] at hmap
    simpa [Function.comp_def] using hmap
  have hjoined {l : List Char} (hsub : (names.map String.toList).Sublist (l.splitOn '/')) :
      ("/".intercalate names).toList.Sublist l := by
    rw [String.toList_intercalate]
    have hall : (['/'].intercalate (names.map String.toList)).Sublist _ := sublist_intercalate hsub
    rwa [List.intercalate_splitOn] at hall
  cases habsolute : isAbsolute path with
  | false =>
    show ("" ++ "/".intercalate names).toList.Sublist path.toList
    rw [String.empty_append]
    exact hjoined (hpieces.trans List.filter_sublist)
  | true =>
    obtain ⟨rest, hrest⟩ := List.head?_eq_some_iff.mp (eq_of_beq habsolute)
    rw [hrest, List.splitOn_cons_eq_if_modifyHead, if_pos (by rfl),
      List.filter_cons_of_neg (by simp)] at hpieces
    have hlist : (ofSteps true names).toList = '/' :: ("/".intercalate names).toList := by
      simp [ofSteps]
    rw [hlist, hrest]
    exact (hjoined (hpieces.trans List.filter_sublist)).cons_cons '/'

/-! ## Parents -/

theorem sublist_steps (path : String) : (steps path).Sublist (rawSteps path) := by
  cases hraw : rawSteps path with
  | nil =>
    rw [steps, hraw]
  | cons first rest =>
    rw [steps_of_rawSteps_cons hraw]
    split
    · exact List.filter_sublist.cons first
    · exact List.filter_sublist.cons_cons first

/-- The nearest of the directories above has all steps but the last, if it has a
path of its own. -/
theorem parents_eq (h : steps path = names ++ [step]) :
    parents path = [] ∨ ∃ outer, parents path = ofSteps (isAbsolute path) names :: outer := by
  have hsome : ∀ name ∈ names, IsStep name := by
    intro name hname
    have hmem : name ∈ steps path := by simp [h, hname]
    exact isStep_of_mem_rawSteps ((sublist_steps path).subset hmem)
  have hall : parents path = (ofSteps (isAbsolute path) names :: (List.range names.length).reverse.map
      fun n => ofSteps (isAbsolute path) ((steps path).take n)).filter (· ≠ "") := by
    have hlength : (steps path).length = names.length + 1 := by simp [h]
    have htake : (steps path).take names.length = names := by simp [h]
    unfold parents
    dsimp only
    rw [hlength, List.range_succ, List.reverse_append, List.reverse_singleton, List.singleton_append,
      List.map_cons, htake]
  by_cases hempty : ofSteps (isAbsolute path) names = ""
  · -- No step is left, and the path does not start from the root.
    have hnames : rawSteps (ofSteps (isAbsolute path) names) = names := rawSteps_ofSteps hsome
    rw [hempty] at hnames
    obtain rfl : [] = names := hnames
    left
    rw [hall, hempty]
    rfl
  · right
    rw [hall, List.filter_cons_of_pos (by simp [hempty])]
    exact ⟨_, rfl⟩

end Path

end Phrasebook
