-- Lists that are cut at marks. The pieces hold what stands between the marks, in its
-- order, and whatever holds no mark is inside one piece.
import Mathlib.Data.List.Infix

namespace Phrasebook

/-- The pieces of a list that is cut at its marks, from the left. -/
inductive CutAt {α : Type} (p : α → Bool) : List α → List (List α) → Prop
  | nil : CutAt p [] [[]]
  | mark {a : α} {l : List α} {pieces : List (List α)} :
      p a = true → CutAt p l pieces → CutAt p (a :: l) ([] :: pieces)
  | plain {a : α} {l first : List α} {rest : List (List α)} :
      p a = false → CutAt p l (first :: rest) → CutAt p (a :: l) ((a :: first) :: rest)

variable {α β : Type} {p : α → Bool} {a : α} {l w first piece : List α}
  {pieces rest : List (List α)}

/-! ## Every list has its pieces -/

theorem cutAt_splitOnP (p : α → Bool) (l : List α) : CutAt p l (l.splitOnP p) := by
  induction l with
  | nil => exact .nil
  | cons a l ih =>
    rw [List.splitOnP_cons_eq_if_modifyHead]
    cases ha : p a with
    | true => exact .mark ha ih
    | false =>
      obtain ⟨first, rest, hpieces⟩ := List.exists_cons_of_ne_nil (List.splitOnP_ne_nil p l)
      rw [hpieces] at ih ⊢
      exact .plain ha ih

theorem cutAt_splitOn [BEq α] (mark : α) (l : List α) : CutAt (· == mark) l (l.splitOn mark) :=
  cutAt_splitOnP _ l

namespace CutAt

/-! ## What the pieces hold -/

theorem of_mem (h : CutAt p l pieces) (hpiece : piece ∈ pieces) (ha : a ∈ piece) :
    a ∈ l ∧ p a = false := by
  induction h generalizing piece with
  | nil =>
    rw [List.mem_singleton.mp hpiece] at ha
    cases ha
  | mark _ _ ih =>
    rcases List.mem_cons.mp hpiece with rfl | hlater
    · cases ha
    · exact (ih hlater ha).imp_left (List.mem_cons_of_mem _)
  | plain hb _ ih =>
    rcases List.mem_cons.mp hpiece with rfl | hlater
    · rcases List.mem_cons.mp ha with rfl | hfirst
      · exact ⟨List.mem_cons_self, hb⟩
      · exact (ih List.mem_cons_self hfirst).imp_left (List.mem_cons_of_mem _)
    · exact (ih (List.mem_cons_of_mem _ hlater) ha).imp_left (List.mem_cons_of_mem _)

theorem exists_first (h : CutAt p l pieces) (hw : ∀ a ∈ w, p a = false) (hin : w <+: l) :
    ∃ first rest, pieces = first :: rest ∧ w <+: first := by
  induction h generalizing w with
  | nil => exact ⟨[], [], rfl, hin⟩
  | mark ha _ _ =>
    cases w with
    | nil => exact ⟨_, _, rfl, List.nil_prefix⟩
    | cons b w =>
      obtain ⟨rfl, -⟩ := List.cons_prefix_cons.mp hin
      exact absurd ha (by simp [hw b List.mem_cons_self])
  | plain _ _ ih =>
    cases w with
    | nil => exact ⟨_, _, rfl, List.nil_prefix⟩
    | cons b w =>
      obtain ⟨rfl, hrest⟩ := List.cons_prefix_cons.mp hin
      obtain ⟨first, rest, heq, hprefix⟩ := ih (List.forall_mem_cons.mp hw).2 hrest
      cases heq
      exact ⟨_, _, rfl, List.cons_prefix_cons.mpr ⟨rfl, hprefix⟩⟩

/-- What holds no mark is in a piece. -/
theorem exists_piece (h : CutAt p l pieces) (hw : ∀ a ∈ w, p a = false) (hin : w <:+: l) :
    ∃ piece ∈ pieces, w <:+: piece := by
  have hopens : ∀ {m : List α} {found : List (List α)}, CutAt p m found → w <+: m →
      ∃ piece ∈ found, w <:+: piece := by
    intro m found hcut hstart
    obtain ⟨first, rest, rfl, hprefix⟩ := hcut.exists_first hw hstart
    exact ⟨first, List.mem_cons_self, hprefix.isInfix⟩
  induction h with
  | nil => exact ⟨[], List.mem_cons_self, hin⟩
  | mark ha hcut ih =>
    rcases List.infix_cons_iff.mp hin with hstart | hlater
    · exact hopens (.mark ha hcut) hstart
    · obtain ⟨piece, hpiece, hinside⟩ := ih hlater
      exact ⟨piece, List.mem_cons_of_mem _ hpiece, hinside⟩
  | @plain b l first rest ha hcut ih =>
    rcases List.infix_cons_iff.mp hin with hstart | hlater
    · exact hopens (.plain ha hcut) hstart
    · obtain ⟨piece, hpiece, hinside⟩ := ih hlater
      rcases List.mem_cons.mp hpiece with rfl | hmem
      · exact ⟨b :: piece, List.mem_cons_self, hinside.trans (List.suffix_cons b piece).isInfix⟩
      · exact ⟨piece, List.mem_cons_of_mem _ hmem, hinside⟩

theorem exists_mem (h : CutAt p l pieces) (ha : a ∈ l) (hp : p a = false) :
    ∃ piece ∈ pieces, a ∈ piece := by
  obtain ⟨piece, hpiece, hin⟩ :=
    h.exists_piece (List.forall_mem_singleton.mpr hp) ((List.singleton_infix_iff a l).mpr ha)
  exact ⟨piece, hpiece, (List.singleton_infix_iff a piece).mp hin⟩

theorem flatten_eq (h : CutAt p l pieces) : pieces.flatten = l.filter (!p ·) := by
  induction h with
  | nil => rfl
  | mark ha _ ih =>
    rw [List.filter_cons_of_neg (by simp [ha]), ← ih, List.flatten_cons, List.nil_append]
  | plain ha _ ih =>
    rw [List.filter_cons_of_pos (by simp [ha]), ← ih, List.flatten_cons, List.flatten_cons,
      List.cons_append]

theorem length_eq (h : CutAt p l pieces) : pieces.length = l.countP p + 1 := by
  induction h with
  | nil => rfl
  | mark ha _ ih => rw [List.countP_cons_of_pos ha, List.length_cons, ih]
  | plain ha _ ih =>
    rw [List.countP_cons_of_neg (by simp [ha]), ← ih, List.length_cons, List.length_cons]

/-- The first piece ends at a mark, and every other one stands between two, if a
mark is put at the end. -/
theorem between_marks [BEq α] [LawfulBEq α] {mark : α} (h : CutAt (· == mark) l pieces) :
    ∃ first rest, pieces = first :: rest ∧ first ++ [mark] <+: l ++ [mark] ∧
      ∀ piece ∈ rest, mark :: (piece ++ [mark]) <:+: l ++ [mark] := by
  induction h with
  | nil => exact ⟨[], [], rfl, List.prefix_rfl, by simp⟩
  | @mark b l _ hb _ ih =>
    obtain ⟨first, rest, rfl, hfirst, hrest⟩ := ih
    obtain rfl := eq_of_beq hb
    refine ⟨_, _, rfl, by simp, List.forall_mem_cons.mpr ⟨?_, fun piece hpiece => ?_⟩⟩
    · exact (List.cons_prefix_cons.mpr ⟨rfl, hfirst⟩).isInfix
    · exact (hrest piece hpiece).trans (List.suffix_cons b _).isInfix
  | @plain b l _ _ _ _ ih =>
    obtain ⟨first, rest, heq, hfirst, hrest⟩ := ih
    cases heq
    refine ⟨_, _, rfl, List.cons_prefix_cons.mpr ⟨rfl, hfirst⟩, fun piece hpiece => ?_⟩
    exact (hrest piece hpiece).trans (List.suffix_cons b _).isInfix

/-! ## Pieces of lists that are put together -/

theorem append (hw : ∀ a ∈ w, p a = false) (h : CutAt p l (first :: rest)) :
    CutAt p (w ++ l) ((w ++ first) :: rest) := by
  induction w with
  | nil => exact h
  | cons b w ih =>
    obtain ⟨hb, hrest⟩ := List.forall_mem_cons.mp hw
    exact .plain hb (ih hrest)

/-- A list in which each mark becomes one mark is cut at the same places. -/
theorem flatMap {q : β → Bool} {f : α → List β} (h : CutAt p l pieces)
    (hmark : ∀ a, p a = true → ∃ b, f a = [b] ∧ q b = true)
    (hplain : ∀ a, p a = false → ∀ b ∈ f a, q b = false) :
    CutAt q (l.flatMap f) (pieces.map (·.flatMap f)) := by
  induction h with
  | nil => exact .nil
  | mark ha _ ih =>
    obtain ⟨b, hb, hq⟩ := hmark _ ha
    rw [List.flatMap_cons, hb]
    exact .mark hq ih
  | plain ha _ ih => exact .append (hplain _ ha) ih

end CutAt

theorem not_mem_of_mem_splitOn [BEq α] [LawfulBEq α] {mark : α} (h : piece ∈ l.splitOn mark) :
    mark ∉ piece := by
  intro hmem
  have hplain := ((cutAt_splitOn mark l).of_mem h hmem).2
  simp at hplain

end Phrasebook
