-- Line breaks. A reader of Swift ends a line at a line feed, at a carriage return and at
-- both together. Text that is put on one line loses its line feeds, and keeps exactly the
-- carriage returns that stand alone inside it.
import Mathlib.Data.List.DropRight
import Phrasebook.Proofs.ParentPaths
import Phrasebook.Text.Blank

namespace Phrasebook.Text

/-! ## Lines of a file -/

def IsBreak (c : Char) : Prop := c = '\n' ∨ c = '\r'

instance (c : Char) : Decidable (IsBreak c) := inferInstanceAs (Decidable (_ ∨ _))

theorem IsBreak.ne {c d : Char} (hc : IsBreak c) (hd : ¬ IsBreak d) : c ≠ d := by
  rintro rfl
  exact hd hc

/-- A text without line breaks. -/
def IsUnbroken (cs : List Char) : Prop := ∀ c, IsBreak c → c ∉ cs

theorem IsBreak.not_mem {c : Char} {cs : List Char} (hc : IsBreak c) (h : IsUnbroken cs) :
    c ∉ cs := h c hc

/-- The lines of a text that a line feed, a carriage return, or both in this order end. -/
def physicalLines : List Char → List (List Char)
  | [] => [[]]
  | '\r' :: '\n' :: rest => [] :: physicalLines rest
  | c :: rest =>
    if IsBreak c then [] :: physicalLines rest else (physicalLines rest).modifyHead (c :: ·)

variable {c : Char} {cs before after : List Char}

theorem physicalLines_ne_nil (cs : List Char) : physicalLines cs ≠ [] := by
  fun_induction physicalLines cs with
  | case1 => simp
  | case2 rest ih => simp
  | case3 c rest hpair hbreak ih => simp
  | case4 c rest hpair hbreak ih =>
    rw [ne_eq, ← List.length_eq_zero_iff, List.length_modifyHead, List.length_eq_zero_iff]
    exact ih

theorem isUnbroken_iff : IsUnbroken cs ↔ '\n' ∉ cs ∧ '\r' ∉ cs := by
  simp [IsUnbroken, IsBreak, or_imp, forall_and]

instance (cs : List Char) : Decidable (IsUnbroken cs) := decidable_of_iff _ isUnbroken_iff.symm

theorem isUnbroken_cons_iff : IsUnbroken (c :: cs) ↔ ¬ IsBreak c ∧ IsUnbroken cs := by
  constructor
  · intro h
    exact ⟨fun hc => h c hc List.mem_cons_self,
      fun d hd hmem => h d hd (List.mem_cons_of_mem c hmem)⟩
  · rintro ⟨hc, hcs⟩ d hd hmem
    rcases List.mem_cons.mp hmem with rfl | hmem
    · exact hc hd
    · exact hcs d hd hmem

theorem physicalLines_cons (hc : ¬ IsBreak c) (cs : List Char) :
    physicalLines (c :: cs) = (physicalLines cs).modifyHead (c :: ·) := by
  rw [physicalLines, if_neg hc]
  rintro rest rfl
  exact absurd (Or.inr rfl) hc

/-- A text is one line exactly when there is no line break in it. -/
theorem physicalLines_eq_singleton_iff : physicalLines cs = [cs] ↔ IsUnbroken cs := by
  constructor
  · intro h
    have hlength : (physicalLines cs).length = 1 := by rw [h, List.length_singleton]
    clear h
    fun_induction physicalLines cs with
    | case1 => simp [IsUnbroken]
    | case2 rest ih =>
      have hmore := List.length_pos_iff.mpr (physicalLines_ne_nil rest)
      rw [List.length_cons] at hlength
      omega
    | case3 c rest hpair hbreak ih =>
      have hmore := List.length_pos_iff.mpr (physicalLines_ne_nil rest)
      rw [List.length_cons] at hlength
      omega
    | case4 c rest hpair hbreak ih =>
      rw [List.length_modifyHead] at hlength
      exact isUnbroken_cons_iff.mpr ⟨hbreak, ih hlength⟩
  · intro h
    induction cs with
    | nil => rfl
    | cons c cs ih =>
      obtain ⟨hc, hcs⟩ := isUnbroken_cons_iff.mp h
      rw [physicalLines_cons hc, ih hcs]
      rfl

theorem getLast?_cons_of_eq_some {α : Type} {a b : α} {l : List α} (h : l.getLast? = some a) :
    (b :: l).getLast? = some a := by
  rw [List.getLast?_cons, h, Option.getD_some]

/-- A text that goes on has no line feed after its first carriage return either. -/
theorem not_pair_append (hpair : ∀ rest, c = '\r' → cs ≠ '\n' :: rest)
    (h : (c :: cs).getLast? = some '\r' → after.head? ≠ some '\n') :
    ∀ rest, c = '\r' → cs ++ after ≠ '\n' :: rest := by
  rintro rest rfl heq
  cases cs with
  | nil =>
    rw [List.nil_append] at heq
    exact h rfl (heq ▸ rfl)
  | cons d cs =>
    cases heq
    exact hpair _ rfl rfl

/-- A line feed ends a line, unless a carriage return stands before it. -/
theorem physicalLines_append (h : cs.getLast? ≠ some '\r') (rest : List Char) :
    physicalLines (cs ++ '\n' :: rest) = physicalLines cs ++ physicalLines rest := by
  fun_induction physicalLines cs with
  | case1 => rfl
  | case2 more ih =>
    have hmore : more.getLast? ≠ some '\r' := fun hlast =>
      h (getLast?_cons_of_eq_some (getLast?_cons_of_eq_some hlast))
    rw [List.cons_append, List.cons_append, physicalLines, ih hmore, List.cons_append]
  | case3 c more hpair hbreak ih =>
    have hmore : more.getLast? ≠ some '\r' := fun hlast => h (getLast?_cons_of_eq_some hlast)
    rw [List.cons_append, physicalLines, if_pos hbreak, ih hmore, List.cons_append]
    exact not_pair_append hpair fun hlast => absurd hlast h
  | case4 c more hpair hbreak ih =>
    have hmore : more.getLast? ≠ some '\r' := fun hlast => h (getLast?_cons_of_eq_some hlast)
    obtain ⟨first, lines, hlines⟩ := List.exists_cons_of_ne_nil (physicalLines_ne_nil more)
    rw [List.cons_append, physicalLines_cons hbreak, ih hmore, hlines, List.cons_append,
      List.modifyHead_cons, List.modifyHead_cons, List.cons_append]

theorem physicalLines_flatMap {lines : List (List Char)}
    (h : ∀ line ∈ lines, line.getLast? ≠ some '\r') :
    physicalLines (lines.flatMap (· ++ ['\n'])) = lines.flatMap physicalLines ++ [[]] := by
  induction lines with
  | nil => rfl
  | cons line lines ih =>
    obtain ⟨hline, hlines⟩ := List.forall_mem_cons.mp h
    rw [List.flatMap_cons, List.append_assoc, List.singleton_append, physicalLines_append hline,
      ih hlines, List.flatMap_cons, List.append_assoc]

/-! ## Texts on one line -/

/-- A line feed, and a carriage return before it, become a blank. -/
def spaced : List Char → List Char
  | [] => []
  | '\n' :: rest => ' ' :: spaced rest
  | '\r' :: '\n' :: rest => ' ' :: spaced rest
  | c :: rest => c :: spaced rest

theorem spaced_append (h : before.getLast? = some '\r' → after.head? ≠ some '\n') :
    spaced (before ++ after) = spaced before ++ spaced after := by
  fun_induction spaced before with
  | case1 => rfl
  | case2 more ih =>
    rw [List.cons_append, spaced, ih fun hlast => h (getLast?_cons_of_eq_some hlast),
      List.cons_append]
  | case3 more ih =>
    have hmore : more.getLast? = some '\r' → after.head? ≠ some '\n' := fun hlast =>
      h (getLast?_cons_of_eq_some (getLast?_cons_of_eq_some hlast))
    rw [List.cons_append, List.cons_append, spaced, ih hmore, List.cons_append]
  | case4 c more hfeed hpair ih =>
    rw [List.cons_append, spaced, ih fun hlast => h (getLast?_cons_of_eq_some hlast),
      List.cons_append]
    · exact hfeed
    · exact not_pair_append hpair h

theorem spaced_of_not_mem (h : '\n' ∉ cs) : spaced cs = cs := by
  fun_induction spaced cs with
  | case1 => rfl
  | case2 more ih => simp at h
  | case3 more ih => simp at h
  | case4 c more hfeed hpair ih => rw [ih (List.not_mem_of_not_mem_cons h)]

theorem not_mem_spaced (cs : List Char) : '\n' ∉ spaced cs := by
  fun_induction spaced cs with
  | case1 => simp
  | case2 more ih => simpa using ih
  | case3 more ih => simpa using ih
  | case4 c more hfeed hpair ih =>
    rw [List.mem_cons, not_or]
    exact ⟨fun hc => hfeed hc.symm, ih⟩

/-- A carriage return is left when no line feed follows it. -/
theorem spaced_eq_append_iff {x y : List Char} : spaced cs = x ++ '\r' :: y ↔
    ∃ before after, cs = before ++ '\r' :: after ∧ after.head? ≠ some '\n' ∧
      spaced before = x ∧ spaced after = y := by
  constructor
  · intro h
    fun_induction spaced cs generalizing x with
    | case1 => simp at h
    | case2 more ih =>
      obtain - | ⟨d, x⟩ := x
      · simp at h
      · obtain ⟨rfl, hx⟩ := List.cons.inj h
        obtain ⟨before, after, rfl, hafter, rfl, rfl⟩ := ih hx
        exact ⟨'\n' :: before, after, rfl, hafter, rfl, rfl⟩
    | case3 more ih =>
      obtain - | ⟨d, x⟩ := x
      · simp at h
      · obtain ⟨rfl, hx⟩ := List.cons.inj h
        obtain ⟨before, after, rfl, hafter, rfl, rfl⟩ := ih hx
        exact ⟨'\r' :: '\n' :: before, after, rfl, hafter, rfl, rfl⟩
    | case4 c more hfeed hpair ih =>
      obtain - | ⟨d, x⟩ := x
      · obtain ⟨rfl, rfl⟩ := List.cons.inj h
        refine ⟨[], more, rfl, fun hhead => ?_, rfl, rfl⟩
        obtain ⟨rest, rfl⟩ := List.head?_eq_some_iff.mp hhead
        exact hpair rest rfl rfl
      · obtain ⟨rfl, hx⟩ := List.cons.inj h
        obtain ⟨before, after, rfl, hafter, rfl, rfl⟩ := ih hx
        refine ⟨c :: before, after, rfl, hafter, ?_, rfl⟩
        rw [spaced]
        · exact hfeed
        · rintro rest hc rfl
          exact hpair _ hc rfl
  · rintro ⟨before, after, rfl, hafter, rfl, rfl⟩
    have hreturn : spaced ('\r' :: after) = '\r' :: spaced after := by
      rw [spaced]
      · decide
      · rintro rest - rfl
        exact hafter rfl
    rw [spaced_append (by simp), hreturn]

theorem spaced_append_line {line : List Char} (h : '\n' ∉ line) (rest : List Char) :
    spaced (line ++ '\n' :: rest) = dropReturn line ++ ' ' :: spaced rest := by
  unfold dropReturn
  split
  · rename_i hlast
    obtain ⟨start, rfl⟩ := List.getLast?_eq_some_iff.mp hlast
    have hstart : '\n' ∉ start := fun hmem => h (List.mem_append_left _ hmem)
    rw [List.append_assoc, List.dropLast_concat, List.cons_append, List.nil_append,
      spaced_append (by simp), spaced_of_not_mem hstart, spaced]
  · rename_i hlast
    rw [spaced_append fun h' => absurd h' hlast, spaced_of_not_mem h, spaced]

theorem linesOf_eq_nil_iff {pieces : List (List Char)} :
    linesOf pieces = [] ↔ pieces = [] ∨ pieces = [[]] := by
  fun_cases linesOf pieces with
  | case1 => simp
  | case2 last h => simpa using h
  | case3 last h => simpa using h
  | case4 line rest h => simpa using fun _ => h

/-- Lines with blanks between them are the text on one line, but for a blank at its end. -/
theorem spaced_intercalate {pieces : List (List Char)} (h : ∀ piece ∈ pieces, '\n' ∉ piece) :
    spaced (['\n'].intercalate pieces) = [' '].intercalate (linesOf pieces) ∨
    spaced (['\n'].intercalate pieces) = [' '].intercalate (linesOf pieces) ++ [' '] := by
  fun_induction linesOf pieces with
  | case1 => exact Or.inl rfl
  | case2 last hempty =>
    rw [List.isEmpty_iff.mp hempty]
    exact Or.inl rfl
  | case3 last hempty =>
    rw [List.intercalate_singleton, List.intercalate_singleton]
    exact Or.inl (spaced_of_not_mem (h last List.mem_cons_self))
  | case4 line rest hrest ih =>
    obtain ⟨hline, hmore⟩ := List.forall_mem_cons.mp h
    rw [List.intercalate_cons_of_ne_nil hrest, List.append_assoc, List.singleton_append,
      spaced_append_line hline]
    by_cases hnil : linesOf rest = []
    · obtain rfl := (linesOf_eq_nil_iff.mp hnil).resolve_left hrest
      exact Or.inr (congrArg (· ++ [' ']) (List.intercalate_singleton ..).symm)
    · rw [List.intercalate_cons_of_ne_nil hnil, List.append_assoc, List.singleton_append]
      exact (ih hmore).imp (by rw [·]) (by rw [·, List.append_assoc, List.cons_append])

/-! ## Trimmed texts -/

/-- A text that is not all blank. -/
def HasVisible (cs : List Char) : Prop := ∃ c ∈ cs, isBlank c = false

theorem hasVisible_cons_iff : HasVisible (c :: cs) ↔ isBlank c = false ∨ HasVisible cs := by
  simp [HasVisible]

theorem hasVisible_reverse_iff : HasVisible cs.reverse ↔ HasVisible cs := by
  simp [HasVisible]

theorem hasVisible_iff : HasVisible cs ↔ cs.dropWhile isBlank ≠ [] := by
  rw [ne_eq, List.dropWhile_eq_nil_iff]
  simp [HasVisible]

theorem dropWhile_append_of_hasVisible (h : HasVisible before) (after : List Char) :
    (before ++ after).dropWhile isBlank = before.dropWhile isBlank ++ after := by
  rw [List.dropWhile_append, if_neg]
  rw [List.isEmpty_iff]
  exact hasVisible_iff.mp h

theorem exists_of_dropWhile_eq {x y : List Char} (hc : isBlank c = true)
    (h : cs.dropWhile isBlank = x ++ c :: y) :
    ∃ before, cs = before ++ c :: y ∧ HasVisible before := by
  induction cs with
  | nil => simp at h
  | cons d cs ih =>
    cases hd : isBlank d with
    | true =>
      rw [List.dropWhile_cons_of_pos hd] at h
      obtain ⟨before, rfl, hbefore⟩ := ih h
      exact ⟨d :: before, rfl, hasVisible_cons_iff.mpr (Or.inr hbefore)⟩
    | false =>
      rw [List.dropWhile_cons_of_neg (by simp [hd])] at h
      refine ⟨x, h, ?_⟩
      cases x with
      | nil =>
        cases h
        rw [hc] at hd
        cases hd
      | cons e x =>
        cases h
        exact hasVisible_cons_iff.mpr (Or.inl hd)

/-- A blank of a trimmed text stands between two visible characters. -/
theorem mem_trimChars_iff (hc : isBlank c = true) : c ∈ trimChars cs ↔
    ∃ before after, cs = before ++ c :: after ∧ HasVisible before ∧ HasVisible after := by
  rw [trimChars, List.mem_reverse]
  constructor
  · intro h
    obtain ⟨x, y, hxy⟩ := List.append_of_mem h
    obtain ⟨after, hafter, hvisible⟩ := exists_of_dropWhile_eq hc hxy
    have hforward : cs.dropWhile isBlank = y.reverse ++ c :: after.reverse := by
      simpa using congrArg List.reverse hafter
    obtain ⟨before, hbefore, hvisible'⟩ := exists_of_dropWhile_eq hc hforward
    exact ⟨before, after.reverse, hbefore, hvisible', hasVisible_reverse_iff.mpr hvisible⟩
  · rintro ⟨before, after, rfl, hbefore, hafter⟩
    have hreverse := hasVisible_reverse_iff.mpr hafter
    rw [dropWhile_append_of_hasVisible hbefore, List.reverse_append, List.reverse_cons,
      List.append_assoc, dropWhile_append_of_hasVisible hreverse]
    simp

theorem trimChars_append_blank (hc : isBlank c = true) (cs : List Char) :
    trimChars (cs ++ [c]) = trimChars cs := by
  have hlast : [c].dropWhile isBlank = [] := List.dropWhile_cons_of_pos hc
  unfold trimChars
  rw [List.dropWhile_append, hlast]
  split
  · rename_i hempty
    rw [List.isEmpty_iff.mp hempty]
  · exact List.rdropWhile_concat_pos isBlank _ c hc

theorem isBlank_of_getLast?_trimChars (h : (trimChars cs).getLast? = some c) :
    isBlank c = false := by
  have hfirst := List.head?_dropWhile_not isBlank (cs.dropWhile isBlank).reverse
  rw [trimChars, List.getLast?_reverse] at h
  rwa [h] at hfirst

/-! ## Lone carriage returns -/

/-- A carriage return inside the text that no line feed follows. -/
def HasLoneReturn (cs : List Char) : Prop :=
  ∃ before after, cs = before ++ '\r' :: after ∧ after.head? ≠ some '\n' ∧
    HasVisible before ∧ HasVisible after

theorem hasVisible_spaced_iff : HasVisible (spaced cs) ↔ HasVisible cs := by
  have hblank : isBlank ' ' = true ∧ isBlank '\n' = true ∧ isBlank '\r' = true := by decide
  fun_induction spaced cs with
  | case1 => rfl
  | case2 more ih => simp [hasVisible_cons_iff, ih, hblank]
  | case3 more ih => simp [hasVisible_cons_iff, ih, hblank]
  | case4 c more hfeed hpair ih =>
    rw [hasVisible_cons_iff, hasVisible_cons_iff]
    exact or_congr_right ih

theorem trimChars_lines (cs : List Char) :
    trimChars ([' '].intercalate (lines cs)) = trimChars (spaced cs) := by
  have hpieces : ∀ piece ∈ cs.splitOn '\n', '\n' ∉ piece := fun _ => not_mem_of_mem_splitOn
  have hspaced := spaced_intercalate hpieces
  rw [List.intercalate_splitOn] at hspaced
  rcases hspaced with heq | heq
  · rw [heq, lines]
  · rw [heq, trimChars_append_blank (by decide), lines]

theorem feed_not_mem_trimChars_lines (cs : List Char) :
    '\n' ∉ trimChars ([' '].intercalate (lines cs)) := by
  rw [trimChars_lines, mem_trimChars_iff (by decide)]
  rintro ⟨before, after, heq, -, -⟩
  exact not_mem_spaced cs (heq ▸ by simp)

theorem return_mem_trimChars_lines_iff :
    '\r' ∈ trimChars ([' '].intercalate (lines cs)) ↔ HasLoneReturn cs := by
  rw [trimChars_lines, mem_trimChars_iff (by decide)]
  constructor
  · rintro ⟨x, y, hxy, hx, hy⟩
    obtain ⟨before, after, rfl, hafter, rfl, rfl⟩ := spaced_eq_append_iff.mp hxy
    exact ⟨before, after, rfl, hafter, hasVisible_spaced_iff.mp hx, hasVisible_spaced_iff.mp hy⟩
  · rintro ⟨before, after, rfl, hafter, hbefore, hrest⟩
    exact ⟨spaced before, spaced after, spaced_eq_append_iff.mpr ⟨_, _, rfl, hafter, rfl, rfl⟩,
      hasVisible_spaced_iff.mpr hbefore, hasVisible_spaced_iff.mpr hrest⟩

instance (cs : List Char) : Decidable (HasLoneReturn cs) :=
  decidable_of_iff _ return_mem_trimChars_lines_iff

/-- Lines that are put on one line and trimmed are unbroken, unless a carriage return
alone was taken for no line break. -/
theorem isUnbroken_trimChars_lines_iff :
    IsUnbroken (trimChars ([' '].intercalate (lines cs))) ↔ ¬ HasLoneReturn cs := by
  rw [isUnbroken_iff, and_iff_right (feed_not_mem_trimChars_lines cs),
    return_mem_trimChars_lines_iff]

end Phrasebook.Text
