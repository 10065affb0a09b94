-- The placeholder scan line by line. No name goes over a line feed, so what a line leaves
-- open ends with the line, and the next line is read as if it stood alone.
import Phrasebook.Proofs.PlaceholderScan

namespace Phrasebook

/-- The placeholder in a text that has so many more bytes before it. -/
def Placeholder.shift (bytes : Nat) (p : Placeholder) : Placeholder :=
  { p with start := p.start + bytes, stop := p.stop + bytes }

namespace Template

/-! ## Up to the line feed -/

/-- What a line opens is closed on that line or not at all. -/
theorem openName_append_line (cs after : List Char) :
    openName (cs ++ '\n' :: after) =
      (openName cs).map fun (name, rest) => (name, rest ++ '\n' :: after) := by
  cases hopen : openName cs with
  | some found =>
    obtain ⟨name, rest⟩ := found
    obtain ⟨rfl, hname⟩ := openName_eq_some_iff.mp hopen
    exact openName_eq_some_iff.mpr ⟨List.append_assoc _ _ _, hname⟩
  | none =>
    rw [Option.map_none, Option.eq_none_iff_forall_not_mem]
    rintro ⟨name, rest⟩ hfound
    obtain ⟨hsource, hclose, hline⟩ := openName_eq_some_iff.mp hfound
    have hnone : ∀ tail, cs ≠ (Piece.reference name).source ++ tail := by
      intro tail hcs
      rw [openName_eq_some_iff.mpr ⟨hcs, hclose, hline⟩] at hopen
      cases hopen
    rcases List.append_eq_append_iff.mp hsource with ⟨inside, hin, hrest⟩ | ⟨tail, hcs, -⟩
    · cases inside with
      | nil => exact hnone [] (by rw [hin, List.append_nil, List.append_nil])
      | cons d inside =>
        -- the line feed would stand in the placeholder
        obtain ⟨rfl, -⟩ := List.cons.inj hrest
        have hmem : '\n' ∈ (Piece.reference name).source := by simp [hin]
        simp [Piece.source, hline] at hmem
    · exact hnone tail hcs

theorem pieces_append_line (cs after : List Char) :
    pieces (cs ++ '\n' :: after) = pieces cs ++ .literal '\n' :: pieces after := by
  fun_induction pieces cs with
  | case1 => exact pieces_of_openName_eq_none (openName_of_ne (by decide) after)
  | case2 c rest name tail hopen ih =>
    have hopen' := openName_append_line (c :: rest) after
    rw [hopen, Option.map_some] at hopen'
    rw [pieces_of_openName hopen', ih, List.cons_append]
  | case3 c rest hopen ih =>
    have hopen' := openName_append_line (c :: rest) after
    rw [hopen, Option.map_none, List.cons_append] at hopen'
    rw [List.cons_append, pieces_of_openName_eq_none hopen', ih, List.cons_append]

/-! ## Behind the line feed -/

theorem locate_append (offset : Nat) (ps qs : List Piece) :
    locate offset (ps ++ qs) =
      locate offset ps ++ locate (offset + String.utf8Len (ps.flatMap Piece.source)) qs := by
  induction ps generalizing offset with
  | nil => rfl
  | cons p ps ih =>
    cases p with
    | literal c => simp [locate, ih, Piece.width, Nat.add_assoc]
    | reference name => simp [locate, ih, Piece.width, Nat.add_assoc]

theorem locate_add (offset bytes : Nat) (ps : List Piece) :
    locate (offset + bytes) ps = (locate offset ps).map (Placeholder.shift bytes) := by
  induction ps generalizing offset with
  | nil => rfl
  | cons p ps ih =>
    cases p with
    | literal c => rw [locate, locate, Nat.add_right_comm, ih]
    | reference name =>
      rw [locate, locate, Nat.add_right_comm, ih]
      rfl

/-- The placeholders of a text of two lines are those of the first line and those of the
second, which stand behind the first line and its line feed. -/
theorem placeholders_append_line (s t : String) :
    placeholders (s ++ "\n" ++ t) =
      placeholders s ++ (placeholders t).map (Placeholder.shift (s.utf8ByteSize + 1)) := by
  have hlines : (s ++ "\n" ++ t).toList = s.toList ++ '\n' :: t.toList := by simp
  have hsize : String.utf8Len ((pieces s.toList).flatMap Piece.source) = s.utf8ByteSize := by
    rw [pieces_source, utf8Len_toList]
  have hfeed : (Piece.literal '\n').width = 1 := by decide
  calc placeholders (s ++ "\n" ++ t)
      = locate 0 (pieces s.toList ++ .literal '\n' :: pieces t.toList) := by
        rw [placeholders, hlines, pieces_append_line]
    _ = placeholders s ++ locate (0 + (s.utf8ByteSize + 1)) (pieces t.toList) := by
        rw [locate_append, hsize, locate, hfeed, Nat.add_assoc]
        rfl
    _ = placeholders s ++ (placeholders t).map (Placeholder.shift (s.utf8ByteSize + 1)) := by
        rw [locate_add]
        rfl

/-- What the first line leaves open takes nothing from the second. -/
example : placeholders "é \\(a\n\\(b) (c)" = [⟨7, 11, "b"⟩] := by decide +kernel

end Template

end Phrasebook
