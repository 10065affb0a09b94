-- The laws of the placeholder scan. `Template.pieces` reads a template from
-- the left. `IsScan` says what the placeholders of a template are without
-- reading it, and every template has exactly one scan.
import Mathlib.Data.String.Basic
import Phrasebook.Template

namespace Phrasebook

@[simp] theorem utf8Length_eq (cs : List Char) : utf8Length cs = String.utf8Len cs := by
  induction cs with
  | nil => rfl
  | cons c cs ih => rw [utf8Length, ih, String.utf8Len_cons, Nat.add_comm]

theorem utf8Len_toList (s : String) : String.utf8Len s.toList = s.utf8ByteSize := by
  rw [← String.utf8ByteSize_ofList, String.ofList_toList]

theorem utf8Len_pos {cs : List Char} (h : cs ≠ []) : 0 < String.utf8Len cs :=
  Nat.pos_of_ne_zero fun h0 => h (String.utf8Len_eq_zero.mp h0)

/-- The name of a placeholder. -/
def Piece.name? : Piece → Option String
  | literal _ => none
  | reference name => some (String.ofList name)

namespace Template

/-! ## One placeholder -/

theorem closeName_append {name : List Char} (after : List Char) (hclose : ')' ∉ name)
    (hline : '\n' ∉ name) : closeName (name ++ ')' :: after) = some (name, after) := by
  induction name with
  | nil => simp [closeName]
  | cons c name ih =>
    simp only [List.mem_cons, not_or] at hclose hline
    simp [closeName, Ne.symm hclose.1, Ne.symm hline.1, ih hclose.2 hline.2]

theorem eq_of_closeName {cs name after : List Char} (h : closeName cs = some (name, after)) :
    cs = name ++ ')' :: after ∧ ')' ∉ name ∧ '\n' ∉ name := by
  induction cs generalizing name with
  | nil => simp [closeName] at h
  | cons c rest ih =>
    simp only [closeName] at h
    split at h
    · rename_i hc
      simp only [Option.some.injEq, Prod.mk.injEq] at h
      obtain ⟨rfl, rfl⟩ := h
      simp [hc]
    · split at h
      · simp at h
      · rename_i hclose hline
        simp only [Option.map_eq_some_iff, Prod.mk.injEq, Prod.exists] at h
        obtain ⟨name, after, hrest, rfl, rfl⟩ := h
        obtain ⟨rfl, h1, h2⟩ := ih hrest
        simp [h1, h2, Ne.symm hclose, Ne.symm hline]

theorem openName_eq_some_iff {cs name after : List Char} :
    openName cs = some (name, after) ↔
      cs = (Piece.reference name).source ++ after ∧ ')' ∉ name ∧ '\n' ∉ name := by
  constructor
  · intro h
    unfold openName at h
    split at h
    · obtain ⟨rfl, hname⟩ := eq_of_closeName h
      exact ⟨by simp [Piece.source], hname⟩
    · simp at h
  · rintro ⟨rfl, hclose, hline⟩
    simpa [openName, Piece.source] using closeName_append after hclose hline

/-- A name on one line that is closed somewhere is closed at its first `)`. -/
theorem closeName_isSome {name : List Char} (after : List Char) (h : '\n' ∉ name) :
    (closeName (name ++ ')' :: after)).isSome := by
  induction name with
  | nil => simp [closeName]
  | cons c name ih =>
    simp only [List.mem_cons, not_or] at h
    simp only [List.cons_append, closeName]
    split
    · rfl
    · simp [Ne.symm h.1, ih h.2]

theorem openName_isSome {name : List Char} (after : List Char) (h : '\n' ∉ name) :
    (openName ((Piece.reference name).source ++ after)).isSome := by
  simpa [openName, Piece.source] using closeName_isSome after h

/-! ## The pieces -/

theorem pieces_of_openName {cs name after : List Char} (h : openName cs = some (name, after)) :
    pieces cs = .reference name :: pieces after := by
  cases cs with
  | nil => simp [openName] at h
  | cons c rest =>
    rw [pieces]
    split
    · rename_i hopen
      rw [h] at hopen
      cases hopen
      rfl
    · rename_i hopen
      rw [h] at hopen
      cases hopen

theorem pieces_of_openName_eq_none {c : Char} {rest : List Char}
    (h : openName (c :: rest) = none) : pieces (c :: rest) = .literal c :: pieces rest := by
  rw [pieces]
  split
  · rename_i hopen
    rw [h] at hopen
    cases hopen
  · rfl

theorem openName_of_ne {c : Char} (h : c ≠ '\\') (rest : List Char) :
    openName (c :: rest) = none := by
  unfold openName
  split
  · rename_i hstart
    exact absurd (List.cons.inj hstart).1 h
  · rfl

/-- Text without backslashes opens no placeholder, whatever comes after it. -/
theorem pieces_append_of_not_mem {plain : List Char} (h : '\\' ∉ plain) (rest : List Char) :
    pieces (plain ++ rest) = plain.map .literal ++ pieces rest := by
  induction plain with
  | nil => rfl
  | cons c plain ih =>
    rw [List.mem_cons, not_or] at h
    rw [List.cons_append, pieces_of_openName_eq_none (openName_of_ne (Ne.symm h.1) _), ih h.2]
    rfl

/-- The pieces are the whole template. -/
theorem pieces_source (cs : List Char) : (pieces cs).flatMap Piece.source = cs := by
  fun_induction pieces cs with
  | case1 => rfl
  | case2 c rest name after h ih => rw [List.flatMap_cons, ih, ← (openName_eq_some_iff.mp h).1]
  | case3 c rest h ih => rw [List.flatMap_cons, ih]; rfl

theorem name_of_mem_pieces {cs name : List Char} (h : .reference name ∈ pieces cs) :
    ')' ∉ name ∧ '\n' ∉ name := by
  fun_induction pieces cs with
  | case1 => simp at h
  | case2 c rest n after hopen ih =>
    rcases List.mem_cons.mp h with hn | hrest
    · cases hn
      exact (openName_eq_some_iff.mp hopen).2
    · exact ih hrest
  | case3 c rest hopen ih => simp at h; exact ih h

/-! ## Where the pieces stand -/

theorem mem_locate {ps : List Piece} {offset : Nat} {p : Placeholder} (h : p ∈ locate offset ps) :
    ∃ before name after, ps = before ++ .reference name :: after ∧
      p.start = offset + String.utf8Len (before.flatMap Piece.source) ∧
      p.stop = p.start + (Piece.reference name).width ∧ p.name = String.ofList name := by
  induction ps generalizing offset with
  | nil => simp [locate] at h
  | cons q ps ih =>
    cases q with
    | literal c =>
      obtain ⟨before, name, after, rfl, hstart, hrest⟩ := ih h
      refine ⟨.literal c :: before, name, after, rfl, ?_, hrest⟩
      simp [hstart, Piece.width, Nat.add_assoc]
    | reference n =>
      rcases List.mem_cons.mp h with rfl | h
      · exact ⟨[], n, ps, rfl, by simp, rfl, rfl⟩
      · obtain ⟨before, name, after, rfl, hstart, hrest⟩ := ih h
        refine ⟨.reference n :: before, name, after, rfl, ?_, hrest⟩
        simp [hstart, Piece.width, Nat.add_assoc]

theorem locate_names (offset : Nat) (ps : List Piece) :
    (locate offset ps).map (·.name) = ps.filterMap Piece.name? := by
  induction ps generalizing offset with
  | nil => rfl
  | cons q ps ih =>
    cases q with
    | literal c => exact ih _
    | reference name => exact congrArg (String.ofList name :: ·) (ih _)

theorem locate_ordered (offset : Nat) (ps : List Piece) :
    (locate offset ps).Pairwise fun p q => p.start < q.start ∧ p.stop ≤ q.start := by
  induction ps generalizing offset with
  | nil => exact .nil
  | cons q ps ih =>
    cases q with
    | literal c => exact ih _
    | reference name =>
      refine List.pairwise_cons.mpr ⟨fun p hp => ?_, ih _⟩
      obtain ⟨before, n, after, -, hstart, -⟩ := mem_locate hp
      have hwidth : 0 < (Piece.reference name).width := by
        rw [Piece.width, utf8Length_eq]
        exact utf8Len_pos (by simp [Piece.source])
      dsimp only
      omega

/-- Where a placeholder could be opened, one is found or one is already open. -/
theorem locate_complete {cs before name after : List Char} (offset : Nat)
    (h : cs = before ++ ((Piece.reference name).source ++ after)) (hline : '\n' ∉ name) :
    ∃ p ∈ locate offset (pieces cs),
      p.start ≤ offset + String.utf8Len before ∧ offset + String.utf8Len before < p.stop := by
  fun_induction pieces cs generalizing before offset with
  | case1 => simp [Piece.source] at h
  | case2 c rest n tail hopen ih =>
    have hn := (openName_eq_some_iff.mp hopen).1
    rw [hn] at h
    rcases List.append_eq_append_iff.mp h with ⟨inside, rfl, hrest⟩ | ⟨inside, hsource, hrest⟩
    · obtain ⟨p, hp, hle, hlt⟩ := ih (offset + (Piece.reference n).width) hrest
      refine ⟨p, List.mem_cons_of_mem _ hp, ?_, ?_⟩
      · simpa [Piece.width, Nat.add_assoc] using hle
      · simpa [Piece.width, Nat.add_assoc] using hlt
    · by_cases hin : inside = []
      · subst hin
        obtain ⟨p, hp, hle, hlt⟩ := @ih [] (offset + (Piece.reference n).width) hrest.symm
        simp only [List.append_nil] at hsource
        refine ⟨p, List.mem_cons_of_mem _ hp, ?_, ?_⟩
        · simpa [Piece.width, hsource] using hle
        · simpa [Piece.width, hsource] using hlt
      · refine ⟨_, List.mem_cons_self, Nat.le_add_right _ _, ?_⟩
        have := utf8Len_pos hin
        simp only [Piece.width, utf8Length_eq, hsource, String.utf8Len_append]
        omega
  | case3 c rest hopen ih =>
    cases before with
    | nil =>
      have hsome := openName_isSome after hline
      rw [List.nil_append] at h
      rw [← h, hopen] at hsome
      simp at hsome
    | cons d before =>
      obtain ⟨rfl, hrest⟩ := List.cons.inj h
      obtain ⟨p, hp, hle, hlt⟩ := ih (offset + (Piece.literal c).width) hrest
      refine ⟨p, hp, ?_, ?_⟩
      · simpa [Piece.width, Piece.source, Nat.add_assoc, Nat.add_comm] using hle
      · simpa [Piece.width, Piece.source, Nat.add_assoc, Nat.add_comm] using hlt

/-! ## Scans -/

/-- A placeholder with a name, as it stands in a template. -/
def placeholderText (name : String) : String := "\\(" ++ name ++ ")"

/-- The text stands in the template at a byte offset. Both of its ends are then
ends of characters, and inside the template. -/
def StandsAt (template : String) (start : Nat) (text : String) : Prop :=
  ∃ before after, template = before ++ text ++ after ∧ before.utf8ByteSize = start

/-- The leftmost scan without overlap, told by the text alone. -/
structure IsScan (template : String) (ps : List Placeholder) : Prop where
  stands : ∀ p ∈ ps, StandsAt template p.start (placeholderText p.name) ∧
    p.stop = p.start + (placeholderText p.name).utf8ByteSize
  name_plain : ∀ p ∈ ps, ')' ∉ p.name.toList ∧ '\n' ∉ p.name.toList
  ordered : ps.Pairwise fun p q => p.start < q.start ∧ p.stop ≤ q.start
  complete : ∀ start name, '\n' ∉ name.toList → StandsAt template start (placeholderText name) →
    ∃ p ∈ ps, p.start = start ∨ (p.start < start ∧ start < p.stop)

theorem toList_placeholderText (name : String) :
    (placeholderText name).toList = (Piece.reference name.toList).source := by
  simp [placeholderText, Piece.source]

theorem utf8ByteSize_placeholderText (name : String) :
    (placeholderText name).utf8ByteSize = (Piece.reference name.toList).width := by
  rw [← utf8Len_toList, toList_placeholderText, Piece.width, utf8Length_eq]

theorem standsAt_iff {template : String} {start : Nat} {text : String} :
    StandsAt template start text ↔ ∃ before after,
      template.toList = before ++ (text.toList ++ after) ∧ String.utf8Len before = start := by
  constructor
  · rintro ⟨before, after, rfl, rfl⟩
    exact ⟨before.toList, after.toList, by simp, utf8Len_toList before⟩
  · rintro ⟨before, after, htext, rfl⟩
    refine ⟨String.ofList before, String.ofList after, ?_, String.utf8ByteSize_ofList before⟩
    apply String.toList_injective
    simp [htext]

theorem isScan_placeholders (template : String) : IsScan template (placeholders template) := by
  refine ⟨fun p hp => ?_, fun p hp => ?_, locate_ordered _ _, fun start name hline hstands => ?_⟩
  · obtain ⟨before, name, after, hpieces, hstart, hstop, hname⟩ := mem_locate hp
    have hsource := pieces_source template.toList
    rw [hpieces] at hsource
    refine ⟨standsAt_iff.mpr ⟨before.flatMap Piece.source, after.flatMap Piece.source, ?_, ?_⟩, ?_⟩
    · rw [← hsource, hname, toList_placeholderText]
      simp
    · rw [hstart, Nat.zero_add]
    · rw [hstop, hname, utf8ByteSize_placeholderText, String.toList_ofList]
  · obtain ⟨before, name, after, hpieces, -, -, hname⟩ := mem_locate hp
    have hmem : .reference name ∈ pieces template.toList := by simp [hpieces]
    rw [hname, String.toList_ofList]
    exact name_of_mem_pieces hmem
  · obtain ⟨before, after, htext, rfl⟩ := standsAt_iff.mp hstands
    rw [toList_placeholderText] at htext
    obtain ⟨p, hp, hle, hlt⟩ := locate_complete 0 htext hline
    refine ⟨p, hp, ?_⟩
    omega

/-! ## One scan only -/

/-- The number of bytes before a cut fixes the cut. -/
theorem append_inj_of_utf8Len {before rest before' rest' : List Char}
    (h : before ++ rest = before' ++ rest')
    (hlen : String.utf8Len before = String.utf8Len before') : rest = rest' := by
  rcases List.append_eq_append_iff.mp h with ⟨between, rfl, hrest⟩ | ⟨between, rfl, hrest⟩
  · have hnil : between = [] := by simpa using hlen
    simpa [hnil] using hrest
  · have hnil : between = [] := by simpa using hlen
    simpa [hnil] using hrest.symm

namespace IsScan

variable {template : String} {ps qs : List Placeholder} {p q : Placeholder}

theorem openName_of_mem (h : IsScan template ps) (hp : p ∈ ps) :
    ∃ before rest after, template.toList = before ++ rest ∧ String.utf8Len before = p.start ∧
      openName rest = some (p.name.toList, after) := by
  obtain ⟨before, after, htext, hstart⟩ := standsAt_iff.mp (h.stands p hp).1
  refine ⟨before, _, after, htext, hstart, openName_eq_some_iff.mpr ⟨?_, h.name_plain p hp⟩⟩
  rw [toList_placeholderText]

/-- The name ends at the first `)`, so the start of a placeholder fixes all of it. -/
theorem eq_of_start (hps : IsScan template ps) (hqs : IsScan template qs) (hp : p ∈ ps)
    (hq : q ∈ qs) (hstart : p.start = q.start) : p = q := by
  obtain ⟨before, rest, after, htext, hlen, hopen⟩ := hps.openName_of_mem hp
  obtain ⟨before', rest', after', htext', hlen', hopen'⟩ := hqs.openName_of_mem hq
  have hrest : rest = rest' :=
    append_inj_of_utf8Len (htext.symm.trans htext') (by rw [hlen, hlen', hstart])
  rw [hrest, hopen'] at hopen
  have hname : p.name = q.name := by
    apply String.toList_injective
    simp only [Option.some.injEq, Prod.mk.injEq] at hopen
    exact hopen.1.symm
  have hstop : p.stop = q.stop := by
    rw [(hps.stands p hp).2, (hqs.stands q hq).2, hstart, hname]
  cases p
  cases q
  simp_all

theorem stop_le_of_start_lt (h : IsScan template ps) (hp : p ∈ ps) (hq : q ∈ ps)
    (hlt : q.start < p.start) : q.stop ≤ p.start := by
  obtain ⟨i, hi, rfl⟩ := List.getElem_of_mem hp
  obtain ⟨j, hj, rfl⟩ := List.getElem_of_mem hq
  have hordered := List.pairwise_iff_getElem.mp h.ordered
  rcases Nat.lt_trichotomy i j with hij | rfl | hij
  · have := hordered i j hi hj hij
    omega
  · omega
  · exact (hordered j i hj hi hij).2

/-- Of two scans, each has the placeholders of the other. A placeholder that
the other scan lacked would lie inside an earlier one, which is in both. -/
theorem mem_of_mem (hps : IsScan template ps) (hqs : IsScan template qs) (hp : p ∈ ps) :
    p ∈ qs := by
  induction hstart : p.start using Nat.strong_induction_on generalizing p ps qs with
  | _ n ih =>
    subst hstart
    obtain ⟨q, hq, heq | ⟨hlt, hstop⟩⟩ :=
      hqs.complete p.start p.name (hps.name_plain p hp).2 (hps.stands p hp).1
    · exact hqs.eq_of_start hps hq hp heq ▸ hq
    · have hmem : q ∈ ps := ih q.start hlt hqs hps hq rfl
      have := hps.stop_le_of_start_lt hp hmem hlt
      omega

theorem nodup (h : IsScan template ps) : ps.Nodup :=
  h.ordered.imp fun hlt heq => by simp [heq] at hlt

theorem unique (hps : IsScan template ps) (hqs : IsScan template qs) : ps = qs := by
  have hperm : ps.Perm qs := (List.perm_ext_iff_of_nodup hps.nodup hqs.nodup).mpr fun p =>
    ⟨hps.mem_of_mem hqs, hqs.mem_of_mem hps⟩
  refine List.Perm.eq_of_pairwise (fun p q _ _ hpq hqp => ?_) hps.ordered hqs.ordered hperm
  omega

end IsScan

/-! ## The law -/

/-- Every template has exactly one scan, and `placeholders` finds it. -/
theorem isScan_iff_eq_placeholders (template : String) (ps : List Placeholder) :
    IsScan template ps ↔ ps = placeholders template := by
  constructor
  · intro h
    exact h.unique (isScan_placeholders template)
  · rintro rfl
    exact isScan_placeholders template

end Template

end Phrasebook
