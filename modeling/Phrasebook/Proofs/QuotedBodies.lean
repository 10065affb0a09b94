-- What may stand between two double quotes. A scanner finds the end of a quoted text at
-- the first quote that no backslash protects, and what it finds before that quote is
-- exactly a text in which all quotes are protected and no backslash is left over.

namespace Phrasebook.Text

/-! ## Protected quotes -/

/-- The length of the run of backslashes at the end of a text. -/
def endRun (cs : List Char) : Nat := (cs.reverse.takeWhile (· == '\\')).length

/-- Each quote stands behind an odd run of backslashes, and the text does not end with
an odd run. -/
structure IsQuotedBody (cs : List Char) : Prop where
  quotes_protected : ∀ before after, cs = before ++ '"' :: after → endRun before % 2 = 1
  end_free : endRun cs % 2 = 0

/-- The body of a quoted text and what follows the closing quote, for a text behind the
opening quote. A backslash protects the next character. -/
def scanBody : List Char → Option (List Char × List Char)
  | [] => none
  | '"' :: rest => some ([], rest)
  | '\\' :: c :: rest => (scanBody rest).map fun (body, after) => ('\\' :: c :: body, after)
  | c :: rest => (scanBody rest).map fun (body, after) => (c :: body, after)

variable {c : Char} {cs body after : List Char}

/-! ## Runs of backslashes -/

theorem endRun_le_length (cs : List Char) : endRun cs ≤ cs.length := by
  rw [endRun, ← @List.length_reverse _ cs]
  exact (List.takeWhile_prefix _).length_le

/-- Only in a text of nothing but backslashes the first character counts. -/
theorem endRun_cons (c : Char) (cs : List Char) :
    endRun (c :: cs) = if endRun cs = cs.length ∧ c = '\\' then cs.length + 1 else endRun cs := by
  unfold endRun
  rw [List.reverse_cons, List.takeWhile_append, List.length_reverse]
  by_cases hc : c = '\\'
  · simp only [hc, and_true]
    split <;> simp
  · simp only [hc, and_false, if_false]
    split <;> simp_all

theorem endRun_cons_of_ne (h : c ≠ '\\') (cs : List Char) : endRun (c :: cs) = endRun cs := by
  rw [endRun_cons, if_neg fun hall => h hall.2]

/-- A backslash and the character that it protects keep the parity of the run. -/
theorem endRun_protected (c : Char) (cs : List Char) :
    endRun ('\\' :: c :: cs) % 2 = endRun cs % 2 := by
  have hle := endRun_le_length cs
  rw [endRun_cons, List.length_cons]
  by_cases hall : endRun cs = cs.length ∧ c = '\\'
  · have hrun : endRun (c :: cs) = cs.length + 1 := by rw [endRun_cons, if_pos hall]
    rw [if_pos ⟨hrun, rfl⟩]
    omega
  · have hrun : endRun (c :: cs) = endRun cs := by rw [endRun_cons, if_neg hall]
    rw [if_neg (by omega), hrun]

/-! ## Bodies from the left -/

/-- Where a character stands in a text that does not open with a backslash. -/
theorem split_cons {before : List Char} {d : Char} (hc : c ≠ '\\')
    (hsplit : c :: cs = before ++ d :: after) :
    c = d ∨ ∃ inner, endRun before = endRun inner ∧ cs = inner ++ d :: after := by
  cases before with
  | nil => exact .inl (List.cons.inj hsplit).1
  | cons e before =>
    obtain ⟨rfl, hrest⟩ := List.cons.inj hsplit
    exact .inr ⟨before, endRun_cons_of_ne hc before, hrest⟩

/-- Where a character stands in a text that opens with a protected one. -/
theorem split_protected {before : List Char} {d : Char}
    (hsplit : '\\' :: c :: cs = before ++ d :: after) :
    (d = '\\' ∧ after = c :: cs) ∨ endRun before % 2 = 1 ∨
      ∃ inner, endRun before % 2 = endRun inner % 2 ∧ cs = inner ++ d :: after := by
  match before, hsplit with
  | [], hsplit =>
    obtain ⟨rfl, hrest⟩ := List.cons.inj hsplit
    exact .inl ⟨rfl, hrest.symm⟩
  | [e], hsplit =>
    cases hsplit
    exact .inr (.inl rfl)
  | e :: f :: before, hsplit =>
    cases hsplit
    exact .inr (.inr ⟨before, endRun_protected _ before, rfl⟩)

namespace IsQuotedBody

theorem nil : IsQuotedBody [] := ⟨by simp, rfl⟩

theorem not_quote : ¬ IsQuotedBody ('"' :: cs) := by
  intro h
  have hrun := h.quotes_protected [] cs rfl
  cases hrun

theorem not_backslash : ¬ IsQuotedBody ['\\'] := by
  intro h
  exact absurd h.end_free (by decide)

theorem cons_iff (hquote : c ≠ '"') (hbackslash : c ≠ '\\') :
    IsQuotedBody (c :: cs) ↔ IsQuotedBody cs := by
  constructor
  · intro h
    refine ⟨fun before after hsplit => ?_, ?_⟩
    · rw [← endRun_cons_of_ne hbackslash]
      exact h.quotes_protected (c :: before) after (by rw [hsplit, List.cons_append])
    · rw [← endRun_cons_of_ne hbackslash]
      exact h.end_free
  · intro h
    refine ⟨fun before after hsplit => ?_, ?_⟩
    · rcases split_cons hbackslash hsplit with rfl | ⟨inner, hrun, hinner⟩
      · exact absurd rfl hquote
      · rw [hrun]
        exact h.quotes_protected inner after hinner
    · rw [endRun_cons_of_ne hbackslash]
      exact h.end_free

theorem protected_iff : IsQuotedBody ('\\' :: c :: cs) ↔ IsQuotedBody cs := by
  constructor
  · intro h
    refine ⟨fun before after hsplit => ?_, ?_⟩
    · rw [← endRun_protected c]
      exact h.quotes_protected ('\\' :: c :: before) after
        (by rw [hsplit, List.cons_append, List.cons_append])
    · rw [← endRun_protected c]
      exact h.end_free
  · intro h
    refine ⟨fun before after hsplit => ?_, ?_⟩
    · rcases split_protected hsplit with ⟨hquote, -⟩ | hodd | ⟨inner, hrun, hinner⟩
      · cases hquote
      · exact hodd
      · rw [hrun]
        exact h.quotes_protected inner after hinner
    · rw [endRun_protected]
      exact h.end_free

end IsQuotedBody

/-! ## The scanner -/

/-- The scanner finds a body and its closing quote, and nothing else. -/
theorem scanBody_eq_some_iff :
    scanBody cs = some (body, after) ↔ cs = body ++ '"' :: after ∧ IsQuotedBody body := by
  fun_induction scanBody cs generalizing body with
  | case1 => simp
  | case2 rest =>
    constructor
    · intro h
      cases h
      exact ⟨rfl, .nil⟩
    · rintro ⟨hsplit, hbody⟩
      cases body with
      | nil =>
        cases hsplit
        rfl
      | cons d body =>
        cases hsplit
        exact absurd hbody IsQuotedBody.not_quote
  | case3 c rest ih =>
    simp only [Option.map_eq_some_iff, Prod.exists, Prod.mk.injEq]
    constructor
    · rintro ⟨inner, after, hinner, rfl, rfl⟩
      obtain ⟨rfl, hbody⟩ := ih.mp hinner
      exact ⟨rfl, IsQuotedBody.protected_iff.mpr hbody⟩
    · rintro ⟨hsplit, hbody⟩
      match body, hsplit with
      | [], hsplit => exact absurd (List.cons.inj hsplit).1 (by decide)
      | [d], hsplit =>
        cases hsplit
        exact absurd hbody IsQuotedBody.not_backslash
      | d :: e :: inner, hsplit =>
        cases hsplit
        exact ⟨inner, after, ih.mpr ⟨rfl, IsQuotedBody.protected_iff.mp hbody⟩, rfl, rfl⟩
  | case4 c rest hquote hprotects ih =>
    by_cases hc : c = '\\'
    · -- a backslash at the end protects nothing
      cases rest with
      | nil => cases body <;> simp [scanBody, hc]
      | cons d rest => exact (hprotects d rest hc rfl).elim
    · simp only [Option.map_eq_some_iff, Prod.exists, Prod.mk.injEq]
      constructor
      · rintro ⟨inner, after, hinner, rfl, rfl⟩
        obtain ⟨rfl, hbody⟩ := ih.mp hinner
        exact ⟨rfl, (IsQuotedBody.cons_iff hquote hc).mpr hbody⟩
      · rintro ⟨hsplit, hbody⟩
        cases body with
        | nil => exact absurd (List.cons.inj hsplit).1 hquote
        | cons d inner =>
          cases hsplit
          exact ⟨inner, after, ih.mpr ⟨rfl, (IsQuotedBody.cons_iff hquote hc).mp hbody⟩, rfl, rfl⟩

theorem scanBody_append_iff : scanBody (cs ++ ['"']) = some (cs, []) ↔ IsQuotedBody cs := by
  rw [scanBody_eq_some_iff, and_iff_right rfl]

instance (cs : List Char) : Decidable (IsQuotedBody cs) := decidable_of_iff _ scanBody_append_iff

end Phrasebook.Text
