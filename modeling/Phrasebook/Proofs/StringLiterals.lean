-- Reading string literals back. A literal ends at the first quote that no backslash
-- protects, and a backslash stands for what it protects. A written literal is read as its
-- text, whatever comes behind it, and opens no interpolation.
import Phrasebook.AccessorModule
import Phrasebook.Proofs.QuotedBodies

namespace Phrasebook

open Text

/-! ## Literals as they are read -/

/-- The text that the body of a literal stands for. A backslash goes, and the character
that it protects stays. -/
def unescape : List Char → List Char
  | [] => []
  | '\\' :: c :: rest => c :: unescape rest
  | c :: rest => c :: unescape rest

/-- The text of the literal at the start, and what follows the closing quote. -/
def readLiteral? : List Char → Option (String × List Char)
  | '"' :: rest => (scanBody rest).map fun (body, after) => (String.ofList (unescape body), after)
  | _ => none

def NeedsEscape (c : Char) : Prop := c = '\\' ∨ c = '"'

/-- Each backslash that no other one protects stands before a backslash or a quote. -/
def ProtectsMarks (cs : List Char) : Prop :=
  ∀ before after, cs = before ++ '\\' :: after → endRun before % 2 = 0 →
    ∃ c rest, after = c :: rest ∧ NeedsEscape c

/-- Somewhere a backslash that no other one protects stands before a parenthesis. -/
def StartsInterpolation (cs : List Char) : Prop :=
  ∃ before after, cs = before ++ '\\' :: '(' :: after ∧ endRun before % 2 = 0

variable {c : Char} {cs body : List Char}

theorem unescape_cons (h : c ≠ '\\') (cs : List Char) : unescape (c :: cs) = c :: unescape cs := by
  rw [unescape]
  intro d rest hc
  exact absurd hc h

namespace ProtectsMarks

theorem nil : ProtectsMarks [] := by
  intro before after hsplit
  simp at hsplit

theorem cons (hc : c ≠ '\\') (h : ProtectsMarks cs) : ProtectsMarks (c :: cs) := by
  intro before after hsplit hrun
  rcases split_cons hc hsplit with hbackslash | ⟨inner, hsame, hinner⟩
  · exact absurd hbackslash hc
  · exact h inner after hinner (hsame ▸ hrun)

theorem cons_protected (hc : NeedsEscape c) (h : ProtectsMarks cs) :
    ProtectsMarks ('\\' :: c :: cs) := by
  intro before after hsplit hrun
  rcases split_protected hsplit with ⟨-, hafter⟩ | hodd | ⟨inner, hsame, hinner⟩
  · exact ⟨c, cs, hafter, hc⟩
  · omega
  · exact h inner after hinner (hsame ▸ hrun)

theorem not_startsInterpolation (h : ProtectsMarks cs) : ¬ StartsInterpolation cs := by
  rintro ⟨before, after, hsplit, hrun⟩
  obtain ⟨c, rest, hafter, hc⟩ := h before _ hsplit hrun
  obtain ⟨rfl, -⟩ := List.cons.inj hafter
  revert hc
  simp [NeedsEscape]

end ProtectsMarks

/-! ## Escaped texts -/

/-- A text and the body of a literal for it, character by character. -/
inductive Escaped : List Char → List Char → Prop
  | nil : Escaped [] []
  | plain {c : Char} {cs body : List Char} :
      ¬ NeedsEscape c → Escaped cs body → Escaped (c :: cs) (c :: body)
  | mark {c : Char} {cs body : List Char} :
      NeedsEscape c → Escaped cs body → Escaped (c :: cs) ('\\' :: c :: body)

theorem NeedsEscape.not_iff : ¬ NeedsEscape c ↔ c ≠ '\\' ∧ c ≠ '"' := not_or

theorem escaped_flatMap (cs : List Char) : Escaped cs (cs.flatMap escapeLiteralChar) := by
  induction cs with
  | nil => exact .nil
  | cons c cs ih =>
    rw [List.flatMap_cons, escapeLiteralChar]
    split
    · rename_i hbackslash
      subst hbackslash
      exact .mark (.inl rfl) ih
    · split
      · rename_i hquote
        subst hquote
        exact .mark (.inr rfl) ih
      · rename_i hbackslash hquote
        exact .plain (NeedsEscape.not_iff.mpr ⟨hbackslash, hquote⟩) ih

namespace Escaped

theorem isQuotedBody (h : Escaped cs body) : IsQuotedBody body := by
  induction h with
  | nil => exact .nil
  | plain hc _ ih =>
    obtain ⟨hbackslash, hquote⟩ := NeedsEscape.not_iff.mp hc
    exact (IsQuotedBody.cons_iff hquote hbackslash).mpr ih
  | mark _ _ ih => exact IsQuotedBody.protected_iff.mpr ih

theorem unescape_eq (h : Escaped cs body) : unescape body = cs := by
  induction h with
  | nil => rfl
  | plain hc _ ih => rw [unescape_cons (NeedsEscape.not_iff.mp hc).1, ih]
  | mark _ _ ih => rw [unescape, ih]

/-- This holds up to the closing quote, so no backslash protects that one. -/
theorem protectsMarks (h : Escaped cs body) : ProtectsMarks (body ++ ['"']) := by
  induction h with
  | nil => exact .cons (by decide) .nil
  | plain hc _ ih => exact .cons (NeedsEscape.not_iff.mp hc).1 ih
  | mark hc _ ih => exact .cons_protected hc ih

end Escaped

/-! ## Replacements -/

/-- The text with another text in the place of a character. -/
def replaceChar (old : Char) (new cs : List Char) : List Char :=
  cs.flatMap fun c => if c = old then new else [c]

/-- Backslashes can be doubled first, since quotes bring new backslashes only afterwards. -/
theorem flatMap_escapeLiteralChar (cs : List Char) : cs.flatMap escapeLiteralChar =
    replaceChar '"' ['\\', '"'] (replaceChar '\\' ['\\', '\\'] cs) := by
  unfold replaceChar
  rw [List.flatMap_assoc]
  congr 1
  funext c
  unfold escapeLiteralChar
  split
  · rfl
  · rw [List.flatMap_singleton]

/-! ## Literals as they are written -/

theorem toList_stringLiteral (s : String) :
    (stringLiteral s).toList = '"' :: (s.toList.flatMap escapeLiteralChar ++ ['"']) := by
  simp [stringLiteral]

theorem readLiteral?_append (s : String) (rest : List Char) :
    readLiteral? ((stringLiteral s).toList ++ rest) = some (s, rest) := by
  have hescaped := escaped_flatMap s.toList
  have hscan : scanBody (s.toList.flatMap escapeLiteralChar ++ '"' :: rest) =
      some (s.toList.flatMap escapeLiteralChar, rest) :=
    scanBody_eq_some_iff.mpr ⟨rfl, hescaped.isQuotedBody⟩
  rw [toList_stringLiteral, List.cons_append, List.append_assoc, List.singleton_append,
    readLiteral?, hscan, Option.map_some]
  dsimp only
  rw [hescaped.unescape_eq, String.ofList_toList]

theorem protectsMarks_stringLiteral (s : String) : ProtectsMarks (stringLiteral s).toList := by
  rw [toList_stringLiteral]
  exact .cons (by decide) (escaped_flatMap s.toList).protectsMarks

/-- A literal is written by two replacements, one after the other, and read as its text.
What follows it is left as it is, nothing in it is an interpolation, and no other text
has the same literal. -/
theorem stringLiteral_reads_back (s : String) :
    (stringLiteral s).toList = '"' ::
      (replaceChar '"' ['\\', '"'] (replaceChar '\\' ['\\', '\\'] s.toList) ++ ['"']) ∧
    (∀ rest, readLiteral? ((stringLiteral s).toList ++ rest) = some (s, rest)) ∧
    ProtectsMarks (stringLiteral s).toList ∧
    ¬ StartsInterpolation (stringLiteral s).toList ∧
    ∀ s', stringLiteral s' = stringLiteral s ↔ s' = s := by
  have hprotects := protectsMarks_stringLiteral s
  refine ⟨?_, readLiteral?_append s, hprotects, hprotects.not_startsInterpolation, fun s' => ?_⟩
  · rw [← flatMap_escapeLiteralChar, toList_stringLiteral]
  · constructor
    · intro hsame
      have hread := readLiteral?_append s' []
      rw [hsame, readLiteral?_append s []] at hread
      cases hread
      rfl
    · rintro rfl
      rfl

/-- Backslashes before a quote and before what would be a placeholder. -/
example : readLiteral? "\"\\\\\\\"\\\\(a)\" + \"b\"".toList =
    some ("\\\"\\(a)", " + \"b\"".toList) := by decide +kernel

end Phrasebook
