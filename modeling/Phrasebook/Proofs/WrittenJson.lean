-- JSON values that are written and read again. A text spells a value with blanks
-- where indented lines have them, and reading it finds the value, whatever follows.
import Mathlib.Tactic.SplitIfs
import Phrasebook.Json
import Phrasebook.Json.Reading

namespace Phrasebook.Json

/-! ## Strings -/

section

variable {c e : Char} {rest : List Char}

/-- The parts of a string that has one more character in front. -/
def withChar (c : Char) (read : List StringPart × List Char) : List StringPart × List Char :=
  (.char c :: read.1, read.2)

theorem stringParts_shortEscape (h : shortEscape? e = some c) :
    stringParts ('\\' :: e :: rest) = (stringParts rest).map (withChar c) := by
  have hu : e ≠ 'u' := by
    rintro rfl
    simp [shortEscape?] at h
  rw [stringParts]
  · simp only [h]
    cases stringParts rest <;> rfl
  · intro _ _ _ _ _ hu' _
    exact hu hu'

theorem stringParts_unit {n : Nat} {a b d : Char} (h : unit? a b d e = some n) :
    stringParts ('\\' :: 'u' :: a :: b :: d :: e :: rest) =
      (stringParts rest).map fun read => (unitPart n :: read.1, read.2) := by
  rw [stringParts, h]
  cases stringParts rest <;> rfl

theorem stringParts_plain (hquote : c ≠ '"') (hbackslash : c ≠ '\\')
    (hcontrol : ¬ c.toNat < 0x20) :
    stringParts (c :: rest) = (stringParts rest).map (withChar c) := by
  rw [stringParts]
  · rw [if_neg hcontrol]
    cases stringParts rest <;> rfl
  · exact hquote
  · intro _ _ _ _ _ hu
    exact absurd hu hbackslash
  · intro _ _ he
    exact absurd he hbackslash

theorem hexDigits_control {n : Nat} (h : n < 0x20) :
    unit? '0' '0' (hexDigit (n / 16)) (hexDigit (n % 16)) = some n := by
  have hall : ∀ n < 0x20, unit? '0' '0' (hexDigit (n / 16)) (hexDigit (n % 16)) = some n := by
    decide
  exact hall n h

/-- A character reads back from its escape. -/
theorem stringParts_escapeChar (c : Char) (rest : List Char) :
    stringParts (escapeChar c ++ rest) = (stringParts rest).map (withChar c) := by
  unfold escapeChar
  split_ifs with hquote hbackslash hb hf hn hr ht hcontrol
  · exact stringParts_shortEscape (by rw [hquote]; rfl)
  · exact stringParts_shortEscape (by rw [hbackslash]; rfl)
  · exact stringParts_shortEscape (by rw [hb]; rfl)
  · exact stringParts_shortEscape (by rw [hf]; rfl)
  · exact stringParts_shortEscape (by rw [hn]; rfl)
  · exact stringParts_shortEscape (by rw [hr]; rfl)
  · exact stringParts_shortEscape (by rw [ht]; rfl)
  · -- A control character is far below the halves of pairs.
    have hpart : unitPart c.toNat = .char c := by
      have hlow : isSurrogate c.toNat = false := by
        simp only [isSurrogate, Bool.and_eq_false_iff, decide_eq_false_iff_not]
        omega
      simp [unitPart, hlow]
    refine (stringParts_unit (hexDigits_control hcontrol)).trans ?_
    rw [hpart]
    rfl
  · exact stringParts_plain hquote hbackslash hcontrol

theorem stringParts_flatMap (cs rest : List Char) :
    stringParts (cs.flatMap escapeChar ++ '"' :: rest) = some (cs.map .char, rest) := by
  induction cs with
  | nil => simp [stringParts]
  | cons c cs ih =>
    rw [List.flatMap_cons, List.append_assoc, stringParts_escapeChar, ih]
    rfl

theorem joinParts_char (cs : List Char) : joinParts (cs.map .char) = some cs := by
  induction cs with
  | nil => rfl
  | cons c cs ih => simp [joinParts, ih]

/-- A string reads back up to its closing quote. -/
theorem readString_flatMap (s : String) (rest : List Char) :
    readString (s.toList.flatMap escapeChar ++ '"' :: rest) = (.text s, rest) := by
  simp [readString, stringParts_flatMap, stringNode, joinParts_char]

end

/-! ## Spellings -/

/-- Blanks, as they may stand between the parts of a value. -/
def Blank (cs : List Char) : Prop := ∀ c ∈ cs, isSpace c = true

mutual

/-- A text that spells a value. Blanks may stand before an item or a member, before its
value and before a closing bracket. -/
inductive Spells : Json → List Char → Prop where
  | string (s : String) : Spells (.string s) (stringChars s)
  | noItems : Spells (.array []) ['[', ']']
  | items {item : Json} {items : List Json} {before text after : List Char}
      (hblank : Blank before) (hitem : Spells item text) (hitems : SpellsItems items after) :
      Spells (.array (item :: items)) ('[' :: before ++ text ++ after)
  | noMembers : Spells (.object []) ['{', '}']
  | members (key : String) {value : Json} {members : List (String × Json)}
      {before between text after : List Char} (hblank : Blank before) (hbetween : Blank between)
      (hvalue : Spells value text) (hmembers : SpellsMembers members after) :
      Spells (.object ((key, value) :: members))
        ('{' :: before ++ stringChars key ++ ':' :: between ++ text ++ after)

/-- A text that spells the items after an item, and the bracket that closes the array. -/
inductive SpellsItems : List Json → List Char → Prop where
  | nil {before : List Char} (hblank : Blank before) : SpellsItems [] (before ++ [']'])
  | cons {item : Json} {items : List Json} {before text after : List Char}
      (hblank : Blank before) (hitem : Spells item text) (hitems : SpellsItems items after) :
      SpellsItems (item :: items) (',' :: before ++ text ++ after)

inductive SpellsMembers : List (String × Json) → List Char → Prop where
  | nil {before : List Char} (hblank : Blank before) : SpellsMembers [] (before ++ ['}'])
  | cons (key : String) {value : Json} {members : List (String × Json)}
      {before between text after : List Char} (hblank : Blank before) (hbetween : Blank between)
      (hvalue : Spells value text) (hmembers : SpellsMembers members after) :
      SpellsMembers ((key, value) :: members)
        (',' :: before ++ stringChars key ++ ':' :: between ++ text ++ after)

end

theorem blank_nil : Blank [] := by simp [Blank]

theorem blank_space : Blank [' '] := by
  intro c hc
  obtain rfl : c = ' ' := List.mem_singleton.mp hc
  rfl

theorem blank_newLine (depth : Nat) : Blank (newLine depth) := by
  intro c hc
  rcases List.mem_cons.mp hc with rfl | hc
  · rfl
  · obtain rfl := List.eq_of_mem_replicate hc
    rfl

mutual

theorem compactChars_spells : (j : Json) → Spells j (compactChars j)
  | .string s => .string s
  | .array [] => .noItems
  | .array (item :: items) =>
    .items blank_nil (compactChars_spells item) (compactItems_spells items)
  | .object [] => .noMembers
  | .object ((key, value) :: members) => by
    have hvalue := compactChars_spells value
    have hmembers := compactMembers_spells members
    simpa [compactChars] using Spells.members key blank_nil blank_nil hvalue hmembers

theorem compactItems_spells : (items : List Json) → SpellsItems items (compactItems items)
  | [] => .nil blank_nil
  | item :: items => .cons blank_nil (compactChars_spells item) (compactItems_spells items)

theorem compactMembers_spells :
    (members : List (String × Json)) → SpellsMembers members (compactMembers members)
  | [] => .nil blank_nil
  | (key, value) :: members => by
    have hvalue := compactChars_spells value
    have hmembers := compactMembers_spells members
    simpa [compactMembers] using SpellsMembers.cons key blank_nil blank_nil hvalue hmembers

end

mutual

theorem prettyChars_spells (depth : Nat) : (j : Json) → Spells j (prettyChars depth j)
  | .string s => .string s
  | .array [] => .noItems
  | .array (item :: items) => by
    have hitem := prettyChars_spells (depth + 1) item
    have hitems := prettyItems_spells depth items
    simpa [prettyChars] using Spells.items (blank_newLine (depth + 1)) hitem hitems
  | .object [] => .noMembers
  | .object ((key, value) :: members) => by
    have hvalue := prettyChars_spells (depth + 1) value
    have hmembers := prettyMembers_spells depth members
    simpa [prettyChars] using
      Spells.members key (blank_newLine (depth + 1)) blank_space hvalue hmembers

theorem prettyItems_spells (depth : Nat) :
    (items : List Json) → SpellsItems items (prettyItems depth items)
  | [] => .nil (blank_newLine depth)
  | item :: items => by
    have hitem := prettyChars_spells (depth + 1) item
    have hitems := prettyItems_spells depth items
    simpa [prettyItems] using SpellsItems.cons (blank_newLine (depth + 1)) hitem hitems

theorem prettyMembers_spells (depth : Nat) :
    (members : List (String × Json)) → SpellsMembers members (prettyMembers depth members)
  | [] => .nil (blank_newLine depth)
  | (key, value) :: members => by
    have hvalue := prettyChars_spells (depth + 1) value
    have hmembers := prettyMembers_spells depth members
    simpa [prettyMembers] using
      SpellsMembers.cons key (blank_newLine (depth + 1)) blank_space hvalue hmembers

end

/-! ## Reading a spelling -/

mutual

/-- What a document says where a value stands. -/
def toNode : Json → Node
  | string s => .text s
  | array items => .list (itemNodes items)
  | object members => .map (memberNodes members)

def itemNodes : List Json → List Node
  | [] => []
  | item :: rest => toNode item :: itemNodes rest

def memberNodes : List (String × Json) → List (Node × Node)
  | [] => []
  | (key, value) :: rest => (.text key, toNode value) :: memberNodes rest

end

theorem itemNodes_eq_map (items : List Json) : itemNodes items = items.map toNode := by
  induction items with
  | nil => rfl
  | cons item rest ih => simp [itemNodes, ih]

section

variable {before cs rest : List Char} {fuel : Nat}

theorem skipSpace_blank (hblank : Blank before) (cs : List Char) :
    skipSpace (before ++ cs) = skipSpace cs :=
  List.dropWhile_append_of_pos hblank

theorem skipSpace_mark {c : Char} (hc : isSpace c = false) (cs : List Char) :
    skipSpace (c :: cs) = c :: cs := by
  simp [skipSpace, hc]

theorem readValue_blank (hblank : Blank before) (fuel : Nat) (cs : List Char) :
    readValue fuel (before ++ cs) = readValue fuel cs := by
  cases fuel with
  | zero => simp [readValue]
  | succ fuel => rw [readValue, readValue, skipSpace_blank hblank]

theorem readMembers_blank (hblank : Blank before) (fuel : Nat) (cs : List Char) :
    readMembers fuel (before ++ cs) = readMembers fuel cs := by
  cases fuel with
  | zero => simp [readMembers]
  | succ fuel => rw [readMembers, readMembers, skipSpace_blank hblank]

/-! ### One step -/

variable {nodes : List Node} {members : List (Node × Node)} {node : Node}

theorem stringChars_append (s : String) (rest : List Char) :
    stringChars s ++ rest = '"' :: (s.toList.flatMap escapeChar ++ '"' :: rest) := by
  simp [stringChars]

theorem readValue_string (s : String) (fuel : Nat) (rest : List Char) :
    readValue (fuel + 1) (stringChars s ++ rest) = (.text s, rest) := by
  rw [readValue, stringChars_append, skipSpace_mark rfl]
  simp [readString_flatMap]

/-- The text opens with neither a blank nor the bracket that closes an array. -/
def Opens (cs : List Char) : Prop :=
  ∃ c tail, cs = c :: tail ∧ isSpace c = false ∧ c ≠ ']'

theorem Spells.opens {j : Json} {text : List Char} (h : Spells j text) (rest : List Char) :
    Opens (text ++ rest) := by
  cases h
  case string s => exact ⟨'"', _, rfl, rfl, by decide⟩
  case noItems => exact ⟨'[', _, rfl, rfl, by decide⟩
  case items => exact ⟨'[', _, rfl, rfl, by decide⟩
  case noMembers => exact ⟨'\x7b', _, rfl, rfl, by decide⟩
  case members => exact ⟨'\x7b', _, rfl, rfl, by decide⟩

theorem readValue_items (hblank : Blank before) (hopens : Opens cs)
    (hitems : readItems fuel cs = (nodes, rest)) :
    readValue (fuel + 1) ('[' :: (before ++ cs)) = (.list nodes, rest) := by
  obtain ⟨c, tail, rfl, hspace, hbracket⟩ := hopens
  rw [readValue, skipSpace_mark rfl]
  simp [skipSpace_blank hblank, skipSpace_mark hspace, hbracket, hitems]

theorem readItems_last (hblank : Blank before)
    (hitem : readValue fuel cs = (node, before ++ ']' :: rest)) :
    readItems (fuel + 1) cs = ([node], rest) := by
  rw [readItems, hitem]
  simp [skipSpace_blank hblank, skipSpace_mark, isSpace]

theorem readItems_more {after : List Char} (hitem : readValue fuel cs = (node, ',' :: after))
    (hitems : readItems fuel after = (nodes, rest)) :
    readItems (fuel + 1) cs = (node :: nodes, rest) := by
  rw [readItems, hitem]
  simp [skipSpace_mark, isSpace, hitems]

theorem readValue_members {key : String} (hblank : Blank before)
    (hmembers : readMembers fuel (stringChars key ++ cs) = (members, rest)) :
    readValue (fuel + 1) ('\x7b' :: (before ++ (stringChars key ++ cs))) =
      (.map members, rest) := by
  rw [stringChars_append] at hmembers ⊢
  rw [readValue, skipSpace_mark rfl]
  simp [skipSpace_blank hblank, skipSpace_mark, isSpace, hmembers]

theorem readMembers_last {key : String} (hblank : Blank before)
    (hvalue : readValue fuel cs = (node, before ++ '\x7d' :: rest)) :
    readMembers (fuel + 1) (stringChars key ++ ':' :: cs) = ([(.text key, node)], rest) := by
  rw [readMembers, stringChars_append, skipSpace_mark rfl]
  simp [readString_flatMap, skipSpace_mark, isSpace, hvalue, skipSpace_blank hblank]

theorem readMembers_more {key : String} {after : List Char}
    (hvalue : readValue fuel cs = (node, ',' :: after))
    (hmembers : readMembers fuel after = (members, rest)) :
    readMembers (fuel + 1) (stringChars key ++ ':' :: cs) =
      ((.text key, node) :: members, rest) := by
  rw [readMembers, stringChars_append, skipSpace_mark rfl]
  simp [readString_flatMap, skipSpace_mark, isSpace, hvalue, hmembers]

end

theorem Spells.length_pos {j : Json} {text : List Char} (h : Spells j text) : 0 < text.length := by
  cases h <;> simp [stringChars]

theorem SpellsItems.length_pos {items : List Json} {after : List Char}
    (h : SpellsItems items after) : 0 < after.length := by
  cases h <;> simp

theorem SpellsMembers.length_pos {members : List (String × Json)} {after : List Char}
    (h : SpellsMembers members after) : 0 < after.length := by
  cases h <;> simp

/-! ### A whole value

The number that bounds a reading is taken down by one for each value, each further
item and each further member, all of which have a character of their own. -/

theorem exists_succ {fuel n : Nat} (hpos : 0 < n) (hfuel : n ≤ fuel) : ∃ k, fuel = k + 1 :=
  Nat.exists_eq_succ_of_ne_zero (by omega)

/-- What is left for a part of a text and for what follows it. -/
theorem exists_fuel {fuel m n : Nat} (hm : 0 < m) (hn : 0 < n) (hfuel : m + n ≤ fuel) :
    ∃ k, fuel = k + 1 ∧ m ≤ k ∧ n ≤ k := by
  obtain ⟨k, rfl⟩ := exists_succ hm (by omega : m ≤ fuel)
  exact ⟨k, rfl, by omega, by omega⟩

mutual

theorem readValue_spells {j : Json} {text : List Char} (h : Spells j text) {fuel : Nat}
    (hfuel : text.length ≤ fuel) (rest : List Char) :
    readValue fuel (text ++ rest) = (j.toNode, rest) := by
  obtain ⟨fuel, rfl⟩ := exists_succ h.length_pos hfuel
  match h with
  | .string s => exact readValue_string s fuel rest
  | .noItems => rfl
  | .noMembers => rfl
  | @Spells.items item items before text after hblank hitem hitems =>
    simp only [List.length_append, List.length_cons] at hfuel
    obtain ⟨fuel, rfl, htext, hafter⟩ := exists_fuel hitem.length_pos hitems.length_pos
      (by omega : text.length + after.length ≤ fuel)
    have hfirst := readValue_spells hitem htext (after ++ rest)
    have hall := readItems_spells hitems hafter hfirst
    have hread := readValue_items hblank (hitem.opens (after ++ rest)) hall
    simpa [toNode, itemNodes] using hread
  | @Spells.members key value members before between text after hblank hbetween hvalue hmembers =>
    simp only [List.length_append, List.length_cons] at hfuel
    obtain ⟨fuel, rfl, htext, hafter⟩ := exists_fuel hvalue.length_pos hmembers.length_pos
      (by omega : text.length + after.length ≤ fuel)
    have hfirst := readValue_spells hvalue htext (after ++ rest)
    rw [← readValue_blank hbetween] at hfirst
    have hall := readMembers_spells hmembers hafter key hfirst
    have hread := readValue_members hblank hall
    simpa [toNode, memberNodes] using hread

theorem readItems_spells {items : List Json} {after : List Char} (h : SpellsItems items after)
    {fuel : Nat} (hfuel : after.length ≤ fuel) {cs rest : List Char} {node : Node}
    (hfirst : readValue fuel cs = (node, after ++ rest)) :
    readItems (fuel + 1) cs = (node :: itemNodes items, rest) := by
  match h with
  | .nil hblank =>
    rw [List.append_assoc] at hfirst
    exact readItems_last hblank hfirst
  | @SpellsItems.cons item items before text after hblank hitem hitems =>
    simp only [List.length_append, List.length_cons] at hfuel
    obtain ⟨fuel, rfl, htext, hafter⟩ := exists_fuel hitem.length_pos hitems.length_pos
      (by omega : text.length + after.length ≤ fuel)
    have hnext := readValue_spells hitem htext (after ++ rest)
    rw [← readValue_blank hblank] at hnext
    have hall := readItems_spells hitems hafter hnext
    apply readItems_more _ hall
    simpa using hfirst

theorem readMembers_spells {members : List (String × Json)} {after : List Char}
    (h : SpellsMembers members after) {fuel : Nat} (hfuel : after.length ≤ fuel)
    (first : String) {cs rest : List Char} {node : Node}
    (hfirst : readValue fuel cs = (node, after ++ rest)) :
    readMembers (fuel + 1) (stringChars first ++ ':' :: cs) =
      ((.text first, node) :: memberNodes members, rest) := by
  match h with
  | .nil hblank =>
    rw [List.append_assoc] at hfirst
    exact readMembers_last hblank hfirst
  | @SpellsMembers.cons key value members before between text after hblank hbetween hvalue
      hmembers =>
    simp only [List.length_append, List.length_cons] at hfuel
    obtain ⟨fuel, rfl, htext, hafter⟩ := exists_fuel hvalue.length_pos hmembers.length_pos
      (by omega : text.length + after.length ≤ fuel)
    have hnext := readValue_spells hvalue htext (after ++ rest)
    rw [← readValue_blank hbetween] at hnext
    have hall := readMembers_spells hmembers hafter key hnext
    -- The comma is followed by blanks before the key, which the reader skips itself.
    rw [← readMembers_blank hblank] at hall
    apply readMembers_more _ hall
    simpa using hfirst

end

/-! ## Documents -/

/-- A text that spells a value is a whole document that says the value, with blanks after
it or without. -/
theorem read_of_spells {j : Json} {s : String} {text blanks : List Char} (h : Spells j text)
    (hblank : Blank blanks) (hs : s.toList = text ++ blanks) :
    read s = ⟨j.toNode, [], .exact, true⟩ := by
  have hlength : text.length ≤ 2 * s.length + 2 := by
    rw [← String.length_toList, hs, List.length_append]
    omega
  have hrest : skipSpace blanks = [] := by
    simpa [skipSpace] using skipSpace_blank hblank []
  rw [read, hs, readValue_spells h hlength]
  dsimp only
  rw [hrest]
  rfl

theorem read_compact (j : Json) : read j.compact = ⟨j.toNode, [], .exact, true⟩ := by
  apply read_of_spells (compactChars_spells j) blank_nil
  rw [compact, String.toList_ofList, List.append_nil]

/-- Indented lines are read with the line feed that ends them. -/
theorem read_pretty (j : Json) : read (j.pretty ++ "\n") = ⟨j.toNode, [], .exact, true⟩ := by
  apply read_of_spells (prettyChars_spells 0 j) (blank_newLine 0)
  rw [pretty, String.toList_append, String.toList_ofList]
  rfl

end Phrasebook.Json
