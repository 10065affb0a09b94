-- Reading tables back. Keys and values stand in a table as they are, also with line feeds
-- and with what looks like another row. When their quotes are protected, the text of a
-- table is read as that table and is the text of no other one.
import Mathlib.Data.List.Infix
import Phrasebook.Proofs.QuotedBodies
import Phrasebook.StringsTable

namespace Phrasebook

theorem dropPrefix?_eq_some_iff {start text rest : List Char} :
    text.dropPrefix? start = some rest ↔ text = start ++ rest := by
  rw [List.dropPrefix?_eq_some_iff]
  simp

/-! ## Rows -/

namespace StringsPair

/-- A pair with a key and a value that may stand in quotes. -/
structure IsQuotable (p : StringsPair) : Prop where
  key : Text.IsQuotedBody p.key.toList
  value : Text.IsQuotedBody p.value.toList

instance (p : StringsPair) : Decidable p.IsQuotable :=
  decidable_of_iff (Text.IsQuotedBody p.key.toList ∧ Text.IsQuotedBody p.value.toList)
    ⟨fun h => ⟨h.1, h.2⟩, fun h => ⟨h.key, h.value⟩⟩

/-- The pair of the row at the start of a text, and what follows the row. -/
def read? (text : List Char) : Option (StringsPair × List Char) := do
  let text ← text.dropPrefix? ['"']
  let (key, text) ← Text.scanBody text
  let text ← text.dropPrefix? [' ', '=', ' ', '"']
  let (value, text) ← Text.scanBody text
  let rest ← text.dropPrefix? [';', '\n']
  return (⟨String.ofList key, String.ofList value⟩, rest)

/-- The row of the pair with its line feed. -/
def row (p : StringsPair) : List Char := p.line.toList ++ ['\n']

theorem row_eq (p : StringsPair) : p.row =
    '"' :: (p.key.toList ++ '"' :: ' ' :: '=' :: ' ' :: '"' ::
      (p.value.toList ++ ['"', ';', '\n'])) := by
  simp [row, line, Text.inQuotes]

theorem read?_eq_some_iff {text rest : List Char} {p : StringsPair} :
    read? text = some (p, rest) ↔ text = p.row ++ rest ∧ p.IsQuotable := by
  unfold read?
  simp only [Option.bind_eq_bind, Option.bind_eq_some_iff, Prod.exists, dropPrefix?_eq_some_iff,
    Text.scanBody_eq_some_iff, Option.pure_def, Option.some.injEq, Prod.mk.injEq]
  constructor
  · rintro ⟨_, rfl, key, _, ⟨rfl, hkey⟩, _, rfl, value, _, ⟨rfl, hvalue⟩, _, rfl, rfl, rfl⟩
    refine ⟨?_, ⟨?_, ?_⟩⟩
    · simp [row_eq]
    · rwa [String.toList_ofList]
    · rwa [String.toList_ofList]
  · rintro ⟨rfl, hkey, hvalue⟩
    refine ⟨_, ?_, p.key.toList, _, ⟨rfl, hkey⟩, _, rfl, p.value.toList, _, ⟨rfl, hvalue⟩, rest,
      rfl, ?_, rfl⟩
    · simp [row_eq]
    · simp

theorem read?_length {text rest : List Char} {p : StringsPair} (h : read? text = some (p, rest)) :
    rest.length < text.length := by
  rw [(read?_eq_some_iff.mp h).1, row_eq]
  simp only [List.cons_append, List.length_cons, List.length_append]
  omega

end StringsPair

/-! ## Tables -/

namespace StringsTable

/-- The pairs of a text that is nothing but rows. -/
def readPairs? : List Char → Option (List StringsPair)
  | [] => some []
  | c :: text =>
    match _h : StringsPair.read? (c :: text) with
    | some (p, rest) => (readPairs? rest).map (p :: ·)
    | none => none
termination_by text => text.length
decreasing_by exact StringsPair.read?_length ‹_›

/-- The table that a text says, if it is a header with rows behind it. -/
def read? (text : String) : Option StringsTable := do
  let text ← text.toList.dropPrefix? (generatedNotice ++ "//\n//: Language: ").toList
  let rows ← (text.dropWhile (· != '\n')).dropPrefix? ("\n//\n\n" : String).toList
  let pairs ← readPairs? rows
  return ⟨String.ofList (text.takeWhile (· != '\n')), pairs⟩

/-- A table in a language without line feeds, with pairs that may stand in quotes. -/
structure IsReadable (t : StringsTable) : Prop where
  language : '\n' ∉ t.language.toList
  pairs : ∀ p ∈ t.pairs, p.IsQuotable

theorem readPairs?_eq_some_iff {text : List Char} {pairs : List StringsPair} :
    readPairs? text = some pairs ↔
      text = pairs.flatMap StringsPair.row ∧ ∀ p ∈ pairs, p.IsQuotable := by
  fun_induction readPairs? text generalizing pairs with
  | case1 =>
    constructor
    · intro h
      cases h
      simp
    · rintro ⟨hrows, -⟩
      cases pairs with
      | nil => rfl
      | cons p pairs => simp [StringsPair.row_eq] at hrows
  | case2 c text p rest hread ih =>
    obtain ⟨htext, hp⟩ := StringsPair.read?_eq_some_iff.mp hread
    rw [Option.map_eq_some_iff]
    constructor
    · rintro ⟨more, hmore, rfl⟩
      obtain ⟨rfl, hall⟩ := ih.mp hmore
      exact ⟨by rw [htext, List.flatMap_cons], List.forall_mem_cons.mpr ⟨hp, hall⟩⟩
    · rintro ⟨hrows, hall⟩
      cases pairs with
      | nil => simp at hrows
      | cons q more =>
        -- the row at the start is read in one way only
        obtain ⟨hq, hmore⟩ := List.forall_mem_cons.mp hall
        have hagain := StringsPair.read?_eq_some_iff.mpr ⟨hrows, hq⟩
        rw [hread] at hagain
        cases hagain
        exact ⟨more, ih.mpr ⟨rfl, hmore⟩, rfl⟩
  | case3 c text hread =>
    constructor
    · intro h
      cases h
    · rintro ⟨hrows, hall⟩
      cases pairs with
      | nil => simp at hrows
      | cons q more =>
        have hagain := StringsPair.read?_eq_some_iff.mpr
          ⟨hrows, hall q List.mem_cons_self⟩
        rw [hread] at hagain
        cases hagain

theorem toList_render (t : StringsTable) : t.render.toList =
    (generatedNotice ++ "//\n//: Language: ").toList ++ (t.language.toList ++
      (("\n//\n\n" : String).toList ++ t.pairs.flatMap StringsPair.row)) := by
  have hrows : (String.join (t.pairs.map (·.line ++ "\n"))).toList =
      t.pairs.flatMap StringsPair.row := by
    simp only [String.toList_join, List.flatMap_map, String.toList_append]
    rfl
  rw [render, String.toList_append, hrows, header]
  simp only [String.toList_append, List.append_assoc]

theorem read?_eq_some_iff {text : String} {t : StringsTable} :
    read? text = some t ↔ text = t.render ∧ t.IsReadable := by
  unfold read?
  simp only [Option.bind_eq_bind, Option.bind_eq_some_iff, dropPrefix?_eq_some_iff,
    readPairs?_eq_some_iff, Option.pure_def, Option.some.injEq]
  constructor
  · rintro ⟨body, hbody, rows, hrows, pairs, ⟨rfl, hpairs⟩, rfl⟩
    refine ⟨?_, ?_, hpairs⟩
    · rw [← String.toList_inj, toList_render, hbody, String.toList_ofList, ← hrows,
        List.takeWhile_append_dropWhile]
    · rw [String.toList_ofList]
      intro hmem
      exact absurd (List.all_eq_true.mp List.all_takeWhile _ hmem) (by decide)
  · rintro ⟨rfl, hlanguage, hpairs⟩
    have hbefore : ∀ c ∈ t.language.toList, (c != '\n') = true := by
      intro c hc
      rw [bne_iff_ne]
      rintro rfl
      exact hlanguage hc
    refine ⟨_, t.toList_render, _, ?_, t.pairs, ⟨rfl, hpairs⟩, ?_⟩
    · rw [List.dropWhile_append_of_pos hbefore]
      rfl
    · rw [List.takeWhile_append_of_pos hbefore]
      simp

/-- Two tables with one text are one table, and the text is read as that table. -/
theorem render_uniquely_decodable {t t' : StringsTable} (h : t.IsReadable) (h' : t'.IsReadable) :
    (t.render = t'.render → t.language = t'.language ∧ t.pairs = t'.pairs) ∧
    ∀ text, read? text = some t ↔ text = t.render := by
  constructor
  · intro hsame
    have hread := read?_eq_some_iff.mpr ⟨rfl, h⟩
    rw [hsame, read?_eq_some_iff.mpr ⟨rfl, h'⟩] at hread
    cases hread
    exact ⟨rfl, rfl⟩
  · intro text
    rw [read?_eq_some_iff, and_iff_left h]

/-- The value of the one row goes on with what looks like a second row. -/
def twoLines : StringsTable where
  language := "en"
  pairs := [⟨"title", "Home\\\";\n\\\"back\\\" = \\\"Back"⟩]

/-- Here the second row is one. -/
def twoRows : StringsTable where
  language := "en"
  pairs := [⟨"title", "Home"⟩, ⟨"back", "Back"⟩]

theorem twoLines_uniquely_decodable : twoLines.IsReadable ∧ twoRows.IsReadable ∧
    twoLines.render ≠ twoRows.render ∧ read? twoLines.render = some twoLines := by
  have hlines : twoLines.IsReadable := ⟨by decide, by decide⟩
  have hrows : twoRows.IsReadable := ⟨by decide, by decide⟩
  obtain ⟨hsame, hread⟩ := render_uniquely_decodable hlines hrows
  refine ⟨hlines, hrows, fun heq => ?_, (hread _).mpr rfl⟩
  have hpairs := congrArg List.length (hsame heq).2
  exact absurd hpairs (by decide)

end StringsTable

end Phrasebook
