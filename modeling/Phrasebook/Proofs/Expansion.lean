-- What a value means. A program that reads a table expands the directives
-- of a value, and what comes out is the template with a text in the place of
-- each placeholder.
import Phrasebook.Proofs.PlaceholderScan
import Phrasebook.Proofs.Resolution

namespace Phrasebook

/-! ## Directives and their expansion -/

namespace Directive

/-- The text after a `$` and one of the specifiers. -/
def specifier? : List Char → Option (List Char)
  | '$' :: '@' :: rest => some rest
  | '$' :: 'l' :: 'l' :: 'd' :: rest => some rest
  | '$' :: 'l' :: 'f' :: rest => some rest
  | _ => none

/-- The text with a decimal number, counted from 1. -/
def text? (texts : List String) (digits : List Char) : Option String :=
  match Nat.ofDigitChars 10 digits 0 with
  | 0 => none
  | place + 1 => texts[place]?

/-- The text that stands for the directive at the start, and what follows the
directive. -/
def read? (texts : List String) : List Char → Option (String × List Char)
  | '%' :: rest =>
    match text? texts (rest.takeWhile Char.isDigit), specifier? (rest.dropWhile Char.isDigit) with
    | some text, some after => some (text, after)
    | _, _ => none
  | _ => none

theorem specifier?_length {cs after : List Char} (h : specifier? cs = some after) :
    after.length < cs.length := by
  unfold specifier? at h
  split at h <;> cases h <;> simp only [List.length_cons] <;> omega

theorem read?_length {texts : List String} {cs after : List Char} {text : String}
    (h : read? texts cs = some (text, after)) : after.length < cs.length := by
  unfold read? at h
  split at h
  · rename_i rest
    split at h
    · rename_i hafter
      cases h
      have hshort := specifier?_length hafter
      have hdrop := (List.dropWhile_sublist Char.isDigit (l := rest)).length_le
      simp only [List.length_cons]
      omega
    · cases h
  · cases h

end Directive

/-- One pass over a text from the left. Each directive of one of the texts
becomes that text, and everything else is copied. -/
def expandChars (texts : List String) : List Char → List Char
  | [] => []
  | c :: rest =>
    match _h : Directive.read? texts (c :: rest) with
    | some (text, after) => text.toList ++ expandChars texts after
    | none => c :: expandChars texts rest
termination_by cs => cs.length
decreasing_by
  · exact Directive.read?_length ‹_›
  · simp

def expand (texts : List String) (value : String) : String :=
  String.ofList (expandChars texts value.toList)

/-! ## Texts in the place of placeholders -/

/-- The text that is given to the argument of a name. -/
def textOf (arguments : List Argument) (texts : List String) (name : String) : String :=
  (((arguments.map (·.name)).zip texts).lookup name).getD ""

namespace Template

/-- A template from an offset on, with texts in the place of the placeholders
that are still to come. -/
def fillFrom (text : String → String) (source : String) (offset : Nat) : List Placeholder → String
  | [] => String.Pos.Raw.extract source ⟨offset⟩ ⟨source.utf8ByteSize⟩
  | p :: rest =>
    String.Pos.Raw.extract source ⟨offset⟩ ⟨p.start⟩ ++ text p.name ++
      fillFrom text source p.stop rest

/-- A template with the text of its name in the place of each placeholder. -/
def fill (text : String → String) (source : String) : String :=
  fillFrom text source 0 (placeholders source)

end Template

/-- What a piece becomes when its placeholder is filled. -/
def Piece.filled (text : String → String) : Piece → List Char
  | literal c => [c]
  | reference name => (text (String.ofList name)).toList

namespace Template

theorem fillFrom_locate (text : String → String) (before plain : List Char) (ps : List Piece) :
    fillFrom text (String.ofList (before ++ plain ++ ps.flatMap Piece.source))
        (String.utf8Len before) (locate (String.utf8Len (before ++ plain)) ps) =
      String.ofList (plain ++ ps.flatMap (Piece.filled text)) := by
  induction ps generalizing before plain with
  | nil =>
    have hextract := String.extract_of_valid before plain []
    have hsize : (String.ofList (before ++ plain)).utf8ByteSize =
        String.utf8Len before + String.utf8Len plain := by
      rw [String.utf8ByteSize_ofList, String.utf8Len_append]
    simp only [List.flatMap_nil, List.append_nil] at hextract ⊢
    rw [locate, fillFrom, hsize, hextract]
  | cons p ps ih =>
    cases p with
    | literal c =>
      -- a character more of plain text is pending
      have hnext := ih before (plain ++ [c])
      simpa [locate, Piece.width, Piece.source, Piece.filled, Nat.add_assoc] using hnext
    | reference name =>
      -- the pending text is cut out, and none is pending after the placeholder
      have hextract := String.extract_of_valid before plain
        ((Piece.reference name).source ++ ps.flatMap Piece.source)
      have hnext := ih (before ++ plain ++ (Piece.reference name).source) []
      simp only [List.append_nil, List.append_assoc, List.nil_append] at hextract hnext
      rw [List.flatMap_cons, locate, fillFrom, Piece.width, utf8Length_eq, ← String.utf8Len_append,
        String.utf8Len_append before plain, List.append_assoc, List.append_assoc, hextract, hnext]
      simp [Piece.filled, String.append_assoc]

theorem fill_eq (text : String → String) (source : String) :
    fill text source =
      String.ofList ((pieces source.toList).flatMap (Piece.filled text)) := by
  have hfill := fillFrom_locate text [] [] (pieces source.toList)
  rw [pieces_source] at hfill
  simpa [fill, placeholders] using hfill

end Template

/-! ## Expansion of values -/

namespace Directive

theorem toList_positionalSpecifier (t : ArgumentType) (place : Nat) :
    (t.positionalSpecifier place).toList =
      '%' :: (Nat.toDigits 10 place ++ '$' :: t.specifier.toList) := by
  simp [ArgumentType.positionalSpecifier, Nat.toList_repr]

theorem specifier?_specifier (t : ArgumentType) (rest : List Char) :
    specifier? ('$' :: t.specifier.toList ++ rest) = some rest := by
  cases t <;> rfl

theorem text?_toDigits (texts : List String) (place : Nat) :
    text? texts (Nat.toDigits 10 (place + 1)) = texts[place]? := by
  unfold text?
  rw [Nat.ofDigitChars_ten_toDigits]

/-- The specifier of an argument is read back as the text of that argument. -/
theorem read?_positionalSpecifier {texts : List String} {place : Nat} {text : String}
    (h : texts[place]? = some text) (t : ArgumentType) (rest : List Char) :
    read? texts ((t.positionalSpecifier (place + 1)).toList ++ rest) = some (text, rest) := by
  have hdigits : ∀ c ∈ Nat.toDigits 10 (place + 1), c.isDigit := fun c hc =>
    Nat.isDigit_of_mem_toDigits (by omega) (by omega) hc
  have htake : (Nat.toDigits 10 (place + 1) ++ ('$' :: t.specifier.toList ++ rest)).takeWhile
      Char.isDigit = Nat.toDigits 10 (place + 1) := by
    rw [List.takeWhile_append_of_pos hdigits]
    simp
  have hdrop : (Nat.toDigits 10 (place + 1) ++ ('$' :: t.specifier.toList ++ rest)).dropWhile
      Char.isDigit = '$' :: t.specifier.toList ++ rest := by
    rw [List.dropWhile_append_of_pos hdigits]
    simp
  rw [toList_positionalSpecifier, List.cons_append, List.append_assoc, read?, htake, hdrop,
    text?_toDigits, h, specifier?_specifier]

theorem read?_of_ne {texts : List String} {c : Char} {rest : List Char} (h : c ≠ '%') :
    read? texts (c :: rest) = none := by
  unfold read?
  split
  · rename_i hstart
    exact absurd (List.cons.inj hstart).1 h
  · rfl

end Directive

theorem expandChars_plain {texts : List String} {c : Char} {rest : List Char} (h : c ≠ '%') :
    expandChars texts (c :: rest) = c :: expandChars texts rest := by
  rw [expandChars]
  split
  · rename_i hread
    rw [Directive.read?_of_ne h] at hread
    cases hread
  · rfl

theorem expandChars_positionalSpecifier {texts : List String} {place : Nat} {text : String}
    (h : texts[place]? = some text) (t : ArgumentType) (rest : List Char) :
    expandChars texts ((t.positionalSpecifier (place + 1)).toList ++ rest) =
      text.toList ++ expandChars texts rest := by
  have hread := Directive.read?_positionalSpecifier h t rest
  rw [Directive.toList_positionalSpecifier, List.cons_append] at hread ⊢
  rw [expandChars]
  split
  · rename_i hsome
    rw [hread] at hsome
    cases hsome
    rfl
  · rename_i hnone
    rw [hread] at hnone
    cases hnone

/-- A value without `%` in its plain text expands to the filled template. -/
theorem expandChars_output {arguments : List TypedArgument} {ps : List Piece}
    {resolved : List ResolvedPiece}
    (h : List.Forall₂ (ResolvedPiece.ComesFrom arguments) ps resolved)
    (hplain : '%' ∉ ps.flatMap Piece.source) (text : String → String) :
    expandChars (arguments.map (text ·.name)) (resolved.flatMap ResolvedPiece.output) =
      ps.flatMap (Piece.filled text) := by
  induction h with
  | nil => simp [expandChars]
  | @cons p r ps resolved hp _ ih =>
    rw [List.flatMap_cons, List.mem_append, not_or] at hplain
    have hrest := ih hplain.2
    rw [List.flatMap_cons, List.flatMap_cons, ← hrest]
    cases hp with
    | literal c =>
      have hc : c ≠ '%' := fun he => hplain.1 (by simp [Piece.source, he])
      exact expandChars_plain hc
    | @argument name place declared hat hname =>
      have htext : (arguments.map (text ·.name))[place]? = some (text (String.ofList name)) := by
        rw [List.getElem?_map, hat, Option.map_some, hname]
      exact expandChars_positionalSpecifier htext declared.type _

theorem ResolvedTemplate.ComesFrom.expand_value {entry : Entry} {arguments : List TypedArgument}
    {language : String} {t : ResolvedTemplate} (h : t.ComesFrom entry arguments language)
    (hplain : '%' ∉ t.source.toList) (text : String → String) :
    expand (arguments.map (text ·.name)) t.value = Template.fill text t.source := by
  unfold expand value
  have hsource := Template.pieces_source t.source.toList
  rw [String.toList_ofList, expandChars_output h.pieces (by rwa [hsource]), Template.fill_eq]

theorem map_textOf {arguments : List Argument} {texts : List String}
    (hnames : (arguments.map (·.name)).Nodup) (hlength : texts.length = arguments.length) :
    arguments.map (fun a => textOf arguments texts a.name) = texts := by
  induction arguments generalizing texts with
  | nil => exact (List.length_eq_zero_iff.mp hlength).symm
  | cons a rest ih =>
    cases texts with
    | nil => simp at hlength
    | cons t texts =>
      rw [List.map_cons, List.nodup_cons] at hnames
      have hfirst : textOf (a :: rest) (t :: texts) a.name = t := by simp [textOf]
      have hlater : ∀ b ∈ rest,
          textOf (a :: rest) (t :: texts) b.name = textOf rest texts b.name := by
        intro b hb
        have hne : (b.name == a.name) = false :=
          beq_false_of_ne fun he => hnames.1 (he ▸ List.mem_map_of_mem hb)
        simp [textOf, List.lookup_cons, hne]
      rw [List.map_cons, hfirst, List.map_congr_left hlater, ih hnames.2 (by simpa using hlength)]

/-- Each value means its template: expanded with a text for each argument, it is
the template with the text of its argument in the place of each placeholder. -/
theorem Catalog.value_means_template {c : Catalog} {r : ResolvedCatalog} (h : c.resolve = .ok r)
    {place : Nat} {entry : Entry} (hentry : c.entries[place]? = some entry)
    {language : String} (hlanguage : language ∈ c.languages) :
    ∃ e source value, r.entries[place]? = some e ∧ entry.localization? language = some source ∧
      e.value? language = some value ∧
      ('%' ∉ source.toList → ∀ texts : List String, texts.length = entry.arguments.length →
        expand texts value = Template.fill (textOf entry.arguments texts) source) := by
  have hentries := (comesFrom_of_resolve h).entries
  obtain ⟨e, he, hfrom⟩ := Validation.getElem?_of_forall₂ hentries hentry
  obtain ⟨t, ht, htemplate⟩ := hfrom.template?_eq hlanguage
  refine ⟨e, t.source, t.value, he, htemplate.source_eq, ?_, fun hplain texts hlength => ?_⟩
  · rw [ResolvedEntry.value?, ht, Option.map_some]
  · let text := textOf entry.arguments texts
    have htexts : e.arguments.map (text ·.name) = texts := by
      rw [Validation.map_eq_map_of_forall₂ (fun _ _ ha => congrArg text ha.name_eq) hfrom.arguments]
      exact map_textOf hfrom.names_nodup hlength
    have hexpand := htemplate.expand_value hplain text
    rwa [htexts] at hexpand

/-- The German text has an argument twice, and the other order of the arguments. -/
def Entry.greeting : Entry where
  key := "greeting"
  localizations := .ofList [("de", "\\(name), \\(name), ein \\(count)!"),
    ("en", "Hello \\(name)!")]
  arguments := [⟨"count", "Int"⟩, ⟨"name", "String"⟩]

/-- The German value, for every text of the count and of the name. -/
theorem Catalog.greeting_means_template :
    ∃ r e value, (Catalog.mk ["de", "en"] [.greeting]).resolve = .ok r ∧ r.entries[0]? = some e ∧
      e.value? "de" = some value ∧
      ∀ texts : List String, texts.length = 2 → expand texts value =
        Template.fill (textOf Entry.greeting.arguments texts)
          "\\(name), \\(name), ein \\(count)!" := by
  have hresolve : Validation.outcome (Catalog.mk ["de", "en"] [.greeting]).resolve = .ok () := by
    decide +kernel
  obtain ⟨r, hr⟩ := Validation.outcome_eq_ok_iff.mp hresolve
  have hentry : (Catalog.mk ["de", "en"] [.greeting]).entries[0]? = some .greeting := rfl
  obtain ⟨e, source, value, he, hsource, hvalue, hexpand⟩ :=
    value_means_template hr hentry List.mem_cons_self
  have hde : Entry.greeting.localization? "de" = some "\\(name), \\(name), ein \\(count)!" := by
    decide +kernel
  cases Option.some.inj (hsource.symm.trans hde)
  exact ⟨r, e, value, hr, he, hvalue, hexpand (by decide)⟩

end Phrasebook
