-- Templates that are put together from texts and references to arguments. When no
-- texts side by side open a placeholder, the template is read back as the same
-- parts. So it is accepted, and its value is put together in the same way.
import Phrasebook.Proofs.CallSites
import Phrasebook.Proofs.Independence
import Phrasebook.Proofs.LanguageCodes

namespace Phrasebook

/-! ## Pieces that are read back -/

def Piece.isReference : Piece → Bool
  | literal _ => false
  | reference _ => true

namespace Template

/-- Two characters of plain text that open a placeholder. -/
def opening : List Char := ['\\', '(']

theorem openName_literal {c : Char} {ps : List Piece}
    (hopen : ¬ opening.map Piece.literal <+: .literal c :: ps) :
    openName (c :: ps.flatMap Piece.source) = none := by
  by_cases hc : c = '\\'
  · subst hc
    cases ps with
    | nil => simp [openName]
    | cons p ps =>
      cases p with
      | literal d =>
        have hd : d ≠ '(' := by
          rintro rfl
          exact hopen (List.prefix_append _ ps)
        simp [openName, Piece.source, hd]
      | reference name => simp [openName, Piece.source]
  · exact openName_of_ne hc _

/-- Pieces are read back from their text when each placeholder closes where its name
ends and nothing else opens one. -/
theorem pieces_flatMap_source {ps : List Piece}
    (hnames : ∀ name, .reference name ∈ ps → ')' ∉ name ∧ '\n' ∉ name)
    (hopen : ¬ opening.map Piece.literal <:+: ps) : pieces (ps.flatMap Piece.source) = ps := by
  induction ps with
  | nil => simp [pieces]
  | cons p ps ih =>
    have hrest := ih (fun name hname => hnames name (List.mem_cons_of_mem p hname))
      fun hin => hopen (List.infix_cons hin)
    rw [List.flatMap_cons]
    cases p with
    | literal c =>
      have hnone := openName_literal fun hprefix => hopen hprefix.isInfix
      rw [Piece.source, List.singleton_append, pieces_of_openName_eq_none hnone, hrest]
    | reference name =>
      have hname : openName ((Piece.reference name).source ++ ps.flatMap Piece.source) =
          some (name, _) := openName_eq_some_iff.mpr ⟨rfl, hnames name List.mem_cons_self⟩
      rw [pieces_of_openName hname, hrest]

/-! ## Tokens -/

/-- A part that a template is put together from: a text, or a reference to one of a
number of arguments. -/
inductive Token (count : Nat) where
  | text (s : String)
  | reference (place : Fin count)

namespace Token

def isReference {count : Nat} : Token count → Bool
  | text _ => false
  | reference _ => true

/-- The token in a template. -/
def source (arguments : List TypedArgument) : Token arguments.length → String
  | text s => s
  | reference place => placeholderText arguments[place].name

/-- The token in a value. -/
def output (arguments : List TypedArgument) : Token arguments.length → String
  | text s => s
  | reference place => arguments[place].type.positionalSpecifier (place + 1)

def pieces (arguments : List TypedArgument) : Token arguments.length → List Piece
  | text s => s.toList.map .literal
  | reference place => [.reference arguments[place].name.toList]

end Token

variable {arguments : List TypedArgument}

def compose (arguments : List TypedArgument) (tokens : List (Token arguments.length)) : String :=
  String.join (tokens.map (Token.source arguments))

def composeValue (arguments : List TypedArgument) (tokens : List (Token arguments.length)) :
    String :=
  String.join (tokens.map (Token.output arguments))

/-- The texts between two references open no placeholder, not even together. -/
def OpensNothing (tokens : List (Token arguments.length)) : Prop :=
  ∀ run ∈ tokens.splitOnP Token.isReference, ¬ opening <:+: (compose arguments run).toList

instance (tokens : List (Token arguments.length)) : Decidable (OpensNothing tokens) :=
  inferInstanceAs (Decidable (∀ run ∈ tokens.splitOnP Token.isReference,
    ¬ opening <:+: (compose arguments run).toList))

theorem toList_compose (tokens : List (Token arguments.length)) :
    (compose arguments tokens).toList =
      (tokens.flatMap (Token.pieces arguments)).flatMap Piece.source := by
  have hsource : ∀ t : Token arguments.length,
      (t.source arguments).toList = (t.pieces arguments).flatMap Piece.source := by
    intro t
    cases t with
    | text s => simp [Token.source, Token.pieces, List.flatMap_map, Piece.source]
    | reference place => simp [Token.source, Token.pieces, toList_placeholderText]
  rw [compose, String.toList_join, List.flatMap_map, List.flatMap_assoc]
  simp only [hsource]

/-- Plain text in the pieces is plain text of some run of tokens. -/
theorem OpensNothing.not_infix {tokens : List (Token arguments.length)}
    (h : OpensNothing tokens) :
    ¬ opening.map Piece.literal <:+: tokens.flatMap (Token.pieces arguments) := by
  intro hin
  have hmark : ∀ t : Token arguments.length, t.isReference = true →
      ∃ p, t.pieces arguments = [p] ∧ p.isReference = true := by
    intro t ht
    cases t with
    | text s => cases ht
    | reference place => exact ⟨_, rfl, rfl⟩
  have hplain : ∀ t : Token arguments.length, t.isReference = false →
      ∀ p ∈ t.pieces arguments, p.isReference = false := by
    intro t ht p hp
    cases t with
    | text s =>
      obtain ⟨c, -, rfl⟩ := List.mem_map.mp hp
      rfl
    | reference place => cases ht
  have hcut := (cutAt_splitOnP Token.isReference tokens).flatMap hmark hplain
  obtain ⟨piece, hpiece, hinside⟩ :=
    hcut.exists_piece (by simp [opening, Piece.isReference]) hin
  obtain ⟨run, hrun, rfl⟩ := List.mem_map.mp hpiece
  apply h run hrun
  rw [toList_compose]
  exact hinside.flatMap Piece.source

section

variable {tokens : List (Token arguments.length)}

/-- A composed template is read back as the tokens that it is put together from. -/
theorem pieces_compose (hnames : ∀ a ∈ arguments, IsIdentifier a.name)
    (h : OpensNothing tokens) :
    pieces (compose arguments tokens).toList = tokens.flatMap (Token.pieces arguments) := by
  rw [toList_compose]
  refine pieces_flatMap_source (fun name hname => ?_) h.not_infix
  obtain ⟨t, -, ht⟩ := List.mem_flatMap.mp hname
  cases t with
  | text s =>
    obtain ⟨c, -, hc⟩ := List.mem_map.mp ht
    cases hc
  | reference place =>
    cases List.mem_singleton.mp ht
    have hname := hnames _ (List.getElem_mem place.isLt)
    exact ⟨hname.not_mem (by decide), hname.not_mem (by decide)⟩

theorem names_compose (hnames : ∀ a ∈ arguments, IsIdentifier a.name) (h : OpensNothing tokens)
    {p : Placeholder} (hp : p ∈ placeholders (compose arguments tokens)) :
    p.name ∈ arguments.map (·.name) := by
  have hname := List.mem_map_of_mem (f := (·.name)) hp
  rw [placeholders, locate_names, pieces_compose hnames h] at hname
  obtain ⟨piece, hpiece, hsome⟩ := List.mem_filterMap.mp hname
  obtain ⟨t, -, ht⟩ := List.mem_flatMap.mp hpiece
  cases t with
  | text s =>
    obtain ⟨c, -, rfl⟩ := List.mem_map.mp ht
    cases hsome
  | reference place =>
    cases List.mem_singleton.mp ht
    rw [Piece.name?, String.ofList_toList, Option.some.injEq] at hsome
    rw [← hsome]
    exact List.mem_map_of_mem (List.getElem_mem place.isLt)

/-- Filled with the specifiers of the arguments, a composed template is the composed
value. -/
theorem fill_compose (hnames : ∀ a ∈ arguments, IsIdentifier a.name) (h : OpensNothing tokens)
    {token : String → String} (htoken : ∀ (place : Nat) (a : TypedArgument),
      arguments[place]? = some a → token a.name = a.type.positionalSpecifier (place + 1)) :
    fill token (compose arguments tokens) = composeValue arguments tokens := by
  have houtput : ∀ t : Token arguments.length,
      (t.pieces arguments).flatMap (Piece.filled token) = (t.output arguments).toList := by
    intro t
    cases t with
    | text s => simp [Token.pieces, Token.output, List.flatMap_map, Piece.filled]
    | reference place =>
      have hplace := htoken place _ (List.getElem?_eq_getElem place.isLt)
      simp [Token.pieces, Token.output, Piece.filled, hplace]
  apply String.toList_injective
  rw [fill_eq, pieces_compose hnames h, List.flatMap_assoc, composeValue, String.toList_join,
    List.flatMap_map, String.toList_ofList]
  simp only [houtput]

end

end Template

/-! ## Another text in an entry -/

namespace Localizations

theorem lookup_cons (language text other : String) (pairs : List (String × String)) :
    ((language, text) :: pairs).lookup other =
      if other = language then some text else pairs.lookup other := by
  rw [List.lookup_cons]
  by_cases h : other = language
  · rw [if_pos h, beq_iff_eq.mpr h]
  · rw [if_neg h, beq_false_of_ne h]

theorem lookup_insertInto (language text other : String) (pairs : List (String × String)) :
    (insertInto language text pairs).lookup other =
      if other = language then some text else pairs.lookup other := by
  induction pairs with
  | nil => exact lookup_cons language text other []
  | cons p pairs ih =>
    obtain ⟨first, old⟩ := p
    rw [insertInto]
    split
    · rename_i hsame
      rw [← hsame, lookup_cons, lookup_cons]
      split <;> rfl
    · rename_i hne
      split
      · exact lookup_cons language text other _
      · rw [lookup_cons, lookup_cons, ih]
        by_cases h : other = first
        · rw [if_pos h, if_neg fun he => hne (he.symm.trans h), if_pos h]
        · rw [if_neg h, if_neg h]

theorem get?_insert (ls : Localizations) (language text other : String) :
    (ls.insert language text).get? other =
      if other = language then some text else ls.get? other :=
  lookup_insertInto language text other ls.toList

end Localizations

/-- The entry with another text in a language. -/
def Entry.withText (e : Entry) (language text : String) : Entry :=
  { e with localizations := e.localizations.insert language text }

/-- An entry stays well formed when its text gives way to one that names arguments
of the entry only. -/
theorem Entry.WellFormed.withText {languages : List String} {e : Entry}
    (h : e.WellFormed languages) {language text : String} (hlanguage : language ∈ languages)
    (htext : ∀ p ∈ Template.placeholders text, p.name ∈ e.arguments.map (·.name)) :
    (e.withText language text).WellFormed languages where
  localized := by
    intro other
    rw [← Localizations.get?_isSome_iff, Entry.withText, Localizations.get?_insert]
    split
    · rename_i hsame
      simp [hsame, hlanguage]
    · rw [Localizations.get?_isSome_iff]
      exact h.localized other
  key_is_path := h.key_is_path
  names_are_identifiers := h.names_are_identifiers
  names_nodup := h.names_nodup
  types_known := h.types_known
  references_declared := by
    intro other source hsource
    rw [← Localizations.get?_eq_some_iff, Entry.withText, Localizations.get?_insert] at hsource
    split at hsource
    · cases hsource
      exact htext
    · exact h.references_declared other source (Localizations.get?_eq_some_iff.mp hsource)

/-- A single entry clashes with no other one. -/
theorem Catalog.WellFormed.singleton {languages : List String} {e e' : Entry}
    (h : (Catalog.mk languages [e]).WellFormed) (he' : e'.WellFormed languages) :
    (Catalog.mk languages [e']).WellFormed where
  some_language := h.some_language
  languages_are_codes := h.languages_are_codes
  languages_nodup := h.languages_nodup
  keys_nodup := List.nodup_singleton _
  entries_wellFormed := List.forall_mem_singleton.mpr he'
  accessors_apart := by
    intro a ha b hb hne
    exact absurd ((List.mem_singleton.mp ha).trans (List.mem_singleton.mp hb).symm) hne

/-! ## Composed templates in a catalog -/

/-- The argument as a catalog declares it. -/
def TypedArgument.declaration (a : TypedArgument) : Argument := ⟨a.name, a.type.name⟩

theorem TypedArgument.comesFrom_declaration (a : TypedArgument) : a.ComesFrom a.declaration where
  name_eq := rfl
  type_eq := by
    obtain ⟨name, type⟩ := a
    cases type <;> rfl

/-- An entry whose arguments are declared so has them with these types. -/
theorem ResolvedEntry.ComesFrom.arguments_eq {languages : List String} {entry : Entry}
    {e : ResolvedEntry} (h : e.ComesFrom languages entry) {arguments : List TypedArgument}
    (harguments : entry.arguments = arguments.map TypedArgument.declaration) :
    e.arguments = arguments := by
  have hunique : Relator.RightUnique TypedArgument.ComesFrom :=
    fun _ _ _ => TypedArgument.ComesFrom.unique
  have hdeclared : List.Forall₂ TypedArgument.ComesFrom entry.arguments arguments := by
    rw [harguments, List.forall₂_map_left_iff, List.forall₂_same]
    exact fun a _ => a.comesFrom_declaration
  exact hunique.forall₂ h.arguments hdeclared

/-- A composed template compiles to what it was put together from. Where a catalog of
one entry is accepted with some text in a language, it is accepted with a composed
template there, and the value in that language is composed in the same way. -/
theorem Catalog.composed_template_resolves {languages : List String} {entry : Entry}
    {r : ResolvedCatalog} (hvalid : (Catalog.mk languages [entry]).resolve = .ok r)
    {language : String} (hlanguage : language ∈ languages) {arguments : List TypedArgument}
    (harguments : entry.arguments = arguments.map TypedArgument.declaration)
    {tokens : List (Template.Token arguments.length)} (htokens : Template.OpensNothing tokens) :
    ∃ r' e,
      (Catalog.mk languages
        [entry.withText language (Template.compose arguments tokens)]).resolve = .ok r' ∧
      r'.entries = [e] ∧
      e.value? language = some (Template.composeValue arguments tokens) := by
  have hwell := (resolves_iff_wellFormed _).mp ⟨r, hvalid⟩
  have hentry := hwell.entries_wellFormed entry List.mem_cons_self
  have hdeclared : entry.arguments.map (·.name) = arguments.map (·.name) := by
    rw [harguments, List.map_map]
    rfl
  have hnames : ∀ a ∈ arguments, IsIdentifier a.name := by
    intro a ha
    exact hentry.names_are_identifiers a.declaration (harguments ▸ List.mem_map_of_mem ha)
  have hcomposed := hentry.withText hlanguage fun p hp =>
    hdeclared ▸ Template.names_compose hnames htokens hp
  obtain ⟨r', hr'⟩ := (resolves_iff_wellFormed _).mpr (hwell.singleton hcomposed)
  obtain ⟨e, rest, hfrom, hrest, hentries⟩ :=
    List.forall₂_cons_left_iff.mp (comesFrom_of_resolve hr').entries
  obtain ⟨t, ht, htemplate⟩ := hfrom.template?_eq hlanguage
  have hsource : some (Template.compose arguments tokens) = some t.source := by
    rw [← htemplate.source_eq, Entry.localization?, Entry.withText, Localizations.get?_insert,
      if_pos rfl]
  obtain ⟨token, htoken⟩ := exists_token (hdeclared ▸ hentry.names_nodup)
  refine ⟨r', e, hr', ?_, ?_⟩
  · rw [hentries, List.forall₂_nil_left_iff.mp hrest]
  · rw [hfrom.arguments_eq harguments] at htemplate
    rw [ResolvedEntry.value?, ht, Option.map_some, htemplate.value_eq_fill htoken,
      ← Option.some.inj hsource, Template.fill_compose hnames htokens htoken]

/-- An entry with two arguments and no placeholder. -/
def Entry.message : Entry where
  key := "message"
  localizations := .ofList [("en", "Message")]
  arguments := [⟨"name", "String"⟩, ⟨"count", "Int"⟩]

/-- The arguments of the message with their types. -/
def Entry.messageArguments : List TypedArgument := [⟨"name", .string⟩, ⟨"count", .int⟩]

/-- Backslashes right before two references, and parentheses, a percent sign and a line
feed in the texts between them. -/
def Entry.messageTokens : List (Template.Token Entry.messageArguments.length) :=
  [.text "\\", .reference ⟨1, by decide⟩, .text "(50% ", .text "\\", .reference ⟨0, by decide⟩,
    .text "\n)"]

theorem Catalog.message_composed_template_resolves : ∃ r e,
    (Catalog.mk ["en"]
      [Entry.message.withText "en" "\\\\(count)(50% \\\\(name)\n)"]).resolve = .ok r ∧
    r.entries = [e] ∧ e.value? "en" = some "\\%2$lld(50% \\%1$@\n)" := by
  have hresolve : Validation.outcome (Catalog.mk ["en"] [.message]).resolve = .ok () := by
    decide +kernel
  obtain ⟨r, hr⟩ := Validation.outcome_eq_ok_iff.mp hresolve
  have hopen : Template.OpensNothing Entry.messageTokens := by decide +kernel
  have harguments : Entry.message.arguments =
      Entry.messageArguments.map TypedArgument.declaration := rfl
  obtain ⟨r', e, hr', he, hvalue⟩ :=
    composed_template_resolves hr List.mem_cons_self harguments hopen
  have hsource : Template.compose Entry.messageArguments Entry.messageTokens =
      "\\\\(count)(50% \\\\(name)\n)" := by decide +kernel
  have htarget : Template.composeValue Entry.messageArguments Entry.messageTokens =
      "\\%2$lld(50% \\%1$@\n)" := by decide +kernel
  rw [hsource] at hr'
  rw [htarget] at hvalue
  exact ⟨r', e, hr', he, hvalue⟩

end Phrasebook
