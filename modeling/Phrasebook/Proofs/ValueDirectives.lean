-- Directives of values. A directive in a value is the specifier of an argument, and then
-- it fits that argument, or it stands in the plain text of the template, which is copied
-- as it is. So the plain text alone decides whether a value fits its arguments.
import Mathlib.Data.List.Infix
import Phrasebook.Proofs.FilledTemplates

namespace Phrasebook

/-- The first character of a text tells that it does not start in what lacks it. -/
theorem cons_infix_append_iff {α : Type} {a : α} {l skipped rest : List α} (h : a ∉ skipped) :
    a :: l <:+: skipped ++ rest ↔ a :: l <:+: rest := by
  induction skipped with
  | nil => rfl
  | cons b skipped ih =>
    rw [List.mem_cons, not_or] at h
    rw [List.cons_append, List.infix_cons_iff, ih h.2, or_iff_right]
    intro hstarts
    exact h.1 (List.cons_prefix_cons.mp hstarts).1

/-! ## Directives -/

/-- A directive such as `%2$lld`: the digits of a number and the type of a specifier. -/
@[ext]
structure PositionalDirective where
  digits : List Char
  type : ArgumentType
  digits_ne_nil : digits ≠ []
  isDigit_digits : ∀ c ∈ digits, c.isDigit = true

namespace PositionalDirective

/-- What follows the `%`. -/
def tail (d : PositionalDirective) : List Char := d.digits ++ '$' :: d.type.specifier.toList

def chars (d : PositionalDirective) : List Char := '%' :: d.tail

def number (d : PositionalDirective) : Nat := Nat.ofDigitChars 10 d.digits 0

def StandsIn (d : PositionalDirective) (value : String) : Prop := d.chars <:+: value.toList

instance (d : PositionalDirective) (value : String) : Decidable (d.StandsIn value) :=
  inferInstanceAs (Decidable (d.chars <:+: value.toList))

/-- The directive stands in the text between the placeholders of a template. -/
def StandsInPlain (d : PositionalDirective) (template : String) : Prop :=
  d.chars.map Piece.literal <:+: Template.pieces template.toList

theorem StandsInPlain.dollar_mem {d : PositionalDirective} {template : String}
    (h : d.StandsInPlain template) : .literal '$' ∈ Template.pieces template.toList :=
  h.subset (List.mem_map_of_mem (by simp [chars, tail]))

/-- The number is the place of an argument, counted from 1, and the specifier is that
of its type. -/
def Fits (d : PositionalDirective) (arguments : List Argument) : Prop :=
  ∃ place a, d.number = place + 1 ∧ arguments[place]? = some a ∧ a.argumentType? = some d.type

/-- The directive of an argument. -/
def ofPlace (place : Nat) (t : ArgumentType) : PositionalDirective where
  digits := Nat.toDigits 10 (place + 1)
  type := t
  digits_ne_nil := Nat.toDigits_ne_nil
  isDigit_digits := fun _ hc => Nat.isDigit_of_mem_toDigits (by omega) (by omega) hc

theorem chars_ofPlace (place : Nat) (t : ArgumentType) :
    (ofPlace place t).chars = (t.positionalSpecifier (place + 1)).toList :=
  (Directive.toList_positionalSpecifier t (place + 1)).symm

theorem number_ofPlace (place : Nat) (t : ArgumentType) : (ofPlace place t).number = place + 1 :=
  Nat.ofDigitChars_ten_toDigits

/-- Only the first character is a `%`. -/
theorem percent_not_mem_tail (d : PositionalDirective) : '%' ∉ d.tail := by
  have hdigits : '%' ∉ d.digits := fun hmem => absurd (d.isDigit_digits _ hmem) (by decide)
  have hspecifier : '%' ∉ d.type.specifier.toList := by cases d.type <;> decide
  simp [tail, hdigits, hspecifier]

theorem takeWhile_tail (d : PositionalDirective) (rest : List Char) :
    (d.tail ++ rest).takeWhile Char.isDigit = d.digits := by
  rw [tail, List.append_assoc, List.takeWhile_append_of_pos d.isDigit_digits]
  simp

/-- No specifier starts with another one. -/
theorem type_eq_of_startsWith {t t' : ArgumentType} {rest : List Char}
    (h : t.specifier.toList <+: t'.specifier.toList ++ rest) : t = t' := by
  cases t <;> cases t' <;> simp [ArgumentType.specifier] at h ⊢

/-- No directive starts with another one. -/
theorem eq_of_startsWith {d d' : PositionalDirective} {rest : List Char}
    (h : d.chars <+: d'.chars ++ rest) : d = d' := by
  obtain ⟨after, hafter⟩ : d.tail <+: d'.tail ++ rest := (List.cons_prefix_cons.mp h).2
  have hdigits : d.digits = d'.digits := by
    rw [← d.takeWhile_tail after, hafter, d'.takeWhile_tail]
  have hspecifier : d.type.specifier.toList ++ after = d'.type.specifier.toList ++ rest := by
    simpa [tail, hdigits] using hafter
  exact PositionalDirective.ext hdigits (type_eq_of_startsWith ⟨after, hspecifier⟩)

theorem chars_inj {d d' : PositionalDirective} (h : d.chars = d'.chars) : d = d' := by
  have hstarts : d.chars <+: d'.chars ++ [] := by simp [h]
  exact eq_of_startsWith hstarts

end PositionalDirective

/-! ## Directives in filled templates -/

section

variable {ps : List Piece} {text : String → String}

/-- Each placeholder is filled with a directive. -/
def FillsWithDirectives (text : String → String) (ps : List Piece) : Prop :=
  ∀ name, .reference name ∈ ps →
    ∃ d : PositionalDirective, (text (String.ofList name)).toList = d.chars

theorem FillsWithDirectives.of_cons {p : Piece} (h : FillsWithDirectives text (p :: ps)) :
    FillsWithDirectives text ps :=
  fun name hname => h name (List.mem_cons_of_mem p hname)

/-- A start without a `%` is plain text. -/
theorem FillsWithDirectives.plain_of_startsWith (h : FillsWithDirectives text ps) {cs : List Char}
    (hplain : '%' ∉ cs) (hstarts : cs <+: ps.flatMap (Piece.filled text)) :
    cs.map .literal <+: ps := by
  induction cs generalizing ps with
  | nil => exact List.nil_prefix
  | cons c cs ih =>
    rw [List.mem_cons, not_or] at hplain
    cases ps with
    | nil => simp at hstarts
    | cons p ps =>
      rw [List.flatMap_cons] at hstarts
      cases p with
      | literal b =>
        obtain ⟨rfl, hrest⟩ := List.cons_prefix_cons.mp hstarts
        exact List.cons_prefix_cons.mpr ⟨rfl, ih h.of_cons hplain.2 hrest⟩
      | reference name =>
        obtain ⟨d, hd⟩ := h name List.mem_cons_self
        rw [Piece.filled, hd] at hstarts
        exact absurd (List.cons_prefix_cons.mp hstarts).1.symm hplain.1

/-- The directives of a filled template are those of its plain text and those that its
placeholders are filled with. -/
theorem FillsWithDirectives.infix_filled_iff (h : FillsWithDirectives text ps)
    (d : PositionalDirective) :
    d.chars <:+: ps.flatMap (Piece.filled text) ↔
      d.chars.map .literal <:+: ps ∨
      ∃ name, .reference name ∈ ps ∧ (text (String.ofList name)).toList = d.chars := by
  constructor
  · intro hin
    induction ps with
    | nil => simp [PositionalDirective.chars] at hin
    | cons p ps ih =>
      have hrest : d.chars <:+: ps.flatMap (Piece.filled text) →
          d.chars.map .literal <:+: p :: ps ∨
          ∃ name, .reference name ∈ p :: ps ∧ (text (String.ofList name)).toList = d.chars := by
        intro hlater
        rcases ih h.of_cons hlater with hplain | ⟨name, hname, htext⟩
        · exact Or.inl (List.infix_cons hplain)
        · exact Or.inr ⟨name, List.mem_cons_of_mem p hname, htext⟩
      rw [List.flatMap_cons] at hin
      cases p with
      | literal c =>
        rcases List.infix_cons_iff.mp hin with hstart | hlater
        · -- after the `%` the directive goes on in plain text
          obtain ⟨hc, htail⟩ := List.cons_prefix_cons.mp hstart
          have hplain := h.of_cons.plain_of_startsWith d.percent_not_mem_tail htail
          have hwhole : d.chars.map Piece.literal <+: .literal c :: ps :=
            List.cons_prefix_cons.mpr ⟨congrArg Piece.literal hc, hplain⟩
          exact Or.inl hwhole.isInfix
        · exact hrest hlater
      | reference name =>
        obtain ⟨d', hd'⟩ := h name List.mem_cons_self
        rw [Piece.filled, hd'] at hin
        rcases List.infix_cons_iff.mp hin with hstart | hlater
        · have hsame : d = d' := PositionalDirective.eq_of_startsWith hstart
          exact Or.inr ⟨name, List.mem_cons_self, hsame ▸ hd'⟩
        · exact hrest ((cons_infix_append_iff d'.percent_not_mem_tail).mp hlater)
  · rintro (hplain | ⟨name, hname, htext⟩)
    · have hfilled := List.IsInfix.flatMap hplain (Piece.filled text)
      have hcopied : (d.chars.map Piece.literal).flatMap (Piece.filled text) = d.chars := by
        simp [List.flatMap_map, Piece.filled]
      rwa [hcopied] at hfilled
    · obtain ⟨before, after, rfl⟩ := List.append_of_mem hname
      rw [← htext]
      exact ⟨before.flatMap (Piece.filled text), after.flatMap (Piece.filled text), by
        simp [Piece.filled]⟩

end

/-! ## Values -/

/-- A placeholder of a resolved template is filled with the directive of its argument. -/
theorem ResolvedTemplate.ComesFrom.exists_argument {entry : Entry} {arguments : List TypedArgument}
    {language : String} {t : ResolvedTemplate} (h : t.ComesFrom entry arguments language)
    {token : String → String} (htoken : ∀ (place : Nat) (a : TypedArgument),
      arguments[place]? = some a → token a.name = a.type.positionalSpecifier (place + 1))
    {name : List Char} (hname : .reference name ∈ Template.pieces t.source.toList) :
    ∃ (place : Nat) (a : TypedArgument), arguments[place]? = some a ∧
      (token (String.ofList name)).toList = (PositionalDirective.ofPlace place a.type).chars := by
  obtain ⟨r, -, hr⟩ := Validation.exists_of_mem_forall₂ h.pieces.flip hname
  cases hr with
  | @argument name place declared hat hdeclared =>
    refine ⟨place, declared, hat, ?_⟩
    rw [← hdeclared, htoken _ _ hat, PositionalDirective.chars_ofPlace]

/-- Each directive in a value fits an argument of the entry or stands in the plain text of
the template. So all of them fit exactly when those of the plain text do. -/
theorem Catalog.value_directives_fit {c : Catalog} {r : ResolvedCatalog} (h : c.resolve = .ok r)
    {place : Nat} {entry : Entry} (hentry : c.entries[place]? = some entry)
    {language : String} (hlanguage : language ∈ c.languages) :
    ∃ e source value, r.entries[place]? = some e ∧ entry.localization? language = some source ∧
      e.value? language = some value ∧
      (∀ d : PositionalDirective, d.StandsIn value →
        d.Fits entry.arguments ∨ d.StandsInPlain source) ∧
      ((∀ d : PositionalDirective, d.StandsIn value → d.Fits entry.arguments) ↔
        ∀ d : PositionalDirective, d.StandsInPlain source → d.Fits entry.arguments) := by
  obtain ⟨e, he, hfrom⟩ :=
    Validation.getElem?_of_forall₂ (comesFrom_of_resolve h).entries hentry
  obtain ⟨t, ht, htemplate⟩ := hfrom.template?_eq hlanguage
  have hnames := TypedArgument.names_eq hfrom.arguments
  obtain ⟨token, htoken⟩ := exists_token (hnames ▸ hfrom.names_nodup)
  have hfills : FillsWithDirectives token (Template.pieces t.source.toList) := by
    intro name hname
    obtain ⟨place, a, -, hchars⟩ := htemplate.exists_argument htoken hname
    exact ⟨_, hchars⟩
  have hstands : ∀ d : PositionalDirective, d.StandsIn t.value ↔ d.StandsInPlain t.source ∨
      ∃ name, .reference name ∈ Template.pieces t.source.toList ∧
        (token (String.ofList name)).toList = d.chars := by
    intro d
    unfold PositionalDirective.StandsIn
    rw [htemplate.value_eq_fill htoken, Template.fill_eq, String.toList_ofList]
    exact hfills.infix_filled_iff d
  have hfits : ∀ d : PositionalDirective, d.StandsIn t.value →
      d.Fits entry.arguments ∨ d.StandsInPlain t.source := by
    intro d hd
    rcases (hstands d).mp hd with hplain | ⟨name, hname, hchars⟩
    · exact Or.inr hplain
    · obtain ⟨place, a, ha, hargument⟩ := htemplate.exists_argument htoken hname
      obtain rfl := PositionalDirective.chars_inj (hchars.symm.trans hargument)
      obtain ⟨declared, hdeclared, hsame⟩ :=
        Validation.getElem?_of_forall₂ hfrom.arguments.flip ha
      exact Or.inl ⟨place, declared, PositionalDirective.number_ofPlace _ _, hdeclared,
        hsame.type_eq⟩
  refine ⟨e, t.source, t.value, he, htemplate.source_eq, ?_, hfits, fun hall d hplain => ?_,
    fun hall d hd => ?_⟩
  · rw [ResolvedEntry.value?, ht, Option.map_some]
  · exact hall d ((hstands d).mpr (Or.inl hplain))
  · exact (hfits d hd).elim id (hall d)

/-- Percent signs in the plain text, also right before and after placeholders, but no
directive. -/
def Entry.progress : Entry where
  key := "progress"
  localizations := .ofList [("en", "100%: \\(count)%\\(name) %2@")]
  arguments := [⟨"count", "Int"⟩, ⟨"name", "String"⟩]

/-- Without a `$` in it the plain text has no directive, so all directives of the value fit. -/
theorem Catalog.progress_directives_fit :
    ∃ r e value, (Catalog.mk ["en"] [.progress]).resolve = .ok r ∧ r.entries[0]? = some e ∧
      e.value? "en" = some value ∧
      ∀ d : PositionalDirective, d.StandsIn value → d.Fits Entry.progress.arguments := by
  have hresolve : Validation.outcome (Catalog.mk ["en"] [.progress]).resolve = .ok () := by
    decide +kernel
  obtain ⟨r, hr⟩ := Validation.outcome_eq_ok_iff.mp hresolve
  have hentry : (Catalog.mk ["en"] [.progress]).entries[0]? = some .progress := rfl
  obtain ⟨e, source, value, he, hsource, hvalue, -, hall⟩ :=
    value_directives_fit hr hentry List.mem_cons_self
  have hen : Entry.progress.localization? "en" = some "100%: \\(count)%\\(name) %2@" := by
    decide +kernel
  cases Option.some.inj (hsource.symm.trans hen)
  have hdollar : Piece.literal '$' ∉
      Template.pieces ("100%: \\(count)%\\(name) %2@" : String).toList := by
    decide +kernel
  exact ⟨r, e, value, hr, he, hvalue, hall.mpr fun d hplain => absurd hplain.dollar_mem hdollar⟩

/-- The plain text has two directives. One takes the text of the only argument for a
number, and the other asks for a second argument. -/
def Entry.stray : Entry where
  key := "stray"
  localizations := .ofList [("en", "\\(name): %1$lld, %2$@")]
  arguments := [⟨"name", "String"⟩]

/-- Directives of the plain text get into the value, and nothing makes them fit. -/
theorem Catalog.stray_directives_do_not_fit :
    ∃ r e value, (Catalog.mk ["en"] [.stray]).resolve = .ok r ∧ r.entries[0]? = some e ∧
      Entry.stray.arguments ≠ [] ∧ e.value? "en" = some value ∧
      (∃ d : PositionalDirective, d.StandsIn value ∧ d.number = 1 ∧
        ¬ d.Fits Entry.stray.arguments) ∧
      ∃ d : PositionalDirective, d.StandsIn value ∧ d.number = 2 ∧
        ¬ d.Fits Entry.stray.arguments := by
  have hvalues : (Catalog.mk ["en"] [.stray]).resolve.map (·.entries.map (·.value? "en")) =
      .ok [some "%1$@: %1$lld, %2$@"] := by
    decide +kernel
  obtain ⟨r, hr, hvalue⟩ := Validation.map_eq_ok_iff.mp hvalues
  obtain ⟨e, he, hvalue⟩ := List.map_eq_singleton_iff.mp hvalue
  refine ⟨r, e, _, hr, by simp [he], by decide, hvalue, ⟨.ofPlace 0 .int, by decide, rfl, ?_⟩,
    ⟨.ofPlace 1 .string, by decide, rfl, ?_⟩⟩
  · rintro ⟨place, a, hplace, ha, htype⟩
    cases hplace
    cases ha
    cases htype
  · rintro ⟨place, a, hplace, ha, -⟩
    cases hplace
    cases ha

end Phrasebook
