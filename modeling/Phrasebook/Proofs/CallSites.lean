-- Call sites. The parameters of an accessor, the arguments it passes on, the
-- specifiers of its resource key and those of its values come from four
-- functions, and they agree on names, order and types.
import Mathlib.Data.List.Infix
import Phrasebook.Proofs.Grouping
import Phrasebook.Proofs.ResourceKeys

namespace Phrasebook

/-! ## Parts between commas -/

/-- The parts of a text between a comma and a blank. -/
def commaParts : List Char → List (List Char)
  | [] => [[]]
  | ',' :: ' ' :: rest => [] :: commaParts rest
  | c :: rest => (commaParts rest).modifyHead (c :: ·)

def splitAtCommas (s : String) : List String := (commaParts s.toList).map String.ofList

theorem commaParts_cons_of_ne {c : Char} (hc : c ≠ ',') (rest : List Char) :
    commaParts (c :: rest) = (commaParts rest).modifyHead (c :: ·) := by
  rw [commaParts]
  intro _ hcomma
  exact absurd hcomma hc

theorem commaParts_plain {part : List Char} (h : ',' ∉ part) : commaParts part = [part] := by
  induction part with
  | nil => rfl
  | cons c part ih =>
    rw [List.mem_cons, not_or] at h
    rw [commaParts_cons_of_ne (Ne.symm h.1), ih h.2]
    rfl

theorem commaParts_append {part : List Char} (h : ',' ∉ part) (rest : List Char) :
    commaParts (part ++ ',' :: ' ' :: rest) = part :: commaParts rest := by
  induction part with
  | nil => rfl
  | cons c part ih =>
    rw [List.mem_cons, not_or] at h
    rw [List.cons_append, commaParts_cons_of_ne (Ne.symm h.1), ih h.2]
    rfl

/-- Parts without commas are found again between the commas that join them. -/
theorem splitAtCommas_intercalate {parts : List String} (h : parts ≠ [])
    (hcomma : ∀ part ∈ parts, ',' ∉ part.toList) :
    splitAtCommas (", ".intercalate parts) = parts := by
  induction parts with
  | nil => exact absurd rfl h
  | cons part parts ih =>
    obtain ⟨hpart, hparts⟩ := List.forall_mem_cons.mp hcomma
    cases parts with
    | nil =>
      unfold splitAtCommas
      rw [String.intercalate_singleton, commaParts_plain hpart]
      simp
    | cons next parts =>
      have hrest := ih (List.cons_ne_nil _ _) hparts
      unfold splitAtCommas at hrest ⊢
      have hglue : (", " : String).toList = [',', ' '] := rfl
      rw [String.intercalate_cons_cons, String.toList_append, String.toList_append, hglue,
        List.append_assoc, List.cons_append, List.cons_append, List.nil_append,
        commaParts_append hpart, List.map_cons, hrest, String.ofList_toList]

/-! ## Escaped names -/

/-- Two names stay apart when the keywords among them are put in backticks. -/
theorem escapeKeyword_inj {a b : String} (ha : IsIdentifier a) (hb : IsIdentifier b)
    (h : escapeKeyword a = escapeKeyword b) : a = b := by
  have hplain : ∀ {s s' : String}, IsIdentifier s → s ≠ "`" ++ s' ++ "`" := by
    intro s s' hs he
    apply hs.not_mem (c := '`') (by decide)
    simp [he]
  unfold escapeKeyword at h
  split at h
  · split at h
    · have hinside := congrArg String.toList h
      simp only [String.toList_append, List.append_assoc] at hinside
      apply String.toList_injective
      exact List.append_cancel_right (List.append_cancel_left hinside)
    · exact absurd h.symm (hplain hb)
  · split at h
    · exact absurd h (hplain ha)
    · exact h

/-- Only a backtick comes to the characters of a name. -/
theorem not_mem_escapeKeyword {s : String} (h : IsIdentifier s) {c : Char} (hc : ¬ IsNamePart c)
    (htick : c ≠ '`') : c ∉ (escapeKeyword s).toList := by
  have hname : c ∉ s.toList := h.not_mem hc
  unfold escapeKeyword
  split
  · simp [hname, htick]
  · exact hname

/-- The parameters are found again between their commas. -/
theorem Accessor.splitAtCommas_parameters {ps : List (String × ArgumentType)} (hsome : ps ≠ [])
    (hnames : ∀ p ∈ ps, IsIdentifier p.1) :
    splitAtCommas (", ".intercalate (ps.map parameter)) = ps.map parameter := by
  apply splitAtCommas_intercalate (by simpa using hsome)
  intro part hpart
  obtain ⟨p, hp, rfl⟩ := List.mem_map.mp hpart
  have hname := not_mem_escapeKeyword (c := ',') (hnames p hp) (by decide) (by decide)
  have htype : ',' ∉ p.2.name.toList := by cases p.2 <;> decide
  simp [parameter, hname, htype]

theorem escapeKeyword_nodup {names : List String} (hnames : ∀ name ∈ names, IsIdentifier name)
    (h : names.Nodup) : (names.map escapeKeyword).Nodup := by
  apply List.Nodup.map_on _ h
  intro a ha b hb hsame
  exact escapeKeyword_inj (hnames a ha) (hnames b hb) hsame

/-! ## The source of an accessor -/

/-- An accessor as a function of some names. Each name is a parameter with its
type, and all of them are passed on in the same order. -/
structure Accessor.IsFunctionOf (a : Accessor) (names : List String)
    (types : List ArgumentType) (parameters passed : String) : Prop where
  parameters_eq : splitAtCommas parameters =
    List.zipWith (fun p t => p ++ ": " ++ t.name) names types
  passed_eq : splitAtCommas passed = names
  lines_eq : ∀ table depth, a.sourceLines table depth = a.docLines depth ++
    [.code depth ("public static func " ++ escapeKeyword (memberName a.entryKey) ++ "(" ++
      parameters ++ ") -> String \x7b"),
    .code (depth + 1) ("String(format: " ++ a.lookup table ++ ", arguments: [" ++ passed ++ "])"),
    .code depth "\x7d"]

namespace ResolvedEntry

variable {e : ResolvedEntry}

theorem accessor_isFunctionOf (hsome : e.arguments ≠ [])
    (hnames : ∀ a ∈ e.arguments, IsIdentifier a.name) :
    e.accessor.IsFunctionOf (e.arguments.map fun a => escapeKeyword a.name)
      (e.arguments.map (·.type)) (", ".intercalate (e.accessor.arguments.map Accessor.parameter))
      (", ".intercalate (e.arguments.map fun a => escapeKeyword a.name)) where
  parameters_eq := by
    have hdeclared : e.accessor.arguments ≠ [] := by simpa [accessor] using hsome
    have hidentifiers : ∀ p ∈ e.accessor.arguments, IsIdentifier p.1 := by
      simpa [accessor] using hnames
    rw [Accessor.splitAtCommas_parameters hdeclared hidentifiers, List.zipWith_map,
      List.zipWith_self, accessor, List.map_map]
    rfl
  passed_eq := by
    apply splitAtCommas_intercalate (by simpa using hsome)
    intro part hpart
    obtain ⟨a, ha, rfl⟩ := List.mem_map.mp hpart
    exact not_mem_escapeKeyword (hnames a ha) (by decide) (by decide)
  lines_eq := by
    intro table depth
    have harguments : e.accessor.arguments.isEmpty = false := by simpa [accessor] using hsome
    have hlist : e.accessor.argumentList =
        "[" ++ ", ".intercalate (e.arguments.map fun a => escapeKeyword a.name) ++ "]" := rfl
    have hcall : (", arguments: [" : String) = ", arguments: " ++ "[" := rfl
    unfold Accessor.sourceLines Accessor.signature Accessor.body
    rw [harguments, hlist]
    simp only [Bool.false_eq_true, if_false, String.append_assoc, List.cons_inj_right,
      List.append_cancel_left_eq]
    rw [hcall, String.append_assoc]
    rfl

end ResolvedEntry

/-! ## Lines of the file -/

namespace SourceLine

/-- The line without its line feed. -/
def chars : SourceLine → List Char
  | blank => []
  | code depth text => (indent depth ++ text).toList

theorem toList_render (line : SourceLine) : line.render.toList = line.chars ++ ['\n'] := by
  cases line with
  | blank => rfl
  | code depth text => simp [render, chars]

end SourceLine

namespace AccessorModule

/-- The notice, an empty line, the import and one more empty line. -/
def headerLines : List (List Char) :=
  ["// This file is automatically generated by langgen.",
    "// Do not edit it manually, as your changes will be overwritten.", "", "import Foundation",
    ""].map String.toList

theorem toList_render (m : AccessorModule) : m.render.toList =
    (headerLines ++ m.sourceLines.map SourceLine.chars).flatMap (· ++ ['\n']) := by
  have hheader : header.toList = headerLines.flatMap (· ++ ['\n']) := by decide +kernel
  rw [render, String.toList_append, hheader, List.flatMap_append, String.toList_join]
  simp only [List.flatMap_map, SourceLine.toList_render]

end AccessorModule

/-! ## The accessor in the module -/

namespace Accessor

/-- How deep an accessor stands in a module: inside the enum around all accessors, and
one enum for each name on its path. -/
def depth (a : Accessor) : Nat := (namespacePath a.entryKey).length + 1

/-- The text of an accessor in a module. -/
def text (table : String) (a : Accessor) : String :=
  String.join ((a.sourceLines table a.depth).map SourceLine.render)

theorem toList_text (table : String) (a : Accessor) : (a.text table).toList =
    ((a.sourceLines table a.depth).map SourceLine.chars).flatMap (· ++ ['\n']) := by
  rw [text, String.toList_join]
  simp only [List.flatMap_map, SourceLine.toList_render]

end Accessor

namespace Item

variable {item : Item} {items node : List Item} {path : List String} {a : Accessor}

theorem sourceLines_infix_bodyLines (table : String) (depth : Nat) (h : item ∈ items) :
    item.sourceLines table depth <:+: bodyLines table depth items := by
  induction items with
  | nil => cases h
  | cons first rest ih =>
    cases rest with
    | nil =>
      rw [List.mem_singleton.mp h]
      exact List.infix_refl _
    | cons next rest =>
      have hbody : bodyLines table depth (first :: next :: rest) =
          first.sourceLines table depth ++ .blank :: bodyLines table depth (next :: rest) := by
        simp [bodyLines]
      rw [hbody]
      rcases List.mem_cons.mp h with rfl | hrest
      · exact (List.prefix_append _ _).isInfix
      · have hlater := List.infix_cons (a := SourceLine.blank) (ih hrest)
        exact hlater.trans (List.suffix_append _ _).isInfix

theorem bodyLines_infix_sourceLines (table : String) (depth : Nat) (name : String)
    (items : List Item) :
    bodyLines table (depth + 1) items <:+: (nested name items).sourceLines table depth :=
  ⟨[.code depth (opening name)], [.code depth "\x7d"], rfl⟩

/-- The lines of a namespace stand in those around it, one step deeper for each name on
its path. -/
theorem Node.bodyLines_infix (h : Node items path node) (table : String) (depth : Nat) :
    bodyLines table (depth + path.length) node <:+: bodyLines table depth items := by
  induction h generalizing depth with
  | root items => exact List.infix_refl _
  | @inside items inside node name path hmem _ ih =>
    have hinner := ih (depth + 1)
    rw [Nat.add_right_comm, Nat.add_assoc] at hinner
    exact (hinner.trans (bodyLines_infix_sourceLines table depth name inside)).trans
      (sourceLines_infix_bodyLines table depth hmem)

end Item

namespace AccessorModule

variable {m : AccessorModule} {a : Accessor}

theorem sourceLines_infix (h : a ∈ m.accessors) :
    a.sourceLines m.tableName a.depth <:+: m.sourceLines := by
  obtain ⟨node, hnode, hmem⟩ := Item.exists_node_of_mem h
  have hscope := hnode.bodyLines_infix m.tableName 1
  rw [Nat.add_comm] at hscope
  have hown := Item.sourceLines_infix_bodyLines m.tableName a.depth hmem
  rw [Item.sourceLines] at hown
  exact (hown.trans hscope).trans (Item.bodyLines_infix_sourceLines m.tableName 0 m.typeName _)

/-- The text of an accessor stands in the text of the file. -/
theorem text_infix_render (h : a ∈ m.accessors) :
    (a.text m.tableName).toList <:+: m.render.toList := by
  have hlines := sourceLines_infix h
  have hchars := hlines.map SourceLine.chars
  rw [Accessor.toList_text, toList_render, List.flatMap_append]
  exact (hchars.flatMap (· ++ ['\n'])).trans (List.suffix_append _ _).isInfix

end AccessorModule

/-! ## Values -/

/-- The value of a template is the template with a token in the place of each
placeholder, where the token of an argument is its positional specifier. -/
theorem ResolvedTemplate.ComesFrom.value_eq_fill {entry : Entry} {arguments : List TypedArgument}
    {language : String} {t : ResolvedTemplate} (h : t.ComesFrom entry arguments language)
    {token : String → String} (htoken : ∀ (place : Nat) (a : TypedArgument),
      arguments[place]? = some a → token a.name = a.type.positionalSpecifier (place + 1)) :
    t.value = Template.fill token t.source := by
  have hpieces : t.pieces.map ResolvedPiece.output =
      (Template.pieces t.source.toList).map (Piece.filled token) := by
    apply Validation.map_eq_map_of_forall₂ _ h.pieces
    intro p resolved hp
    cases hp with
    | literal c => rfl
    | argument hat hname =>
      rw [ResolvedPiece.output, Piece.filled, ← hname, htoken _ _ hat]
  rw [value, Template.fill_eq, List.flatMap_def, List.flatMap_def, hpieces]

/-- Names of their own can be given the positional specifiers of their arguments. -/
theorem exists_token {arguments : List TypedArgument} (h : (arguments.map (·.name)).Nodup) :
    ∃ token : String → String, ∀ (place : Nat) (a : TypedArgument),
      arguments[place]? = some a → token a.name = a.type.positionalSpecifier (place + 1) := by
  refine ⟨fun name => ((Validation.bind? name 0 arguments).map fun bound =>
    bound.2.type.positionalSpecifier (bound.1 + 1)).getD "", fun place a ha => ?_⟩
  have hmem : a.name ∈ arguments.map (·.name) := List.mem_map_of_mem (List.mem_of_getElem? ha)
  have hsome : (Validation.bind? a.name 0 arguments).isSome := Validation.bind?_isSome_iff.mpr hmem
  obtain ⟨⟨place', a'⟩, hbound⟩ := Option.isSome_iff_exists.mp hsome
  obtain ⟨i, hplace, ha', hname⟩ := Validation.bind?_eq_some hbound
  have hi : i < (arguments.map (·.name)).length := by
    rw [List.length_map]
    exact (List.getElem?_eq_some_iff.mp ha').1
  have hsame : i = place := by
    apply (List.getElem?_inj hi h).mp
    rw [List.getElem?_map, List.getElem?_map, ha', ha, Option.map_some, Option.map_some, hname]
  rw [Nat.zero_add] at hplace
  subst hplace hsame
  cases ha.symm.trans ha'
  dsimp only
  rw [hbound]
  rfl

/-! ## Everything together -/

/-- An entry with arguments is called with what it is written for. The accessor in
the file is a function of the arguments, and the resource key and the values have
their specifiers, all in one order. -/
theorem Catalog.callSites_agree {c : Catalog} {r : ResolvedCatalog} (h : c.resolve = .ok r)
    {place : Nat} {entry : Entry} (hentry : c.entries[place]? = some entry)
    (hsome : entry.arguments ≠ []) :
    ∃ (e : ResolvedEntry) (types : List ArgumentType) (parameters passed : String)
      (token : String → String),
      r.entries[place]? = some e ∧
      entry.arguments.map (·.argumentType?) = types.map some ∧
      (entry.arguments.map fun a => escapeKeyword a.name).Nodup ∧
      e.accessor.entryKey = entry.key ∧
      e.accessor.IsFunctionOf (entry.arguments.map fun a => escapeKeyword a.name) types
        parameters passed ∧
      (∀ n : Naming,
        e.accessor.sourceLines n.tableName e.accessor.depth <:+:
          (r.accessorModule n).sourceLines ∧
        (e.accessor.text n.tableName).toList <:+: (r.accessorModule n).render.toList) ∧
      words e.accessor.resourceKey = entry.key :: types.map (·.bareSpecifier) ∧
      (∀ (i : Nat) (a : Argument) (t : ArgumentType), entry.arguments[i]? = some a →
        types[i]? = some t → token a.name = t.positionalSpecifier (i + 1)) ∧
      ∀ language ∈ c.languages, ∃ source, entry.localization? language = some source ∧
        e.value? language = some (Template.fill token source) := by
  obtain ⟨e, he, hcomes⟩ :=
    Validation.getElem?_of_forall₂ (comesFrom_of_resolve h).entries hentry
  have hnames := TypedArgument.names_eq hcomes.arguments
  have hidentifiers : ∀ name ∈ entry.arguments.map (·.name), IsIdentifier name := by
    intro name hname
    obtain ⟨a, ha, rfl⟩ := List.mem_map.mp hname
    exact isIdentifier_iff.mp (hcomes.names_areIdentifiers a ha)
  obtain ⟨token, htoken⟩ := exists_token (hnames ▸ hcomes.names_nodup)
  have hescaped : (e.arguments.map fun a => escapeKeyword a.name) =
      entry.arguments.map fun a => escapeKeyword a.name :=
    Validation.map_eq_map_of_forall₂ (fun _ _ ha => congrArg escapeKeyword ha.name_eq)
      hcomes.arguments
  have hdeclared : e.arguments ≠ [] := by
    intro hnil
    rw [hnil, List.map_nil, eq_comm, List.map_eq_nil_iff] at hnames
    exact hsome hnames
  have hfunction := ResolvedEntry.accessor_isFunctionOf hdeclared fun a ha =>
    hidentifiers a.name (hnames ▸ List.mem_map_of_mem ha)
  rw [hescaped] at hfunction
  refine ⟨e, e.arguments.map (·.type), _, _, token, he, TypedArgument.types_eq hcomes.arguments,
    ?_, hcomes.key_eq, hfunction, fun n => ?_, ?_, fun i a t ha ht => ?_, fun language hl => ?_⟩
  · have hnodup := escapeKeyword_nodup hidentifiers hcomes.names_nodup
    rwa [List.map_map] at hnodup
  · have haccessor : e.accessor ∈ (r.accessorModule n).accessors :=
      List.mem_map_of_mem (List.mem_of_getElem? he)
    have hlines := AccessorModule.sourceLines_infix haccessor
    have htext := AccessorModule.text_infix_render haccessor
    exact ⟨hlines, htext⟩
  · rw [← hcomes.key_eq, List.map_map]
    exact ResolvedEntry.words_resourceKey hcomes.isIdentifierPath
  · obtain ⟨typed, htyped, hfrom⟩ := Validation.getElem?_of_forall₂ hcomes.arguments ha
    rw [List.getElem?_map, htyped, Option.map_some, Option.some.injEq] at ht
    rw [← hfrom.name_eq, ← ht]
    exact htoken i typed htyped
  · obtain ⟨t, ht, hfrom⟩ := hcomes.template?_eq hl
    refine ⟨t.source, hfrom.source_eq, ?_⟩
    rw [ResolvedEntry.value?, ht, Option.map_some, hfrom.value_eq_fill htoken]

/-- Of the two arguments one has a keyword as its name, and the text has them the
other way round. -/
def Entry.location : Entry where
  key := "map.location"
  localizations := .ofList [("en", "\\(distance) km \\(in)")]
  arguments := [⟨"in", "String"⟩, ⟨"distance", "Double"⟩]

/-- The text of its accessor. -/
def Accessor.locationText : String :=
  "        /// \\(distance) km \\(in)\n" ++
  "        public static func location(`in`: String, distance: Double) -> String \x7b\n" ++
  "            String(format: NSLocalizedString(\"map.location %@ %lf\", " ++
    "tableName: \"Localizable\", comment: \"\"), arguments: [`in`, distance])\n" ++
  "        \x7d\n"

theorem Catalog.location_callSites_agree :
    ∃ r e parameters passed token,
      (Catalog.mk ["en"] [.location]).resolve = .ok r ∧ r.entries[0]? = some e ∧
      splitAtCommas parameters = ["`in`: String", "distance: Double"] ∧
      splitAtCommas passed = ["`in`", "distance"] ∧
      Accessor.locationText.toList <:+: (r.accessorModule {}).render.toList ∧
      words e.accessor.resourceKey = ["map.location", "%@", "%lf"] ∧
      token "in" = "%1$@" ∧ token "distance" = "%2$lf" ∧
      e.value? "en" = some (Template.fill token "\\(distance) km \\(in)") := by
  have htexts : (Catalog.mk ["en"] [.location]).resolve.map
      (·.entries.map (·.accessor.text "Localizable")) = .ok [Accessor.locationText] := by
    decide +kernel
  obtain ⟨r, hr, hone⟩ := Validation.map_eq_ok_iff.mp htexts
  have hentry : (Catalog.mk ["en"] [.location]).entries[0]? = some .location := rfl
  obtain ⟨e, types, parameters, passed, token, he, htypes, -, -, hfunction, hfile, hwords, htoken,
    hvalues⟩ := callSites_agree hr hentry (by decide)
  have hknown : [ArgumentType.string, .double] = types :=
    List.map_injective_iff.mpr (fun _ _ => Option.some.inj) htypes
  subst hknown
  have htext : e.accessor.text "Localizable" = Accessor.locationText := by
    have hat := congrArg (·[0]?) hone
    rw [List.getElem?_map, he] at hat
    exact Option.some.inj hat
  have hinfile := (hfile {}).2
  rw [htext] at hinfile
  obtain ⟨source, hsource, hvalue⟩ := hvalues "en" (by decide)
  have hen : Entry.location.localization? "en" = some "\\(distance) km \\(in)" := by
    decide +kernel
  cases Option.some.inj (hsource.symm.trans hen)
  exact ⟨r, e, parameters, passed, token, hr, he, hfunction.parameters_eq.trans (by decide),
    hfunction.passed_eq.trans (by decide), hinfile, hwords, htoken 0 _ _ rfl rfl,
    htoken 1 _ _ rfl rfl, hvalue⟩

end Phrasebook
