-- The two lists of keys. The text has a line for each entry, with tabs between its fields,
-- and the JSON has an object for each. Both say the same rows, and so do the tables.
import Phrasebook.Proofs.CommandAgreement
import Phrasebook.Proofs.ResourceKeys
import Phrasebook.Proofs.WrittenJson

namespace Phrasebook

open CommandM

/-! ## Lines with tabs -/

/-- The pieces of a text between its line feeds, each as its fields between the tabs. -/
def tabbedLines (text : String) : List (List String) :=
  (text.toList.splitOn '\n').map fun line => (line.splitOn '\t').map String.ofList

def tabbedLine (fields : List String) : String := "\t".intercalate fields

theorem not_mem_tabbedLine {fields : List String} (h : ∀ field ∈ fields, '\n' ∉ field.toList) :
    '\n' ∉ (tabbedLine fields).toList := by
  intro hmem
  rcases mem_intercalate hmem with hglue | ⟨field, hfield, hin⟩
  · exact absurd hglue (by decide)
  · exact h field hfield hin

/-- Fields without control characters are found again, line by line. What comes after the
last line feed is empty. -/
theorem tabbedLines_join {rows : List (List String)} (hne : ∀ fields ∈ rows, fields ≠ [])
    (hplain : ∀ fields ∈ rows, ∀ field ∈ fields, ∀ c, IsControl c → c ∉ field.toList) :
    tabbedLines (String.join (rows.map (tabbedLine · ++ "\n"))) = rows ++ [[""]] := by
  have htext : (String.join (rows.map (tabbedLine · ++ "\n"))).toList =
      (rows.map fun fields => (tabbedLine fields).toList).flatMap (· ++ ['\n']) := by
    simp [String.toList_join, List.flatMap_map]
  have hlines : ∀ line ∈ rows.map fun fields => (tabbedLine fields).toList, '\n' ∉ line := by
    intro line hline
    obtain ⟨fields, hfields, rfl⟩ := List.mem_map.mp hline
    exact not_mem_tabbedLine fun field hfield => hplain fields hfields field hfield _ (by decide)
  have hfields : ∀ fields ∈ rows,
      ((tabbedLine fields).toList.splitOn '\t').map String.ofList = fields := fun fields hfields =>
    splitOn_intercalate rfl (hne fields hfields) fun field hfield =>
      hplain fields hfields field hfield _ (by decide)
  rw [tabbedLines, htext, splitOn_flatMap hlines, List.map_append, List.map_map]
  exact congrArg (· ++ [[""]]) ((List.map_congr_left hfields).trans (List.map_id rows))

/-! ## Rows -/

/-- What both lists say of an entry. -/
structure KeyRow where
  key : String
  resourceKey : String
  argumentList : String
  deriving DecidableEq, Repr

namespace KeyRow

/-- The fields of a line of the text. -/
def fields (row : KeyRow) : List String :=
  [row.key, Text.inQuotes row.resourceKey, row.argumentList]

/-- What the JSON document says. -/
def node (row : KeyRow) : Node :=
  .map [(.text "key", .text row.key), (.text "resource_key", .text row.resourceKey),
    (.text "arguments", .text row.argumentList)]

/-- The row of an entry, told from the catalog. -/
structure Describes (entry : Entry) (row : KeyRow) : Prop where
  key_eq : row.key = entry.key
  resourceKey_eq : ∃ types : List ArgumentType,
    entry.arguments.map (·.argumentType?) = types.map some ∧
    row.resourceKey = " ".intercalate (entry.key :: types.map (·.bareSpecifier))
  argumentList_eq :
    row.argumentList = "[" ++ ", ".intercalate (entry.arguments.map (·.name)) ++ "]"

end KeyRow

namespace ResolvedEntry

def keyRow (e : ResolvedEntry) : KeyRow := ⟨e.key, e.resourceKey, e.argumentList⟩

variable {e : ResolvedEntry}

theorem keyLine_eq (e : ResolvedEntry) : e.keyLine = tabbedLine e.keyRow.fields ++ "\n" := by
  simp [keyLine, tabbedLine, KeyRow.fields, keyRow, String.append_assoc]

theorem toNode_keyJson (e : ResolvedEntry) : e.keyJson.toNode = e.keyRow.node := rfl

namespace ComesFrom

variable {languages : List String} {entry : Entry}

/-- Nothing that a catalog is checked for leaves a tab or a line feed in a field. -/
theorem not_mem_fields (h : e.ComesFrom languages entry) {field : String}
    (hfield : field ∈ e.keyRow.fields) {c : Char} (hc : IsControl c) : c ∉ field.toList := by
  have hcases : field = e.key ∨ field = Text.inQuotes e.resourceKey ∨ field = e.argumentList := by
    simpa [KeyRow.fields, keyRow] using hfield
  rcases hcases with rfl | rfl | rfl
  · exact h.isIdentifierPath.not_mem hc.not_isNamePart (hc.ne (by decide))
  · have hquote : c ≠ '"' := hc.ne (by decide)
    simp [Text.inQuotes, hquote, h.not_mem_resourceKey hc]
  · exact not_mem_argumentListWith hc fun a ha =>
      (h.isIdentifier_of_mem ha).not_mem hc.not_isNamePart

theorem keyRow_describes (h : e.ComesFrom languages entry) : e.keyRow.Describes entry where
  key_eq := h.key_eq
  resourceKey_eq := by
    refine ⟨e.arguments.map (·.type), TypedArgument.types_eq h.arguments, ?_⟩
    rw [keyRow, resourceKey, h.key_eq, List.map_map]
    rfl
  argumentList_eq := by
    rw [← TypedArgument.names_eq h.arguments]
    rfl

end ComesFrom

end ResolvedEntry

/-! ## The lists of a catalog -/

namespace ResolvedCatalog

variable {catalog : Catalog} {c : ResolvedCatalog}

def keyRows (c : ResolvedCatalog) : List KeyRow := c.entries.map (·.keyRow)

theorem ComesFrom.tabbedLines_keyList (h : c.ComesFrom catalog) :
    tabbedLines (c.keyList false) = c.keyRows.map KeyRow.fields ++ [[""]] := by
  have htext : c.keyList false =
      String.join ((c.keyRows.map KeyRow.fields).map (tabbedLine · ++ "\n")) := by
    rw [keyRows, List.map_map, List.map_map]
    exact congrArg String.join (List.map_congr_left fun e _ => e.keyLine_eq)
  rw [htext]
  apply tabbedLines_join
  · intro fields hfields
    obtain ⟨row, -, rfl⟩ := List.mem_map.mp hfields
    exact List.cons_ne_nil _ _
  · intro fields hfields field hfield control hcontrol
    rw [keyRows, List.map_map] at hfields
    obtain ⟨e, he, rfl⟩ := List.mem_map.mp hfields
    obtain ⟨entry, -, hfrom⟩ := Validation.exists_of_mem_forall₂ h.entries he
    exact hfrom.not_mem_fields hfield hcontrol

theorem read_keyList (c : ResolvedCatalog) :
    Json.read (c.keyList true) = ⟨.list (c.keyRows.map KeyRow.node), [], .exact, true⟩ := by
  have hnode : (Json.array (c.entries.map (·.keyJson))).toNode =
      .list (c.keyRows.map KeyRow.node) := by
    rw [Json.toNode, Json.itemNodes_eq_map, keyRows, List.map_map, List.map_map]
    exact congrArg Node.list (List.map_congr_left fun e _ => e.toNode_keyJson)
  rw [keyList, if_pos rfl, Json.read_pretty, hnode]

theorem ComesFrom.keyRows_describe (h : c.ComesFrom catalog) :
    List.Forall₂ KeyRow.Describes catalog.entries c.keyRows := by
  rw [keyRows, List.forall₂_map_right_iff]
  exact h.entries.imp fun _ _ he => he.keyRow_describes

theorem resourceKeys_of_mem_tables {t : StringsTable} (ht : t ∈ c.tables) :
    t.pairs.map (·.key) = c.keyRows.map (·.resourceKey) := by
  rw [keys_of_mem_tables ht, accessors, keyRows, List.map_map, List.map_map]
  rfl

end ResolvedCatalog

/-- The text and the JSON list the same rows, one for each entry in order, and all tables
that are generated have the resource keys of these rows. -/
structure Catalog.ListsKeys (catalog : Catalog) (text json : String) (rows : List KeyRow) : Prop
    where
  text_eq : tabbedLines text = rows.map KeyRow.fields ++ [[""]]
  json_eq : Json.read json = ⟨.list (rows.map KeyRow.node), [], .exact, true⟩
  rows_describe : List.Forall₂ KeyRow.Describes catalog.entries rows
  tables_eq (n : Naming) : ∃ a, catalog.generate n = .ok a ∧
    a.tables.map (·.language) = catalog.languages ∧
    ∀ t ∈ a.tables, t.pairs.map (·.key) = rows.map (·.resourceKey)

theorem Catalog.listsKeys {catalog : Catalog} {c : ResolvedCatalog}
    (h : catalog.resolve = .ok c) :
    catalog.ListsKeys (c.keyList false) (c.keyList true) c.keyRows := by
  have hfrom := comesFrom_of_resolve h
  exact {
    text_eq := hfrom.tabbedLines_keyList
    json_eq := c.read_keyList
    rows_describe := hfrom.keyRows_describe
    tables_eq := fun n => by
      refine ⟨c.artifacts n, ?_, hfrom.tables_languages, fun t ht =>
        ResolvedCatalog.resourceKeys_of_mem_tables ht⟩
      rw [generate, h]
      rfl }

/-! ## The command -/

/-- Where a catalog loads and passes every check, the command prints a text and a JSON
document that list its keys, and nothing is changed. -/
theorem CatalogSource.keys_list_catalog {σ : Type} [FileStore (StateM σ)] [LawfulStore σ]
    {source : CatalogSource} {s : σ} {catalog : Catalog} {c : ResolvedCatalog}
    (hload : (runOn source.load s).1 = .ok catalog) (hresolve : catalog.resolve = .ok c) :
    ∃ text json rows, runOn (source.keys false) s = (.ok text, s) ∧
      runOn (source.keys true) s = (.ok json, s) ∧ catalog.ListsKeys text json rows := by
  have hrun : runOn source.load s = (.ok catalog, s) :=
    Prod.ext hload (source.load_inspects.state_eq s)
  exact ⟨_, _, _, keys_of_resolve hrun hresolve false, keys_of_resolve hrun hresolve true,
    Catalog.listsKeys hresolve⟩

/-- An entry with an argument, which its text does not mention. -/
def Catalog.cart : Catalog where
  languages := ["en"]
  entries := [⟨"cart.size", .ofList [("en", "Full")], [⟨"count", "Int"⟩]⟩]

def FileTree.cart : FileTree where
  nodes := [(["langgen.json"], .file ("\x7b\"languages\":[\"en\"],\"items\":[" ++
    "\x7b\"key\":\"cart.size\",\"arguments\":[\x7b\"name\":\"count\",\"type\":\"Int\"\x7d]," ++
    "\"localizations\":\x7b\"en\":\"Full\"\x7d\x7d]\x7d").toUTF8)]
  working := []

/-- The type of the argument is in the resource key, and its name is in the list. -/
theorem FileTree.cart_keys_list_catalog :
    ∃ json rows, runOn (GenerateOptions.small.source.keys false) FileTree.cart =
        (.ok "cart.size\t\"cart.size %lld\"\t[count]\n", FileTree.cart) ∧
      runOn (GenerateOptions.small.source.keys true) FileTree.cart =
        (.ok json, FileTree.cart) ∧
      Catalog.cart.ListsKeys "cart.size\t\"cart.size %lld\"\t[count]\n" json rows := by
  have hload : (runOn GenerateOptions.small.source.load FileTree.cart).1 =
      .ok Catalog.cart := by decide +kernel
  have hresolve : Catalog.cart.resolve = .ok
      ⟨["en"], [⟨"cart.size", [⟨"count", .int⟩],
        [⟨"en", "Full", "Full".toList.map .literal⟩]⟩]⟩ := by decide +kernel
  obtain ⟨text, json, rows, htext, hjson, hlists⟩ := CatalogSource.keys_list_catalog hload hresolve
  have hstate := GenerateOptions.small.source.load_inspects.state_eq FileTree.cart
  have hline := CatalogSource.keys_of_resolve (Prod.ext hload hstate) hresolve false
  obtain rfl : text = _ := Except.ok.inj (congrArg Prod.fst (htext.symm.trans hline))
  exact ⟨json, rows, htext, hjson, hlists⟩

end Phrasebook
