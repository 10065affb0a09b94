-- Catalogs that are written as JSON and read again. A document that says what was
-- written gives every part back, and so the text of a catalog reads as the catalog.
import Phrasebook.CatalogFile
import Phrasebook.CatalogJson
import Phrasebook.Proofs.Checks
import Phrasebook.Proofs.WrittenJson

namespace Phrasebook

open Validation (bind_eq_ok_iff mapM_eq_ok_iff)

/-! ## Lists -/

section

variable {α : Type} {toJson : α → Json} {ofNode : Node → Except DecodeError α}

theorem mapM_ofNode (h : ∀ a, ofNode (toJson a).toNode = .ok a) (l : List α) :
    (Json.itemNodes (l.map toJson)).mapM ofNode = .ok l := by
  rw [Json.itemNodes_eq_map, List.map_map, mapM_eq_ok_iff, List.forall₂_map_left_iff]
  exact List.forall₂_same.mpr fun a _ => h a

end

/-! ## Localizations -/

namespace Localizations

theorem toList_insert (ls : Localizations) (language text : String) :
    (ls.insert language text).toList = insertInto language text ls.toList := rfl

/-- A language after all others goes to the end. -/
theorem insertInto_of_last {language text : String} {pairs : List (String × String)}
    (h : ∀ p ∈ pairs, p.1 < language) :
    insertInto language text pairs = pairs ++ [(language, text)] := by
  induction pairs with
  | nil => rfl
  | cons p rest ih =>
    obtain ⟨hfirst, hrest⟩ := List.forall_mem_cons.mp h
    rw [insertInto, if_neg (String.ne_of_lt hfirst).symm, if_neg (String.lt_asymm hfirst), ih hrest]
    rfl

/-- Reading pairs in the order of their languages adds them at the end. -/
theorem ofMembers_sorted (d : Document) {ls whole : Localizations} {pairs : List (String × String)}
    (h : whole.toList = ls.toList ++ pairs) :
    ofMembers d ls (Json.memberNodes (pairs.map fun p => (p.1, .string p.2))) = .ok whole := by
  induction pairs generalizing ls with
  | nil =>
    obtain ⟨pairs, _⟩ := ls
    obtain ⟨pairs', _⟩ := whole
    obtain rfl : pairs' = pairs := by simpa using h
    rfl
  | cons p rest ih =>
    have hsorted := h ▸ whole.sorted
    have hlast : ∀ q ∈ ls.toList, q.1 < p.1 := fun q hq =>
      (List.pairwise_append.mp hsorted).2.2 q hq p (List.mem_cons_self ..)
    apply ih
    rw [toList_insert, insertInto_of_last hlast, h]
    simp

theorem ofNode_toJson (d : Document) (ls : Localizations) :
    ofNode d ls.toJson.toNode = .ok ls := ofMembers_sorted d rfl

end Localizations

/-! ## Records -/

section

variable {σ : Type} {d : Document} {step : σ → String → Node → Except DecodeError σ}
  {read read' last : σ} {name : String} {value : Node} {rest : List (Node × Node)}

theorem readMembers_nil : readMembers d step read [] = .ok read := rfl

/-- The members of a record are read one field at a time. -/
theorem readMembers_cons (h : step read name value = .ok read')
    (hrest : readMembers d step read' rest = .ok last) :
    readMembers d step read ((.text name, value) :: rest) = .ok last := by
  rw [readMembers, bind_eq_ok_iff]
  exact ⟨name, rfl, bind_eq_ok_iff.mpr ⟨read', h, hrest⟩⟩

theorem onceField_none {α : Type} {read : Except DecodeError α} {a : α} (h : read = .ok a) :
    onceField name none read = .ok (some a) := by
  rw [h]
  rfl

end

variable (d : Document)

theorem Argument.ofNode_toJson (a : Argument) : ofNode d a.toJson.toNode = .ok a := rfl

namespace Entry

theorem argumentsOfNode_toJson (arguments : List Argument) :
    argumentsOfNode d (Json.array (arguments.map Argument.toJson)).toNode = .ok arguments :=
  mapM_ofNode (Argument.ofNode_toJson d) arguments

variable {d} in
theorem ofNode_of_fields {e : Entry} {members : List (Node × Node)}
    (arguments : Option (List Argument)) (harguments : arguments.getD [] = e.arguments)
    (h : readMembers d (readField d) ⟨none, none, none⟩ members =
      .ok ⟨some e.key, some e.localizations, arguments⟩) : ofNode d (.map members) = .ok e := by
  rw [ofNode, bind_eq_ok_iff]
  refine ⟨.fields members, rfl, bind_eq_ok_iff.mpr ⟨_, h, ?_⟩⟩
  simp [requireField, harguments, bind, Except.bind, pure, Except.pure]

theorem ofNode_toJson (e : Entry) : ofNode d e.toJson.toNode = .ok e := by
  have hkey : readField d ⟨none, none, none⟩ "key" (.text e.key) =
      .ok ⟨some e.key, none, none⟩ := rfl
  have hlocalizations : readField d ⟨some e.key, none, none⟩ "localizations"
      e.localizations.toJson.toNode = .ok ⟨some e.key, some e.localizations, none⟩ := by
    exact bind_eq_ok_iff.mpr ⟨_, onceField_none (Localizations.ofNode_toJson d e.localizations), rfl⟩
  have harguments : readField d ⟨some e.key, some e.localizations, none⟩ "arguments"
      (Json.array (e.arguments.map Argument.toJson)).toNode =
        .ok ⟨some e.key, some e.localizations, some e.arguments⟩ := by
    exact bind_eq_ok_iff.mpr ⟨_, onceField_none (argumentsOfNode_toJson d e.arguments), rfl⟩
  unfold toJson
  split
  · rename_i hnone
    apply ofNode_of_fields none (List.isEmpty_iff.mp hnone).symm
    exact readMembers_cons hkey (readMembers_cons hlocalizations readMembers_nil)
  · apply ofNode_of_fields (some e.arguments) rfl
    exact readMembers_cons hkey
      (readMembers_cons hlocalizations (readMembers_cons harguments readMembers_nil))

end Entry

namespace Catalog

theorem languagesOfNode_toJson (languages : List String) :
    languagesOfNode d (Json.array (languages.map .string)).toNode = .ok languages :=
  mapM_ofNode (fun _ => rfl) languages

theorem entriesOfNode_toJson (entries : List Entry) :
    entriesOfNode d (Json.array (entries.map Entry.toJson)).toNode = .ok entries :=
  mapM_ofNode (Entry.ofNode_toJson d) entries

variable {d} in
theorem ofNode_of_fields {c : Catalog} {members : List (Node × Node)}
    (h : readMembers d (readField d) ⟨none, none⟩ members =
      .ok ⟨some c.languages, some c.entries⟩) : ofNode d (.map members) = .ok c := by
  rw [ofNode, bind_eq_ok_iff]
  exact ⟨.fields members, rfl, bind_eq_ok_iff.mpr ⟨_, h, rfl⟩⟩

theorem ofNode_toJson (c : Catalog) : ofNode d c.toJson.toNode = .ok c := by
  have hlanguages : readField d ⟨none, none⟩ "languages"
      (Json.array (c.languages.map .string)).toNode = .ok ⟨some c.languages, none⟩ := by
    exact bind_eq_ok_iff.mpr ⟨_, onceField_none (languagesOfNode_toJson d c.languages), rfl⟩
  have hentries : readField d ⟨some c.languages, none⟩ "items"
      (Json.array (c.entries.map Entry.toJson)).toNode =
        .ok ⟨some c.languages, some c.entries⟩ := by
    exact bind_eq_ok_iff.mpr ⟨_, onceField_none (entriesOfNode_toJson d c.entries), rfl⟩
  apply ofNode_of_fields
  exact readMembers_cons hlanguages (readMembers_cons hentries readMembers_nil)

end Catalog

/-- A catalog that is written as JSON in one line reads as the same catalog. -/
theorem Catalog.parse_toJson (c : Catalog) : parse .json c.toJson.compact = .ok c := by
  rw [parse, Format.catalog, Format.document, Json.read_compact, ofDocument, ofNode_toJson]
  rfl

end Phrasebook
