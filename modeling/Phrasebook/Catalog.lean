-- Catalogs: the declared languages and the entries, as a document gives
-- them. Nothing here is checked yet.
import Phrasebook.ArgumentType

namespace Phrasebook

/-- An argument of an entry. The type is the text of the document, so that
an unknown type is reported along with the entry it stands in. -/
structure Argument where
  name : String
  type : String
  deriving DecidableEq, Repr

/-- The type, if it is one of the supported ones. -/
def Argument.argumentType? (a : Argument) : Option ArgumentType := ArgumentType.ofName? a.type

/-! ## Localizations -/

/-- The texts of an entry by language, in the order of the languages. -/
structure Localizations where
  toList : List (String × String)
  sorted : toList.Pairwise (·.1 < ·.1)
  deriving DecidableEq

namespace Localizations

def empty : Localizations := ⟨[], .nil⟩

/-- Puts a text at its place in the order of the languages, over an older
text of the same language. -/
def insertInto (language text : String) : List (String × String) → List (String × String)
  | [] => [(language, text)]
  | (other, old) :: rest =>
    if language = other then (language, text) :: rest
    else if language < other then (language, text) :: (other, old) :: rest
    else (other, old) :: insertInto language text rest

theorem mem_insertInto {language text : String} {pairs : List (String × String)}
    {p : String × String} (h : p ∈ insertInto language text pairs) :
    p = (language, text) ∨ p ∈ pairs := by
  induction pairs with
  | nil => simpa [insertInto] using h
  | cons q rest ih =>
    obtain ⟨other, old⟩ := q
    simp only [insertInto] at h
    split at h
    · rcases List.mem_cons.1 h with h | h <;> simp [h]
    · split at h
      · simpa using h
      · rcases List.mem_cons.1 h with h | h
        · simp [h]
        · rcases ih h with h | h <;> simp [h]

theorem sorted_insertInto (language text : String) {pairs : List (String × String)}
    (h : pairs.Pairwise (·.1 < ·.1)) : (insertInto language text pairs).Pairwise (·.1 < ·.1) := by
  induction pairs with
  | nil => simp [insertInto]
  | cons q rest ih =>
    obtain ⟨other, old⟩ := q
    obtain ⟨hfirst, hrest⟩ := List.pairwise_cons.1 h
    simp only [insertInto]
    split
    · rename_i he
      exact List.pairwise_cons.2 ⟨fun p hp => he ▸ hfirst p hp, hrest⟩
    · rename_i hne
      split
      · rename_i hlt
        refine List.pairwise_cons.2 ⟨fun p hp => ?_, h⟩
        rcases List.mem_cons.1 hp with rfl | hp
        · exact hlt
        · exact String.lt_trans hlt (hfirst p hp)
      · rename_i hnlt
        refine List.pairwise_cons.2 ⟨fun p hp => ?_, ih hrest⟩
        rcases mem_insertInto hp with rfl | hp
        · exact Decidable.byContradiction fun hn =>
            hne (String.le_antisymm (String.not_lt.1 hn) (String.not_lt.1 hnlt))
        · exact hfirst p hp

def insert (ls : Localizations) (language text : String) : Localizations :=
  ⟨insertInto language text ls.toList, sorted_insertInto language text ls.sorted⟩

/-- The localizations of a list of pairs; of two with one language the later
one holds. -/
def ofList (pairs : List (String × String)) : Localizations :=
  pairs.foldl (fun ls p => ls.insert p.1 p.2) empty

def languages (ls : Localizations) : List String := ls.toList.map (·.1)

def get? (ls : Localizations) (language : String) : Option String := ls.toList.lookup language

end Localizations

/-! ## Entries and catalogs -/

/-- One message. The dots of the key part it into namespaces, and the order
of the arguments fixes their positions. -/
structure Entry where
  key : String
  localizations : Localizations
  arguments : List Argument
  deriving DecidableEq

def Entry.localization? (e : Entry) (language : String) : Option String :=
  e.localizations.get? language

structure Catalog where
  languages : List String
  entries : List Entry
  deriving DecidableEq

/-- The first entry with a key. -/
def Catalog.findEntry? (c : Catalog) (key : String) : Option Entry :=
  c.entries.find? (·.key == key)

end Phrasebook
