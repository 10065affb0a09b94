-- The names that the generated module declares. Each of them is given by the type
-- name, a segment of a key or an argument, and none is kept out. So a name that the
-- module takes from Swift has its own meaning there unless one of them is that name.
import Phrasebook.Proofs.CallSites

namespace Phrasebook

inductive NameKind where
  | enum
  | accessor
  | parameter
  deriving DecidableEq, Repr

/-! ## Declarations in lines -/

namespace SourceLine

/-- The line declares a name. A keyword is declared in backticks. -/
def Declares : SourceLine → NameKind → String → Prop
  | blank, _, _ => False
  | code _ text, .enum, name => text = "public enum " ++ escapeKeyword name ++ " \x7b"
  | code _ text, .accessor, name =>
    text = "public static var " ++ escapeKeyword name ++ ": String \x7b" ∨
    ∃ parameters,
      text = "public static func " ++ escapeKeyword name ++ "(" ++ parameters ++ ") -> String \x7b"
  | code _ text, .parameter, name =>
    ∃ function parameters type, '(' ∉ function.toList ∧
      escapeKeyword name ++ ": " ++ type ∈ splitAtCommas parameters ∧
      text = "public static func " ++ function ++ "(" ++ parameters ++ ") -> String \x7b"

variable {kind : NameKind} {name other : String} {depth : Nat}

/-- Only a line that starts with `public` declares something. -/
theorem not_declares_of_head {text : String} (h : text.toList.head? ≠ some 'p') :
    ¬ (code depth text).Declares kind name := by
  intro hdeclares
  apply h
  cases kind with
  | enum =>
    cases hdeclares
    simp
  | accessor =>
    rcases hdeclares with rfl | ⟨parameters, rfl⟩
    · simp
    · simp
  | parameter =>
    obtain ⟨function, parameters, type, -, -, rfl⟩ := hdeclares
    simp

theorem declares_opening_iff (hname : IsIdentifier name) (hother : IsIdentifier other) :
    (code depth (Item.opening other)).Declares kind name ↔ (kind, name) = (.enum, other) := by
  unfold Item.opening
  cases kind with
  | enum =>
    simp only [Declares, Prod.mk.injEq, true_and]
    constructor
    · intro h
      apply escapeKeyword_inj hname hother
      simpa using h.symm
    · rintro rfl
      rfl
  | accessor => simp [Declares, ← String.toList_inj]
  | parameter => simp [Declares, ← String.toList_inj]

theorem declares_property_iff (hname : IsIdentifier name) (hother : IsIdentifier other) :
    (code depth ("public static var " ++ escapeKeyword other ++ ": String \x7b")).Declares kind name
      ↔ (kind, name) = (.accessor, other) := by
  cases kind with
  | enum => simp [Declares, ← String.toList_inj]
  | accessor =>
    simp only [Declares, Prod.mk.injEq, true_and]
    constructor
    · rintro (h | ⟨parameters, h⟩)
      · apply escapeKeyword_inj hname hother
        simpa using h.symm
      · simp [← String.toList_inj] at h
    · rintro rfl
      exact Or.inl rfl
  | parameter => simp [Declares, ← String.toList_inj]

/-- The line of a function tells its name and its parameters. -/
theorem function_inj {function function' parameters parameters' : String}
    (h : '(' ∉ function.toList) (h' : '(' ∉ function'.toList)
    (hsame : "public static func " ++ function ++ "(" ++ parameters ++ ") -> String \x7b" =
      "public static func " ++ function' ++ "(" ++ parameters' ++ ") -> String \x7b") :
    function = function' ∧ parameters = parameters' := by
  have hopen : ∀ {f : String}, '(' ∉ f.toList → '(' ∉ ("public static func " ++ f).toList := by
    intro f hf
    simp [hf]
  obtain ⟨hfunction, hparameters⟩ :=
    eq_of_append_glue_eq "(" rfl (hopen h) (hopen h') ((String.append_left_inj _).mp hsame)
  exact ⟨(String.append_right_inj _).mp hfunction, hparameters⟩

theorem declares_function_iff (hname : IsIdentifier name) (hother : IsIdentifier other)
    {ps : List (String × ArgumentType)} (hsome : ps ≠ []) (hps : ∀ p ∈ ps, IsIdentifier p.1) :
    (code depth ("public static func " ++ escapeKeyword other ++ "(" ++
      ", ".intercalate (ps.map Accessor.parameter) ++ ") -> String \x7b")).Declares kind name ↔
      (kind, name) = (.accessor, other) ∨ ∃ p ∈ ps, (kind, name) = (.parameter, p.1) := by
  have hopen : ∀ {s : String}, IsIdentifier s → '(' ∉ (escapeKeyword s).toList := fun hs =>
    not_mem_escapeKeyword hs (by decide) (by decide)
  have hcolon : ∀ {s : String}, IsIdentifier s → ':' ∉ (escapeKeyword s).toList := fun hs =>
    not_mem_escapeKeyword hs (by decide) (by decide)
  have hsplit := Accessor.splitAtCommas_parameters hsome hps
  cases kind with
  | enum => simp [Declares, ← String.toList_inj]
  | accessor =>
    simp only [Declares, Prod.mk.injEq, true_and, reduceCtorEq, false_and, and_false, exists_false,
      or_false]
    constructor
    · rintro (h | ⟨parameters, h⟩)
      · simp [← String.toList_inj] at h
      · exact escapeKeyword_inj hname hother (function_inj (hopen hother) (hopen hname) h).1.symm
    · rintro rfl
      exact Or.inr ⟨_, rfl⟩
  | parameter =>
    simp only [Declares, Prod.mk.injEq, true_and, reduceCtorEq, false_and, false_or]
    constructor
    · rintro ⟨function, parameters, type, hfunction, hmem, h⟩
      rw [← (function_inj (hopen hother) hfunction h).2, hsplit] at hmem
      obtain ⟨p, hp, hparameter⟩ := List.mem_map.mp hmem
      have hescaped := eq_of_append_glue_eq ": " rfl (hcolon (hps p hp)) (hcolon hname) hparameter
      exact ⟨p, hp, escapeKeyword_inj hname (hps p hp) hescaped.1.symm⟩
    · rintro ⟨p, hp, rfl⟩
      refine ⟨_, _, p.2.name, hopen hother, ?_, rfl⟩
      rw [hsplit]
      exact List.mem_map_of_mem hp

end SourceLine

/-! ## Declarations in items -/

/-- The names in the lines of an accessor. -/
def Accessor.names (a : Accessor) : List (NameKind × String) :=
  (.accessor, memberName a.entryKey) :: a.arguments.map fun p => (.parameter, p.1)

/-- The names of an accessor, after those of the namespaces it stands in. -/
def Accessor.pathNames (a : Accessor) : List (NameKind × String) :=
  (namespacePath a.entryKey).map (NameKind.enum, ·) ++ a.names

namespace Accessor

variable {a : Accessor} {kind : NameKind} {name : String}

theorem declares_signature_iff (depth : Nat) (h : ∀ x ∈ a.names, IsIdentifier x.2)
    (hname : IsIdentifier name) :
    (SourceLine.code depth a.signature).Declares kind name ↔ (kind, name) ∈ a.names := by
  obtain ⟨hmember, harguments⟩ := List.forall_mem_cons.mp h
  unfold names signature
  by_cases hnil : a.arguments = []
  · simp [hnil, SourceLine.declares_property_iff hname hmember]
  · have hps : ∀ p ∈ a.arguments, IsIdentifier p.1 := fun p hp =>
      harguments _ (List.mem_map_of_mem hp)
    have hsome : ¬ a.arguments.isEmpty = true := by simpa using hnil
    rw [if_neg hsome, SourceLine.declares_function_iff hname hmember hnil hps, List.mem_cons,
      List.mem_map]
    simp only [eq_comm]

/-- Only the line that opens an accessor declares something. -/
theorem declares_sourceLines_iff (h : ∀ x ∈ a.names, IsIdentifier x.2) (hname : IsIdentifier name)
    (table : String) (depth : Nat) :
    (∃ line ∈ a.sourceLines table depth, line.Declares kind name) ↔ (kind, name) ∈ a.names := by
  have hdoc : ∀ line ∈ a.docLines depth, ¬ line.Declares kind name := by
    intro line hline
    unfold docLines at hline
    split at hline
    · cases hline
    · cases List.mem_singleton.mp hline
      exact SourceLine.not_declares_of_head (by simp)
  have hbody : ¬ (SourceLine.code (depth + 1) (a.body table)).Declares kind name := by
    apply SourceLine.not_declares_of_head
    unfold body lookup
    split <;> simp
  have hclose : ¬ (SourceLine.code depth "\x7d").Declares kind name :=
    SourceLine.not_declares_of_head (by decide)
  rw [← declares_signature_iff depth h hname]
  constructor
  · rintro ⟨line, hline, hdeclares⟩
    simp only [sourceLines, List.mem_append, List.mem_cons, List.not_mem_nil, or_false] at hline
    rcases hline with hline | rfl | rfl | rfl
    · exact absurd hdeclares (hdoc line hline)
    · exact hdeclares
    · exact absurd hdeclares hbody
    · exact absurd hdeclares hclose
  · intro hdeclares
    exact ⟨_, by simp [sourceLines], hdeclares⟩

end Accessor

namespace Item

mutual

/-- What an item declares, with everything inside it. -/
def names : Item → List (NameKind × String)
  | accessor a => a.names
  | nested name items => (.enum, name) :: bodyNames items

def bodyNames : List Item → List (NameKind × String)
  | [] => []
  | item :: rest => names item ++ bodyNames rest

end

variable {kind : NameKind} {name : String} {x : NameKind × String}

theorem mem_bodyNames {items : List Item} :
    x ∈ bodyNames items ↔ ∃ item ∈ items, x ∈ item.names := by
  induction items with
  | nil => simp [bodyNames]
  | cons item items ih => simp [bodyNames, ih]

theorem bodyNames_append (items more : List Item) :
    bodyNames (items ++ more) = bodyNames items ++ bodyNames more := by
  induction items with
  | nil => rfl
  | cons item items ih => simp [bodyNames, ih]

-- The proofs go through items and lists of items in turn, as their lines do.
mutual

/-- The lines of an item declare the names of the item. -/
theorem declares_sourceLines_iff (table : String) (depth : Nat) (hname : IsIdentifier name) :
    (item : Item) → (∀ x ∈ item.names, IsIdentifier x.2) →
      ((∃ line ∈ item.sourceLines table depth, line.Declares kind name) ↔
        (kind, name) ∈ item.names)
  | accessor a, h => by
    rw [names] at h ⊢
    rw [sourceLines]
    exact Accessor.declares_sourceLines_iff h hname table depth
  | nested other items, h => by
    rw [names] at h ⊢
    obtain ⟨hother, hitems⟩ := List.forall_mem_cons.mp h
    have hopening : (SourceLine.code depth (opening other)).Declares kind name ↔
        (kind, name) = (.enum, other) := SourceLine.declares_opening_iff hname hother
    have hclose : ¬ (SourceLine.code depth "\x7d").Declares kind name :=
      SourceLine.not_declares_of_head (by decide)
    rw [sourceLines, List.mem_cons, ← declares_bodyLines_iff table (depth + 1) hname items hitems,
      ← hopening]
    simp [or_and_right, exists_or, hclose]

theorem declares_bodyLines_iff (table : String) (depth : Nat) (hname : IsIdentifier name) :
    (items : List Item) → (∀ x ∈ bodyNames items, IsIdentifier x.2) →
      ((∃ line ∈ bodyLines table depth items, line.Declares kind name) ↔
        (kind, name) ∈ bodyNames items)
  | [], _ => by simp [bodyLines, bodyNames]
  | [item], h => by
    rw [bodyNames, bodyNames, List.append_nil] at h ⊢
    rw [bodyLines]
    exact declares_sourceLines_iff table depth hname item h
  | item :: next :: rest, h => by
    rw [bodyNames] at h ⊢
    obtain ⟨hitem, hrest⟩ := List.forall_mem_append.mp h
    have hblank : ¬ SourceLine.blank.Declares kind name := id
    rw [List.mem_append, ← declares_sourceLines_iff table depth hname item hitem,
      ← declares_bodyLines_iff table depth hname (next :: rest) hrest, bodyLines]
    · simp [or_and_right, exists_or, hblank]
    · simp

end

/-! ## Declarations of grouped accessors -/

theorem mem_bodyNames_updateNested {change : List Item → List Item} {new : List (NameKind × String)}
    (hchange : ∀ items, x ∈ bodyNames (change items) ↔ x ∈ bodyNames items ∨ x ∈ new)
    (items : List Item) : x ∈ bodyNames (updateNested name change items) ↔
      x ∈ bodyNames items ∨ x = (.enum, name) ∨ x ∈ new := by
  induction items with
  | nil => simp [updateNested, bodyNames, names, hchange]
  | cons item items ih =>
    cases item with
    | accessor a => simp [updateNested, bodyNames, ih, or_assoc]
    | nested other inside =>
      rw [updateNested]
      split
      · rename_i hsame
        simp only [bodyNames, names, hchange, hsame, List.mem_append, List.mem_cons]
        tauto
      · simp only [bodyNames, ih, List.mem_append, or_assoc]

/-- One more accessor adds its own names and those of the namespaces on its way. -/
theorem mem_bodyNames_insert (a : Accessor) (path : List String) (items : List Item) :
    x ∈ bodyNames (insert a path items) ↔
      x ∈ bodyNames items ∨ x ∈ path.map (NameKind.enum, ·) ++ a.names := by
  induction path generalizing items with
  | nil => simp [insert, bodyNames_append, bodyNames, names]
  | cons first path ih =>
    rw [insert, mem_bodyNames_updateNested ih, List.map_cons, List.cons_append, List.mem_cons]

theorem mem_bodyNames_group (as : List Accessor) :
    x ∈ bodyNames (group as) ↔ x ∈ as.flatMap Accessor.pathNames := by
  induction as using List.reverseRecOn with
  | nil => simp [group, bodyNames]
  | append_singleton as a ih =>
    rw [group_snoc, mem_bodyNames_insert, ih]
    simp [Accessor.pathNames]

/-! ## Names in scope -/

/-- The code of an accessor finds a name without a qualifier. It is declared beside
the accessor, beside a namespace around it or as a parameter. -/
inductive InScope (a : Accessor) : List Item → String → Prop
  | parameter {items : List Item} {p : String × ArgumentType} :
      accessor a ∈ items → p ∈ a.arguments → InScope a items p.1
  | beside {items : List Item} {around item : Item} :
      around ∈ items → Contains around a → item ∈ items → InScope a items (declaredName item)
  | inside {items inner : List Item} {namespaceName name : String} :
      nested namespaceName inner ∈ items → InScope a inner name → InScope a items name

/-- An item declares its own name. -/
theorem declaredName_mem_names (item : Item) : ∃ kind, (kind, declaredName item) ∈ item.names := by
  cases item with
  | accessor a => exact ⟨.accessor, by simp [names, Accessor.names, declaredName]⟩
  | nested name items => exact ⟨.enum, by simp [names, declaredName]⟩

theorem InScope.exists_kind {a : Accessor} {items : List Item} (h : InScope a items name) :
    ∃ kind, (kind, name) ∈ bodyNames items := by
  induction h with
  | parameter ha hp =>
    refine ⟨.parameter, mem_bodyNames.mpr ⟨_, ha, ?_⟩⟩
    rw [names]
    exact List.mem_cons_of_mem _ (List.mem_map_of_mem hp)
  | @beside items around item _ _ hitem =>
    obtain ⟨kind, hkind⟩ := declaredName_mem_names item
    exact ⟨kind, mem_bodyNames.mpr ⟨item, hitem, hkind⟩⟩
  | inside hinner _ ih =>
    obtain ⟨kind, hkind⟩ := ih
    refine ⟨kind, mem_bodyNames.mpr ⟨_, hinner, ?_⟩⟩
    rw [names]
    exact List.mem_cons_of_mem _ hkind

end Item

/-! ## Given names -/

/-- The names that an entry gives: the namespaces and the accessor of its key, and
its arguments. -/
def Entry.names (entry : Entry) : List (NameKind × String) :=
  (namespacePath entry.key).map (NameKind.enum, ·) ++
    (.accessor, memberName entry.key) :: entry.arguments.map fun a => (.parameter, a.name)

/-- The names that a catalog and the name of the type give. -/
def Catalog.names (c : Catalog) (typeName : String) : List (NameKind × String) :=
  (.enum, typeName) :: c.entries.flatMap Entry.names

/-- The capital of a letter starts an identifier again. -/
theorem uppercase_isNameStart {c : Char} (h : IsNameStart c) :
    ∃ capital, Text.uppercase c = [capital] ∧ IsNameStart capital := by
  have hcapitals : ∀ n < 128, isIdentifierStart (Char.ofNat n) = true →
      (Text.uppercase (Char.ofNat n)).length = 1 ∧
        (Text.uppercase (Char.ofNat n)).all isIdentifierStart = true := by
    decide +kernel
  have hsmall : c.toNat < 128 := IsNamePart.toNat_lt (Or.inl h)
  have hcapital := hcapitals c.toNat hsmall
  rw [Char.ofNat_toNat] at hcapital
  obtain ⟨hlength, hall⟩ := hcapital (isIdentifierStart_iff.mpr h)
  obtain ⟨capital, hcapital⟩ := List.length_eq_one_iff.mp hlength
  rw [hcapital] at hall
  exact ⟨capital, hcapital, isIdentifierStart_iff.mp (by simpa using hall)⟩

theorem IsIdentifier.namespaceName {s : String} (h : IsIdentifier s) :
    IsIdentifier (namespaceName s) := by
  obtain ⟨first, rest, hchars, hfirst, hrest⟩ := h
  obtain ⟨capital, hcapital, hstart⟩ := uppercase_isNameStart hfirst
  refine ⟨capital, rest, ?_, hstart, hrest⟩
  simp [Phrasebook.namespaceName, Text.capitalize, hchars, hcapital]

theorem memberName_mem_segments (key : String) : memberName key ∈ segments key := by
  unfold memberName
  rw [List.getLastD_eq_getLast?, List.getLast?_eq_some_getLast (segments_ne_nil key),
    Option.getD_some]
  exact List.getLast_mem _

theorem Entry.isIdentifier_of_mem_names {entry : Entry} (hkey : isIdentifierPath entry.key)
    (harguments : ∀ a ∈ entry.arguments, isIdentifier a.name) {x : NameKind × String}
    (hx : x ∈ entry.names) : IsIdentifier x.2 := by
  have hsegments : ∀ segment ∈ segments entry.key, IsIdentifier segment := fun segment hsegment =>
    isIdentifier_iff.mp (List.all_eq_true.mp hkey segment hsegment)
  unfold names at hx
  rcases List.mem_append.mp hx with hpath | hown
  · obtain ⟨name, hname, rfl⟩ := List.mem_map.mp hpath
    obtain ⟨segment, hsegment, rfl⟩ := List.mem_map.mp hname
    exact (hsegments segment (List.dropLast_subset _ hsegment)).namespaceName
  · rcases List.mem_cons.mp hown with rfl | hargument
    · exact hsegments _ (memberName_mem_segments entry.key)
    · obtain ⟨a, ha, rfl⟩ := List.mem_map.mp hargument
      exact isIdentifier_iff.mp (harguments a ha)

theorem ResolvedEntry.ComesFrom.pathNames_eq {languages : List String} {entry : Entry}
    {e : ResolvedEntry} (h : e.ComesFrom languages entry) :
    e.accessor.pathNames = entry.names := by
  have harguments : (e.arguments.map fun a => (NameKind.parameter, a.name)) =
      entry.arguments.map fun a => (NameKind.parameter, a.name) :=
    Validation.map_eq_map_of_forall₂ (fun _ _ ha => by rw [ha.name_eq]) h.arguments
  rw [Entry.names, ← h.key_eq, ← harguments]
  simp [Accessor.pathNames, Accessor.names, accessor]

namespace ResolvedCatalog.ComesFrom

variable {c : Catalog} {r : ResolvedCatalog} {n : Naming} {x : NameKind × String}

theorem isIdentifier_of_mem_names (h : r.ComesFrom c) (htype : IsIdentifier n.typeName)
    (hx : x ∈ c.names n.typeName) : IsIdentifier x.2 := by
  rcases List.mem_cons.mp hx with rfl | hentries
  · exact htype
  · obtain ⟨entry, hentry, hnames⟩ := List.mem_flatMap.mp hentries
    obtain ⟨place, hplace⟩ := List.getElem?_of_mem hentry
    obtain ⟨e, -, he⟩ := Validation.getElem?_of_forall₂ h.entries hplace
    exact Entry.isIdentifier_of_mem_names he.key_isPath he.names_areIdentifiers hnames

/-- The items of the module declare the names that were given. -/
theorem mem_names_iff (h : r.ComesFrom c) :
    x ∈ (r.accessorModule n).root.names ↔ x ∈ c.names n.typeName := by
  have hnames : r.accessors.map Accessor.pathNames = c.entries.map Entry.names := by
    rw [accessors, List.map_map]
    exact Validation.map_eq_map_of_forall₂ (fun _ _ he => he.pathNames_eq) h.entries
  rw [AccessorModule.root, Item.names, Catalog.names, List.mem_cons, List.mem_cons,
    Item.mem_bodyNames_group, List.flatMap_def, List.flatMap_def, ← hnames]
  rfl

/-- The lines of the module declare the names that were given. -/
theorem declares_iff (h : r.ComesFrom c) (htype : IsIdentifier n.typeName) {kind : NameKind}
    {name : String} (hname : IsIdentifier name) :
    (∃ line ∈ (r.accessorModule n).sourceLines, line.Declares kind name) ↔
      (kind, name) ∈ c.names n.typeName := by
  rw [← h.mem_names_iff]
  apply Item.declares_sourceLines_iff _ _ hname
  intro x hx
  exact h.isIdentifier_of_mem_names htype (h.mem_names_iff.mp hx)

/-- What the code of an accessor finds in the module was given. -/
theorem exists_kind_of_inScope (h : r.ComesFrom c) {a : Accessor} {name : String}
    (hscope : Item.InScope a [(r.accessorModule n).root] name) :
    ∃ kind, (kind, name) ∈ c.names n.typeName := by
  obtain ⟨kind, hkind⟩ := hscope.exists_kind
  rw [Item.bodyNames, Item.bodyNames, List.append_nil] at hkind
  exact ⟨kind, h.mem_names_iff.mp hkind⟩

end ResolvedCatalog.ComesFrom

/-! ## Names of Swift -/

/-- The names of Swift that generated code uses without a qualifier. -/
def swiftNames : List String :=
  "NSLocalizedString" :: [ArgumentType.string, .int, .double].map ArgumentType.name

theorem isIdentifier_of_mem_swiftNames {name : String} (h : name ∈ swiftNames) :
    IsIdentifier name := by
  apply isIdentifier_iff.mp
  revert name
  decide

/-- A module declares a name of Swift exactly when the type name, a namespace or the
last segment of a key, or an argument is that name. When none of them is, the name
has no other meaning in the code of an accessor than the one in Swift. -/
theorem Catalog.swiftNames_declared_iff {c : Catalog} {r : ResolvedCatalog} {n : Naming}
    (h : c.resolve = .ok r) (htype : Settings.checkTypeName n.typeName = .ok ()) {name : String}
    (hname : name ∈ swiftNames) :
    (∀ kind, (∃ line ∈ (r.accessorModule n).sourceLines, line.Declares kind name) ↔
      (kind, name) ∈ c.names n.typeName) ∧
    ((∀ kind, (kind, name) ∉ c.names n.typeName) →
      ∀ a, ¬ Item.InScope a [(r.accessorModule n).root] name) := by
  have hcomes := comesFrom_of_resolve h
  constructor
  · intro kind
    exact hcomes.declares_iff (Settings.checkTypeName_eq_ok_iff.mp htype)
      (isIdentifier_of_mem_swiftNames hname)
  · intro hfree a hscope
    obtain ⟨kind, hkind⟩ := hcomes.exists_kind_of_inScope hscope
    exact hfree kind hkind

/-- The greetings give no name of Swift, so all of these names are Swift's own in the
accessors. -/
theorem Catalog.greetings_leave_swiftNames :
    ∃ r, Catalog.greetings.resolve = .ok r ∧ ∀ name ∈ swiftNames,
      (∀ kind, ¬ ∃ line ∈ (r.accessorModule {}).sourceLines, line.Declares kind name) ∧
      ∀ a, ¬ Item.InScope a [(r.accessorModule {}).root] name := by
  have hresolve : Validation.outcome Catalog.greetings.resolve = .ok () := by decide +kernel
  obtain ⟨r, hr⟩ := Validation.outcome_eq_ok_iff.mp hresolve
  have htype : Settings.checkTypeName ({} : Naming).typeName = .ok () := by decide
  have hfree : ∀ name ∈ swiftNames, ∀ given ∈ Catalog.greetings.names "Localization",
      given.2 ≠ name := by
    decide +kernel
  refine ⟨r, hr, fun name hname => ?_⟩
  obtain ⟨hdeclared, hmeaning⟩ := swiftNames_declared_iff hr htype hname
  have hnot : ∀ kind, (kind, name) ∉ Catalog.greetings.names "Localization" :=
    fun kind hkind => hfree name hname _ hkind rfl
  exact ⟨fun kind hline => hnot kind ((hdeclared kind).mp hline), hmeaning hnot⟩

/-- A namespace, an accessor and an argument with names of Swift. -/
def Catalog.shadowing : Catalog where
  languages := ["en"]
  entries := [⟨"string.Double", .ofList [("en", "\\(Int) km")], [⟨"Int", "Int"⟩]⟩]

/-- The accessor of the one entry. -/
def Accessor.shadowed : Accessor where
  entryKey := "string.Double"
  resourceKey := "string.Double %lld"
  arguments := [("Int", .int)]
  argumentList := "[Int]"
  doc := "\\(Int) km"

/-- The module of the one accessor, with a type that has a name of Swift as well. -/
def Item.shadowed : Item := .nested "NSLocalizedString" [.nested "String" [.accessor .shadowed]]

/-- The names of the type, the namespace, the accessor and the parameter are in scope. -/
theorem Item.swiftNames_inScope_shadowed {name : String} (h : name ∈ swiftNames) :
    InScope .shadowed [shadowed] name := by
  have hself := List.mem_singleton_self (accessor .shadowed)
  have hspace := List.mem_singleton_self (nested "String" [accessor .shadowed])
  have hwhole := List.mem_singleton_self shadowed
  have hbelow : Contains (nested "String" [accessor .shadowed]) .shadowed :=
    .inside hself (.self _)
  have hmember : memberName Accessor.shadowed.entryKey = "Double" := by decide +kernel
  simp only [swiftNames, List.map_cons, List.map_nil, ArgumentType.name, List.mem_cons,
    List.not_mem_nil, or_false] at h
  rcases h with rfl | rfl | rfl | rfl
  · exact .beside hwhole (.inside hspace hbelow) hwhole
  · exact .inside hwhole (.beside hspace hbelow hspace)
  · exact .inside hwhole (.inside hspace
      (.parameter (p := ("Int", .int)) hself (List.mem_singleton_self _)))
  · rw [← hmember]
    exact .inside hwhole (.inside hspace (.beside hself (.self _) hself))

/-- Nothing keeps the names of Swift out. Here all of them are declared in the module,
and the one accessor has them in scope. -/
theorem Catalog.shadowing_declares_swiftNames :
    Settings.checkTypeName "NSLocalizedString" = .ok () ∧
    ∃ r, Catalog.shadowing.resolve = .ok r ∧ Accessor.shadowed ∈ r.accessors ∧
      ∀ name ∈ swiftNames,
        (∃ kind, ∃ line ∈ (r.accessorModule ⟨"Localizable", "NSLocalizedString"⟩).sourceLines,
          line.Declares kind name) ∧
        Item.InScope .shadowed [(r.accessorModule ⟨"Localizable", "NSLocalizedString"⟩).root]
          name := by
  have htype : Settings.checkTypeName "NSLocalizedString" = .ok () := by decide
  have hresolve : Validation.outcome Catalog.shadowing.resolve = .ok () := by decide +kernel
  obtain ⟨r, hr⟩ := Validation.outcome_eq_ok_iff.mp hresolve
  have haccessors : Catalog.shadowing.resolve.map (·.accessors) = .ok [.shadowed] := by
    decide +kernel
  rw [hr] at haccessors
  have hshadowed : r.accessors = [.shadowed] := by simpa [Except.map] using haccessors
  have hpath : namespacePath Accessor.shadowed.entryKey = ["String"] := by decide +kernel
  have hroot : (r.accessorModule ⟨"Localizable", "NSLocalizedString"⟩).root = .shadowed := by
    simp [AccessorModule.root, ResolvedCatalog.accessorModule, hshadowed, Item.group, hpath,
      Item.insert, Item.updateNested, Item.shadowed]
  have hcomes := comesFrom_of_resolve hr
  refine ⟨htype, r, hr, hshadowed ▸ List.mem_singleton_self _, fun name hname => ?_⟩
  have hscope : Item.InScope .shadowed
      [(r.accessorModule ⟨"Localizable", "NSLocalizedString"⟩).root] name := by
    rw [hroot]
    exact Item.swiftNames_inScope_shadowed hname
  obtain ⟨kind, hkind⟩ := hcomes.exists_kind_of_inScope hscope
  have hline := (hcomes.declares_iff (Settings.checkTypeName_eq_ok_iff.mp htype)
    (isIdentifier_of_mem_swiftNames hname)).mpr hkind
  exact ⟨⟨kind, hline⟩, hscope⟩

end Phrasebook
