-- The namespaces of the generated module. Every scope of the module is what
-- stands at some path of names, and it declares each name once when no two
-- keys clash.
import Mathlib.Data.List.Induction
import Mathlib.Data.List.Nodup
import Phrasebook.Generation
import Phrasebook.Proofs.Declarations
import Phrasebook.Proofs.Resolution

namespace Phrasebook

namespace Item

/-! ## What a list of items declares -/

def accessor? : Item → Option Accessor
  | accessor a => some a
  | nested _ _ => none

def namespace? : Item → Option String
  | accessor _ => none
  | nested name _ => some name

/-- The accessors among the items, without those of nested namespaces. -/
def accessors (items : List Item) : List Accessor := items.filterMap accessor?

/-- The names of the namespaces among the items. -/
def namespaces (items : List Item) : List String := items.filterMap namespace?

/-- An accessor is declared by the last segment of its key. -/
def declaredName : Item → String
  | accessor a => memberName a.entryKey
  | nested name _ => name

/-- The items of a scope and of the scopes inside it. -/
inductive Scope : List Item → List Item → Prop
  | own (items : List Item) : Scope items items
  | inner {items inside scope : List Item} {name : String} :
      nested name inside ∈ items → Scope inside scope → Scope items scope

/-- The scope that a path of names leads to. -/
inductive Node : List Item → List String → List Item → Prop
  | root (items : List Item) : Node items [] items
  | inside {items inside node : List Item} {name : String} {path : List String} :
      nested name inside ∈ items → Node inside path node → Node items (name :: path) node

/-- No scope has two items with one name. -/
def DeclaresOnce (items : List Item) : Prop :=
  ∀ scope, Scope items scope → (scope.map declaredName).Nodup

theorem declaredNames_perm (items : List Item) :
    (items.map declaredName).Perm
      ((accessors items).map (memberName ·.entryKey) ++ namespaces items) := by
  induction items with
  | nil => exact .nil
  | cons item items ih =>
    cases item with
    | accessor a => exact ih.cons _
    | nested name inside => exact (ih.cons name).trans List.perm_middle.symm

theorem namespaces_cons (name : String) (inside items : List Item) :
    namespaces (nested name inside :: items) = name :: namespaces items := rfl

theorem mem_accessors {a : Accessor} {items : List Item} :
    a ∈ accessors items ↔ accessor a ∈ items := by
  simp only [accessors, List.mem_filterMap]
  constructor
  · rintro ⟨item, hitem, ha⟩
    cases item with
    | accessor b =>
      cases ha
      exact hitem
    | nested name inside => cases ha
  · intro h
    exact ⟨_, h, rfl⟩

theorem mem_namespaces {name : String} {items : List Item} :
    name ∈ namespaces items ↔ ∃ inside, nested name inside ∈ items := by
  simp only [namespaces, List.mem_filterMap]
  constructor
  · rintro ⟨item, hitem, hname⟩
    cases item with
    | accessor a => simp [namespace?] at hname
    | nested other inside =>
      simp only [namespace?, Option.some.injEq] at hname
      exact ⟨inside, hname ▸ hitem⟩
  · rintro ⟨inside, hitem⟩
    exact ⟨_, hitem, rfl⟩

/-! ## What stands at a path -/

/-- The items of the first nested namespace with a name. -/
def nestedItems (name : String) : List Item → List Item
  | [] => []
  | accessor _ :: rest => nestedItems name rest
  | nested other inside :: rest => if other = name then inside else nestedItems name rest

/-- The items of the namespace that a path leads to. There are none where the
path leads nowhere. -/
def itemsAt : List String → List Item → List Item
  | [], items => items
  | name :: path, items => itemsAt path (nestedItems name items)

theorem nestedItems_of_mem {name : String} {inside items : List Item}
    (h : nested name inside ∈ items) (hnames : (namespaces items).Nodup) :
    nestedItems name items = inside := by
  induction items with
  | nil => simp at h
  | cons item items ih =>
    rcases List.mem_cons.mp h with rfl | hrest
    · simp [nestedItems]
    · cases item with
      | accessor a => exact ih hrest hnames
      | nested other inside' =>
        have hnot : other ∉ namespaces items := (List.nodup_cons.mp hnames).1
        have hne : other ≠ name := fun he => hnot (mem_namespaces.mpr ⟨inside, he ▸ hrest⟩)
        rw [nestedItems, if_neg hne]
        exact ih hrest (List.nodup_cons.mp hnames).2

theorem nestedItems_mem_or_nil (name : String) (items : List Item) :
    nested name (nestedItems name items) ∈ items ∨ nestedItems name items = [] := by
  induction items with
  | nil => exact Or.inr rfl
  | cons item items ih =>
    cases item with
    | accessor a => simpa [nestedItems] using ih
    | nested other inside =>
      by_cases he : other = name
      · simp [nestedItems, he]
      · simpa [nestedItems, he, Ne.symm he] using ih

@[simp] theorem itemsAt_nil (path : List String) : itemsAt path [] = [] := by
  induction path with
  | nil => rfl
  | cons name path ih => exact ih

theorem Node.scope {items node : List Item} {path : List String} (h : Node items path node) :
    Scope items node := by
  induction h with
  | root items => exact .own items
  | inside hmem _ ih => exact .inner hmem ih

theorem Scope.exists_node {items scope : List Item} (h : Scope items scope) :
    ∃ path, Node items path scope := by
  induction h with
  | own items => exact ⟨[], .root items⟩
  | inner hmem _ ih =>
    obtain ⟨path, hpath⟩ := ih
    exact ⟨_ :: path, .inside hmem hpath⟩

/-- Where no scope has two namespaces with one name, a path leads to one scope. -/
theorem Node.itemsAt_eq {items node : List Item} {path : List String} (h : Node items path node)
    (hnames : ∀ path, (namespaces (itemsAt path items)).Nodup) : itemsAt path items = node := by
  induction h with
  | root items => rfl
  | @inside items inside node name path hmem _ ih =>
    have hinside : nestedItems name items = inside := nestedItems_of_mem hmem (hnames [])
    rw [itemsAt, hinside]
    exact ih fun path => hinside ▸ hnames (name :: path)

theorem node_itemsAt {path : List String} {items : List Item} (h : itemsAt path items ≠ []) :
    Node items path (itemsAt path items) := by
  induction path generalizing items with
  | nil => exact .root items
  | cons name path ih =>
    rcases nestedItems_mem_or_nil name items with hmem | hnil
    · exact .inside hmem (ih h)
    · exact absurd (by rw [itemsAt, hnil, itemsAt_nil]) h

theorem declaresOnce_iff_itemsAt {items : List Item}
    (hnames : ∀ path, (namespaces (itemsAt path items)).Nodup) :
    DeclaresOnce items ↔ ∀ path, ((itemsAt path items).map declaredName).Nodup := by
  constructor
  · intro h path
    by_cases hnil : itemsAt path items = []
    · simp [hnil]
    · exact h _ (node_itemsAt hnil).scope
  · intro h scope hscope
    obtain ⟨path, hpath⟩ := hscope.exists_node
    exact hpath.itemsAt_eq hnames ▸ h path

/-! ## One more accessor -/

theorem accessors_updateNested (name : String) (change : List Item → List Item)
    (items : List Item) : accessors (updateNested name change items) = accessors items := by
  induction items with
  | nil => rfl
  | cons item items ih =>
    cases item with
    | accessor a => exact congrArg (a :: ·) ih
    | nested other inside =>
      rw [updateNested]
      split
      · rfl
      · exact ih

theorem namespaces_updateNested (name : String) (change : List Item → List Item)
    (items : List Item) : namespaces (updateNested name change items) =
      if name ∈ namespaces items then namespaces items else namespaces items ++ [name] := by
  induction items with
  | nil => rfl
  | cons item items ih =>
    cases item with
    | accessor a => exact ih
    | nested other inside =>
      rw [updateNested, namespaces_cons]
      by_cases he : other = name
      · subst he
        rw [if_pos rfl, namespaces_cons, if_pos List.mem_cons_self]
      · rw [if_neg he, namespaces_cons, ih]
        split <;> simp_all [Ne.symm he]

theorem namespaces_insert_nil (a : Accessor) (items : List Item) :
    namespaces (insert a [] items) = namespaces items := by
  simp [insert, namespaces, namespace?]

theorem nestedItems_updateNested (name other : String) (change : List Item → List Item)
    (items : List Item) : nestedItems name (updateNested other change items) =
      if other = name then change (nestedItems name items) else nestedItems name items := by
  induction items with
  | nil => simp [updateNested, nestedItems]
  | cons item items ih =>
    cases item with
    | accessor a => exact ih
    | nested third inside =>
      rw [updateNested]
      by_cases hthird : third = other
      · subst hthird
        simp only [if_true, nestedItems]
        split <;> rfl
      · rw [if_neg hthird, nestedItems, nestedItems, ih]
        split
        · rename_i hname
          rw [if_neg fun he => hthird (hname.trans he.symm)]
        · rfl

/-- At a path that is on the way, the rest of the way remains. -/
theorem itemsAt_insert_append (a : Accessor) (path inner : List String) (items : List Item) :
    itemsAt path (insert a (path ++ inner) items) = insert a inner (itemsAt path items) := by
  induction path generalizing items with
  | nil => rfl
  | cons name path ih =>
    rw [List.cons_append, insert, itemsAt, nestedItems_updateNested, if_pos rfl, ih, itemsAt]

/-- At any other path nothing changes. -/
theorem itemsAt_insert_elsewhere (a : Accessor) {path way : List String} (items : List Item)
    (h : ¬ path <+: way) : itemsAt path (insert a way items) = itemsAt path items := by
  induction path generalizing way items with
  | nil => exact absurd List.nil_prefix h
  | cons name path ih =>
    cases way with
    | nil =>
      have hnested : nestedItems name (items ++ [accessor a]) = nestedItems name items := by
        induction items with
        | nil => rfl
        | cons item items ih =>
          cases item with
          | accessor b => exact ih
          | nested other inside => rw [List.cons_append, nestedItems, nestedItems, ih]
      rw [insert, itemsAt, hnested, itemsAt]
    | cons first way =>
      rw [insert, itemsAt, nestedItems_updateNested, itemsAt]
      split
      · rename_i he
        subst he
        exact ih _ fun hprefix => h ((List.prefix_cons_inj first).mpr hprefix)
      · rfl

/-! ## The grouped accessors -/

theorem group_snoc (as : List Accessor) (a : Accessor) :
    group (as ++ [a]) = insert a (namespacePath a.entryKey) (group as) := by
  simp [group, List.foldl_append]

/-- At each path stand the accessors of that path, in their order. -/
theorem accessors_itemsAt_group (path : List String) (as : List Accessor) :
    accessors (itemsAt path (group as)) = as.filter (namespacePath ·.entryKey = path) := by
  induction as using List.reverseRecOn with
  | nil => simp [group, accessors]
  | append_singleton as a ih =>
    rw [group_snoc, List.filter_append, ← ih]
    by_cases hprefix : path <+: namespacePath a.entryKey
    · obtain ⟨inner, hinner⟩ := hprefix
      rw [← hinner, itemsAt_insert_append]
      cases inner with
      | nil => simp [insert, accessors, accessor?, ← hinner]
      | cons name inner => simp [insert, accessors_updateNested, ← hinner]
    · rw [itemsAt_insert_elsewhere a _ hprefix]
      have hne : namespacePath a.entryKey ≠ path := fun he => hprefix (he ▸ List.prefix_refl _)
      simp [hne]

/-- At each path stand the namespaces that some key goes through, each once. -/
theorem namespaces_itemsAt_group (path : List String) (as : List Accessor) :
    (namespaces (itemsAt path (group as))).Nodup ∧
      ∀ name, name ∈ namespaces (itemsAt path (group as)) ↔
        ∃ a ∈ as, ∃ inner, namespacePath a.entryKey = path ++ name :: inner := by
  induction as using List.reverseRecOn with
  | nil => simp [group, namespaces]
  | append_singleton as a ih =>
    obtain ⟨hnodup, hmem⟩ := ih
    have hsnoc : ∀ name,
        (∃ b ∈ as ++ [a], ∃ inner, namespacePath b.entryKey = path ++ name :: inner) ↔
        name ∈ namespaces (itemsAt path (group as)) ∨
          ∃ inner, namespacePath a.entryKey = path ++ name :: inner := by
      intro name
      rw [hmem]
      simp [or_and_right, exists_or]
    simp only [hsnoc]
    rw [group_snoc]
    by_cases hprefix : path <+: namespacePath a.entryKey
    · obtain ⟨way, hway⟩ := hprefix
      rw [← hway, itemsAt_insert_append]
      cases way with
      | nil =>
        rw [namespaces_insert_nil]
        exact ⟨hnodup, fun name => by simp⟩
      | cons first way =>
        rw [insert, namespaces_updateNested]
        split
        · rename_i hold
          refine ⟨hnodup, fun name => (or_iff_left_of_imp ?_).symm⟩
          rintro ⟨inner, hinner⟩
          simp only [List.append_cancel_left_eq, List.cons.injEq] at hinner
          exact hinner.1 ▸ hold
        · rename_i hnew
          refine ⟨by simpa using hnodup.concat hnew, fun name => ?_⟩
          simp [eq_comm]
    · rw [itemsAt_insert_elsewhere a _ hprefix]
      refine ⟨hnodup, fun name => (or_iff_left ?_).symm⟩
      rintro ⟨inner, hinner⟩
      exact hprefix ⟨name :: inner, hinner.symm⟩

/-! ## When each name is declared once -/

/-- The names of one scope differ when the names of its accessors do, and no
namespace beside them has one of those. -/
theorem declaredNames_nodup_iff (path : List String) (as : List Accessor) :
    ((itemsAt path (group as)).map declaredName).Nodup ↔
      ((as.filter (namespacePath ·.entryKey = path)).map (memberName ·.entryKey)).Nodup ∧
        ∀ a ∈ as, namespacePath a.entryKey = path → ∀ b ∈ as, ∀ inner,
          namespacePath b.entryKey ≠ path ++ memberName a.entryKey :: inner := by
  obtain ⟨hnodup, hmem⟩ := namespaces_itemsAt_group path as
  rw [(declaredNames_perm _).nodup_iff, List.nodup_append, accessors_itemsAt_group]
  simp only [List.mem_map, List.mem_filter, decide_eq_true_eq, hmem]
  constructor
  · rintro ⟨hmembers, -, hapart⟩
    exact ⟨hmembers, fun a ha hpath b hb inner hinner =>
      hapart _ ⟨a, ⟨ha, hpath⟩, rfl⟩ _ ⟨b, hb, inner, hinner⟩ rfl⟩
  · rintro ⟨hmembers, hapart⟩
    refine ⟨hmembers, hnodup, ?_⟩
    rintro _ ⟨a, ⟨ha, hpath⟩, rfl⟩ _ ⟨b, hb, inner, hinner⟩ rfl
    exact hapart a ha hpath b hb inner hinner

theorem apart_of_declaredNames_nodup {as : List Accessor}
    (h : ∀ path, ((itemsAt path (group as)).map declaredName).Nodup) :
    (as.map (·.entryKey)).Pairwise Apart := by
  simp only [declaredNames_nodup_iff] at h
  have hinside : ∀ a ∈ as, ∀ b ∈ as, ∀ inner,
      namespacePath b.entryKey ≠ namespacePath a.entryKey ++ memberName a.entryKey :: inner :=
    fun a ha => (h _).2 a ha rfl
  rw [List.pairwise_map, List.pairwise_iff_forall_sublist]
  intro a b hsub
  have ha : a ∈ as := hsub.subset (by simp)
  have hb : b ∈ as := hsub.subset (by simp)
  have hbeside : namespacePath a.entryKey = namespacePath b.entryKey →
      memberName a.entryKey ≠ memberName b.entryKey := by
    intro hpath
    have hfilter := (hsub.filter (namespacePath ·.entryKey = namespacePath b.entryKey)).map
      (memberName ·.entryKey)
    have hmembers := (h (namespacePath b.entryKey)).1.sublist hfilter
    simpa [hpath] using hmembers
  constructor
  · rintro (⟨hpath, hname⟩ | ⟨inner, hinner⟩)
    · exact hbeside hpath hname
    · exact hinside a ha b hb inner hinner
  · rintro (⟨hpath, hname⟩ | ⟨inner, hinner⟩)
    · exact hbeside hpath.symm hname.symm
    · exact hinside b hb a ha inner hinner

theorem declaredNames_nodup_of_apart {as : List Accessor}
    (h : (as.map (·.entryKey)).Pairwise Apart) (path : List String) :
    ((itemsAt path (group as)).map declaredName).Nodup := by
  rw [declaredNames_nodup_iff]
  constructor
  · have hpairs : as.Pairwise fun a b => Apart a.entryKey b.entryKey := List.pairwise_map.mp h
    rw [List.Nodup, List.pairwise_map, List.pairwise_filter]
    refine hpairs.imp ?_
    intro a b hapart ha hb hname
    have hpaths : namespacePath a.entryKey = namespacePath b.entryKey := by
      rw [of_decide_eq_true ha, of_decide_eq_true hb]
    exact hapart.1 (Or.inl ⟨hpaths, hname⟩)
  · rintro a ha rfl b hb inner hinner
    have hkeys : a.entryKey ≠ b.entryKey := by
      intro he
      simp [he] at hinner
    have hapart := h.forall (List.mem_map_of_mem ha) (List.mem_map_of_mem hb) hkeys
    exact hapart.1 (Or.inr ⟨inner, hinner⟩)

/-- The grouped accessors declare each name once when no two keys clash. -/
theorem declaresOnce_group_iff (as : List Accessor) :
    DeclaresOnce (group as) ↔ (as.map (·.entryKey)).Pairwise Apart := by
  rw [declaresOnce_iff_itemsAt fun path => (namespaces_itemsAt_group path as).1]
  exact ⟨apart_of_declaredNames_nodup, declaredNames_nodup_of_apart⟩

/-- One namespace around everything adds a scope with one name. -/
theorem declaresOnce_nested_iff (name : String) (items : List Item) :
    DeclaresOnce [nested name items] ↔ DeclaresOnce items := by
  constructor
  · intro h scope hscope
    exact h scope (.inner (List.mem_singleton.mpr rfl) hscope)
  · intro h scope hscope
    cases hscope with
    | own => simp
    | inner hmem hscope =>
      cases List.mem_singleton.mp hmem
      exact h scope hscope

end Item

/-! ## The generated module -/

theorem Catalog.generate_eq_ok_iff {c : Catalog} {n : Naming} {a : Artifacts} :
    c.generate n = .ok a ↔ ∃ r, c.resolve = .ok r ∧ r.artifacts n = a :=
  Validation.map_eq_ok_iff

/-- No scope of the file declares a name twice. -/
def AccessorModule.DeclaresOnce (m : AccessorModule) : Prop := Item.DeclaresOnce [m.root]

theorem AccessorModule.declaresOnce_iff (m : AccessorModule) :
    m.DeclaresOnce ↔ (m.accessors.map (·.entryKey)).Pairwise Apart := by
  unfold DeclaresOnce root
  rw [Item.declaresOnce_nested_iff, Item.declaresOnce_group_iff]

theorem Validation.checkAccessors_eq_ok_iff (entries : List Entry) :
    checkAccessors entries = .ok () ↔ (entries.map (·.key)).Pairwise Apart := by
  rw [checkAccessors_eq_stopAt, stopAt_eq_ok_iff, accessorFaults_eq_nil_iff]

/-- The check of the accessors agrees with the module that is built of them: it
passes when no scope would declare a name twice. So a generated module never
does. -/
theorem AccessorModule.declaresOnce_when_checked :
    (∀ (entries : List Entry) (m : AccessorModule),
      m.accessors.map (·.entryKey) = entries.map (·.key) →
      (Validation.checkAccessors entries = .ok () ↔ m.DeclaresOnce)) ∧
    ∀ (c : Catalog) (n : Naming) (a : Artifacts),
      c.generate n = .ok a → a.accessorModule.DeclaresOnce := by
  constructor
  · intro entries m hkeys
    rw [Validation.checkAccessors_eq_ok_iff, declaresOnce_iff, hkeys]
  · intro c n a hgenerate
    obtain ⟨r, hr, rfl⟩ := Catalog.generate_eq_ok_iff.mp hgenerate
    obtain ⟨-, -, -, -, -, haccessors, -⟩ := Catalog.resolve_eq_ok_iff.mp hr
    have hkeys : (r.artifacts n).accessorModule.accessors.map (·.entryKey) =
        c.entries.map (·.key) := by
      rw [← (Catalog.comesFrom_of_resolve hr).keys_eq]
      simp [ResolvedCatalog.artifacts, ResolvedCatalog.accessorModule, ResolvedCatalog.accessors,
        ResolvedEntry.accessor]
    rw [declaresOnce_iff, hkeys]
    exact (Validation.checkAccessors_eq_ok_iff _).mp haccessors

/-- Two keys that name one namespace in two ways. -/
def Catalog.greetings : Catalog where
  languages := ["en"]
  entries := [⟨"home.title", .ofList [("en", "Home")], []⟩,
    ⟨"Home.welcome", .ofList [("en", "Hi, \\(name)!")], [⟨"name", "String"⟩]⟩]

/-- Both accessors of the greetings stand in the one namespace `Home`. -/
theorem AccessorModule.greetings_declare_once :
    (AccessorModule.mk "Localization" "Localizable"
        [⟨"home.title", "home.title", [], "[]", ""⟩,
        ⟨"Home.welcome", "Home.welcome", [], "[]", ""⟩]).DeclaresOnce ∧
      ∃ a, Catalog.greetings.generate {} = .ok a ∧ a.accessorModule.DeclaresOnce := by
  have hchecked : Validation.checkAccessors Catalog.greetings.entries = .ok () := by decide +kernel
  have hgenerate : Validation.outcome (Catalog.greetings.generate {}) = .ok () := by decide +kernel
  obtain ⟨a, ha⟩ := Validation.outcome_eq_ok_iff.mp hgenerate
  constructor
  · exact (declaresOnce_when_checked.1 Catalog.greetings.entries _ (by decide)).mp hchecked
  · exact ⟨a, ha, declaresOnce_when_checked.2 Catalog.greetings {} a ha⟩

end Phrasebook
