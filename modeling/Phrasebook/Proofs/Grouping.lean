-- The grouping of accessors into namespaces. It keeps every accessor at the
-- place that its key names, and puts the items of each namespace in the order
-- in which the first of their accessors come.
import Phrasebook.Proofs.Namespaces

namespace Phrasebook

namespace Item

/-! ## Namespaces and what they contain -/

/-- The item is the accessor, or a namespace with the accessor below it. -/
inductive Contains : Item → Accessor → Prop
  | self (a : Accessor) : Contains (accessor a) a
  | inside {items : List Item} {item : Item} {a : Accessor} {name : String} :
      item ∈ items → Contains item a → Contains (nested name items) a

/-- The position at which an item starts in a list of accessors: its own one, or
the first one of those below a namespace. -/
inductive StartsAt (as : List Accessor) : Item → Nat → Prop
  | accessor {a : Accessor} {i : Nat} : as[i]? = some a → StartsAt as (accessor a) i
  | nested {name : String} {inside : List Item} {a : Accessor} {i : Nat} :
      as[i]? = some a → Contains (nested name inside) a →
      (∀ j < i, ∀ b, as[j]? = some b → ¬ Contains (nested name inside) b) →
      StartsAt as (nested name inside) i

/-- Items that are the stable grouping of some accessors. -/
structure IsStableGrouping (as : List Accessor) (items : List Item) : Prop where
  node_unique : ∀ path node node', Node items path node → Node items path node' → node = node'
  accessors_eq : ∀ path node, Node items path node →
    accessors node = as.filter (namespacePath ·.entryKey = path)
  reached : ∀ a ∈ as, ∃ node, Node items (namespacePath a.entryKey) node
  names_nodup : ∀ path node, Node items path node → (namespaces node).Nodup
  inhabited : ∀ path node, Node items path node → path ≠ [] →
    ∃ item ∈ node, ∃ a, Contains item a
  ordered : ∀ path node, Node items path node →
    ∃ positions : List Nat, positions.Pairwise (· < ·) ∧ List.Forall₂ (StartsAt as) node positions

/-! ## Paths and nodes -/

variable {items node : List Item} {path : List String} {name : String} {a : Accessor}

theorem Node.of_concat (h : Node items (path ++ [name]) node) :
    ∃ outer, Node items path outer ∧ nested name node ∈ outer := by
  induction path generalizing items with
  | nil =>
    cases h with
    | inside hmem hroot =>
      cases hroot
      exact ⟨items, .root items, hmem⟩
  | cons first path ih =>
    cases h with
    | inside hmem hnode =>
      obtain ⟨outer, houter, hin⟩ := ih hnode
      exact ⟨outer, .inside hmem houter, hin⟩

theorem itemsAt_append (path inner : List String) (items : List Item) :
    itemsAt (path ++ inner) items = itemsAt inner (itemsAt path items) := by
  induction path generalizing items with
  | nil => rfl
  | cons name path ih => exact ih _

theorem contains_nested_iff {inside : List Item} :
    Contains (nested name inside) a ↔ ∃ item ∈ inside, Contains item a := by
  constructor
  · intro h
    cases h with
    | inside hitem hin => exact ⟨_, hitem, hin⟩
  · rintro ⟨item, hitem, hin⟩
    exact .inside hitem hin

/-- What items contain is what stands at some path. -/
theorem exists_contains_iff (hnames : ∀ path, (namespaces (itemsAt path items)).Nodup) :
    (∃ item ∈ items, Contains item a) ↔ ∃ path, a ∈ accessors (itemsAt path items) := by
  constructor
  · rintro ⟨item, hitem, hin⟩
    induction hin generalizing items with
    | self a => exact ⟨[], mem_accessors.mpr hitem⟩
    | @inside inside item a name hmem _ ih =>
      have hinside : nestedItems name items = inside := nestedItems_of_mem hitem (hnames [])
      obtain ⟨path, hpath⟩ := ih (fun path => hinside ▸ hnames (name :: path)) hmem
      exact ⟨name :: path, by rwa [itemsAt, hinside]⟩
  · rintro ⟨path, hpath⟩
    induction path generalizing items with
    | nil => exact ⟨accessor a, mem_accessors.mp hpath, .self a⟩
    | cons name path ih =>
      rcases nestedItems_mem_or_nil name items with hmem | hnil
      · exact ⟨_, hmem, contains_nested_iff.mpr (ih (fun path => hnames (name :: path)) hpath)⟩
      · rw [itemsAt, hnil, itemsAt_nil] at hpath
        cases hpath

/-! ## The grouped accessors -/

theorem names_nodup_group (as : List Accessor) (path : List String) :
    (namespaces (itemsAt path (group as))).Nodup := (namespaces_itemsAt_group path as).1

/-- A nested namespace contains the accessors with a key that goes through it. -/
theorem contains_group_iff {as : List Accessor} {inside : List Item}
    (h : nested name inside ∈ itemsAt path (group as)) :
    Contains (nested name inside) a ↔ a ∈ as ∧ path ++ [name] <+: namespacePath a.entryKey := by
  have hinside : inside = itemsAt (path ++ [name]) (group as) := by
    rw [itemsAt_append, itemsAt, nestedItems_of_mem h (names_nodup_group as path), itemsAt]
  subst hinside
  rw [contains_nested_iff, exists_contains_iff fun inner => by
    rw [← itemsAt_append]; exact names_nodup_group as _]
  simp only [← itemsAt_append, accessors_itemsAt_group, List.mem_filter, decide_eq_true_eq]
  constructor
  · rintro ⟨inner, ha, hpath⟩
    exact ⟨ha, inner, hpath.symm⟩
  · rintro ⟨ha, inner, hpath⟩
    exact ⟨inner, ha, hpath.symm⟩

/-- A module contains its accessors. -/
theorem contains_root_iff {m : AccessorModule} : Contains m.root a ↔ a ∈ m.accessors := by
  rw [AccessorModule.root, contains_nested_iff, exists_contains_iff (names_nodup_group _)]
  simp [accessors_itemsAt_group]

/-! ## Where items start -/

/-- The position at which an item of the namespace at a path starts, told by the
keys alone. -/
inductive PlacedAt (as : List Accessor) (path : List String) : Item → Nat → Prop
  | accessor {a : Accessor} {i : Nat} : as[i]? = some a → PlacedAt as path (accessor a) i
  | nested {name : String} {inside : List Item} {a : Accessor} {i : Nat} :
      as[i]? = some a → path ++ [name] <+: namespacePath a.entryKey →
      (∀ j < i, ∀ b, as[j]? = some b → ¬ path ++ [name] <+: namespacePath b.entryKey) →
      PlacedAt as path (nested name inside) i

section

variable {as : List Accessor} {item : Item} {i : Nat}

theorem PlacedAt.lt_length (h : PlacedAt as path item i) : i < as.length := by
  cases h with
  | accessor hat => exact (List.getElem?_eq_some_iff.mp hat).1
  | nested hat _ _ => exact (List.getElem?_eq_some_iff.mp hat).1

theorem PlacedAt.snoc (h : PlacedAt as path item i) (a : Accessor) :
    PlacedAt (as ++ [a]) path item i := by
  have hlt := h.lt_length
  cases h with
  | accessor hat => exact .accessor (by rwa [List.getElem?_append_left hlt])
  | nested hat hthrough hfirst =>
    refine .nested (by rwa [List.getElem?_append_left hlt]) hthrough fun j hj b hb => ?_
    rw [List.getElem?_append_left (by omega)] at hb
    exact hfirst j hj b hb

/-- What is inside a namespace does not matter for its place. -/
theorem placedAt_nested {inside : List Item} (h : PlacedAt as path (nested name inside) i)
    (inside' : List Item) : PlacedAt as path (nested name inside') i := by
  cases h with
  | nested hat hthrough hfirst => exact .nested hat hthrough hfirst

theorem PlacedAt.startsAt (h : PlacedAt as path item i) (hitem : item ∈ itemsAt path (group as)) :
    StartsAt as item i := by
  cases h with
  | accessor hat => exact .accessor hat
  | nested hat hthrough hfirst =>
    refine .nested hat ((contains_group_iff hitem).mpr ⟨List.mem_of_getElem? hat, hthrough⟩) ?_
    intro j hj b hb hin
    exact hfirst j hj b hb ((contains_group_iff hitem).mp hin).2

end

/-! ## One more accessor at its place -/

theorem updateNested_of_not_mem (change : List Item → List Item) (h : name ∉ namespaces items) :
    updateNested name change items = items ++ [nested name (change [])] := by
  induction items with
  | nil => rfl
  | cons item items ih =>
    cases item with
    | accessor a => exact congrArg (accessor a :: ·) (ih h)
    | nested other inside =>
      rw [namespaces_cons, List.mem_cons, not_or] at h
      rw [updateNested, if_neg (Ne.symm h.1), ih h.2, List.cons_append]

theorem forall₂_updateNested {R : Item → Nat → Prop} {positions : List Nat}
    (hR : ∀ name inside inside' i, R (nested name inside) i → R (nested name inside') i)
    (change : List Item → List Item) (hmem : name ∈ namespaces items)
    (h : List.Forall₂ R items positions) :
    List.Forall₂ R (updateNested name change items) positions := by
  induction h with
  | nil => cases hmem
  | @cons item i items positions hitem hrest ih =>
    cases item with
    | accessor a => exact .cons hitem (ih hmem)
    | nested other inside =>
      rw [updateNested]
      split
      · exact .cons (hR _ _ _ _ hitem) hrest
      · rename_i hne
        rw [namespaces_cons, List.mem_cons] at hmem
        exact .cons hitem (ih (hmem.resolve_left (Ne.symm hne)))

/-- The items at a path start one after the other. -/
theorem placed_group (path : List String) (as : List Accessor) :
    ∃ positions : List Nat, positions.Pairwise (· < ·) ∧
      List.Forall₂ (PlacedAt as path) (itemsAt path (group as)) positions := by
  induction as using List.reverseRecOn with
  | nil => exact ⟨[], .nil, by simp [group]⟩
  | append_singleton as a ih =>
    obtain ⟨positions, hincreasing, hplaced⟩ := ih
    have hold := hplaced.imp fun _ _ hitem => hitem.snoc a
    have hlast : (as ++ [a])[as.length]? = some a := by simp
    have hnew : (positions ++ [as.length]).Pairwise (· < ·) := by
      refine List.pairwise_append.mpr ⟨hincreasing, List.pairwise_singleton _ _, ?_⟩
      intro i hi j hj
      obtain ⟨item, -, hitem⟩ := Validation.exists_of_mem_forall₂ hplaced hi
      rw [List.mem_singleton.mp hj]
      exact hitem.lt_length
    rw [group_snoc]
    by_cases hprefix : path <+: namespacePath a.entryKey
    · obtain ⟨way, hway⟩ := hprefix
      rw [← hway, itemsAt_insert_append]
      cases way with
      | nil =>
        -- the accessor is the last item of the namespace
        exact ⟨_, hnew, List.rel_append hold (.cons (.accessor hlast) .nil)⟩
      | cons first inner =>
        rw [insert]
        by_cases hmem : first ∈ namespaces (itemsAt path (group as))
        · -- the accessor goes into a namespace that has its place
          exact ⟨positions, hincreasing,
            forall₂_updateNested (fun _ _ _ _ hitem => placedAt_nested hitem _) _ hmem hold⟩
        · -- the accessor is the first one of a namespace
          rw [updateNested_of_not_mem _ hmem]
          refine ⟨_, hnew, List.rel_append hold (.cons (.nested hlast ?_ ?_) .nil)⟩
          · rw [← hway]
            exact ⟨inner, by simp⟩
          · rintro j hj b hb ⟨rest, hrest⟩
            rw [List.getElem?_append_left hj] at hb
            refine hmem (((namespaces_itemsAt_group path as).2 first).mpr
              ⟨b, List.mem_of_getElem? hb, rest, ?_⟩)
            rw [← hrest, List.append_assoc, List.singleton_append]
    · rw [itemsAt_insert_elsewhere a _ hprefix]
      exact ⟨positions, hincreasing, hold⟩

/-! ## The stable grouping -/

theorem Node.eq_group {as : List Accessor} (h : Node (group as) path node) :
    itemsAt path (group as) = node := h.itemsAt_eq (names_nodup_group as)

/-- An accessor is put into the namespace that its key names. -/
theorem exists_node_of_mem {as : List Accessor} (h : a ∈ as) :
    ∃ node, Node (group as) (namespacePath a.entryKey) node ∧ accessor a ∈ node := by
  have hmem : a ∈ accessors (itemsAt (namespacePath a.entryKey) (group as)) := by
    rw [accessors_itemsAt_group]
    simpa using h
  refine ⟨_, node_itemsAt fun hnil => ?_, mem_accessors.mp hmem⟩
  rw [hnil] at hmem
  cases hmem

/-- A namespace was added for some accessor, which stands below it. -/
theorem Node.exists_contains {as : List Accessor} (h : Node (group as) path node)
    (hpath : path ≠ []) : ∃ item ∈ node, ∃ a, Contains item a := by
  obtain ⟨outer, name, rfl⟩ := (List.eq_nil_or_concat path).resolve_left hpath
  obtain ⟨around, haround, hmem⟩ := Node.of_concat (by simpa using h)
  rw [← haround.eq_group] at hmem
  obtain ⟨a, ha, inner, hinner⟩ :=
    ((namespaces_itemsAt_group outer as).2 name).mp (mem_namespaces.mpr ⟨node, hmem⟩)
  have hthrough : outer ++ [name] <+: namespacePath a.entryKey := ⟨inner, by simp [hinner]⟩
  obtain ⟨item, hitem, hin⟩ :=
    contains_nested_iff.mp ((contains_group_iff hmem).mpr ⟨ha, hthrough⟩)
  exact ⟨item, hitem, a, hin⟩

/-- Accessors that are put into their namespaces one after the other end up in
their stable grouping. -/
theorem group_isStableGrouping (as : List Accessor) : IsStableGrouping as (group as) where
  node_unique := fun path node node' h h' => h.eq_group.symm.trans h'.eq_group
  accessors_eq := fun path node h => by rw [← h.eq_group, accessors_itemsAt_group]
  reached := by
    intro a ha
    obtain ⟨node, hnode, -⟩ := exists_node_of_mem ha
    exact ⟨node, hnode⟩
  names_nodup := fun path node h => h.eq_group ▸ names_nodup_group as path
  inhabited := fun path node h hpath => h.exists_contains hpath
  ordered := by
    intro path node h
    obtain ⟨positions, hincreasing, hplaced⟩ := placed_group path as
    have hitems := (List.forall₂_and_left _ _).mpr ⟨fun item hitem => hitem, hplaced⟩
    refine ⟨positions, hincreasing, h.eq_group ▸ hitems.imp ?_⟩
    rintro item i ⟨hitem, hplace⟩
    exact hplace.startsAt hitem

end Item

end Phrasebook
