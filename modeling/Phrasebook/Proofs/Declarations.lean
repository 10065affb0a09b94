-- The names that keys declare in the generated module. The check of the
-- accessors goes over one list of declarations, and it passes exactly when
-- no two keys of the list clash.
import Mathlib.Data.List.Pairwise
import Phrasebook.Proofs.Checks
import Phrasebook.Validation

namespace Phrasebook

/-- The accessors of two keys are the same, or the accessor of the first one
has the name of a namespace that the second one stands in. -/
def Clash (a b : String) : Prop :=
  (namespacePath a = namespacePath b ∧ memberName a = memberName b) ∨
    ∃ inner, namespacePath b = namespacePath a ++ memberName a :: inner

/-- Neither of two keys clashes with the other. -/
def Apart (a b : String) : Prop := ¬ Clash a b ∧ ¬ Clash b a

theorem Apart.symm {a b : String} (h : Apart a b) : Apart b a := ⟨h.2, h.1⟩

instance : Std.Symm Apart where
  symm _ _ := Apart.symm

namespace Validation

/-! ## The declarations of a key -/

/-- The declarations of a key from a scope on: its namespaces from the
outermost one, then its accessor. -/
def declarationsFrom (key member : String) (scope : List String) : List String → List Declaration
  | [] => [⟨scope, member, .member, key⟩]
  | name :: path => ⟨scope, name, .scope, key⟩ :: declarationsFrom key member (scope ++ [name]) path

def declarationsOf (key : String) : List Declaration :=
  declarationsFrom key (memberName key) [] (namespacePath key)

theorem mem_declarationsFrom {key member : String} {scope path : List String} {d : Declaration} :
    d ∈ declarationsFrom key member scope path ↔ d = ⟨scope ++ path, member, .member, key⟩ ∨
      ∃ outer name inner, path = outer ++ name :: inner ∧
        d = ⟨scope ++ outer, name, .scope, key⟩ := by
  induction path generalizing scope with
  | nil => simp [declarationsFrom]
  | cons first path ih =>
    simp only [declarationsFrom, List.mem_cons, ih]
    constructor
    · rintro (rfl | rfl | ⟨outer, name, inner, rfl, rfl⟩)
      · exact Or.inr ⟨[], first, path, rfl, by simp⟩
      · exact Or.inl (by simp)
      · exact Or.inr ⟨first :: outer, name, inner, rfl, by simp⟩
    · rintro (rfl | ⟨outer, name, inner, hpath, rfl⟩)
      · exact Or.inr (Or.inl (by simp))
      · rcases List.cons_eq_append_iff.mp hpath with ⟨rfl, hcons⟩ | ⟨outer, rfl, rfl⟩
        · cases hcons
          exact Or.inl (by simp)
        · exact Or.inr (Or.inr ⟨outer, name, inner, rfl, by simp⟩)

theorem mem_declarationsOf {key : String} {d : Declaration} :
    d ∈ declarationsOf key ↔ d = ⟨namespacePath key, memberName key, .member, key⟩ ∨
      ∃ outer name inner, namespacePath key = outer ++ name :: inner ∧
        d = ⟨outer, name, .scope, key⟩ := by
  simp [declarationsOf, mem_declarationsFrom]

/-! ## Declarations that go together -/

/-- Two declarations of one name in one scope have to be namespaces. -/
def Compatible (d e : Declaration) : Prop :=
  d.scope = e.scope → d.name = e.name → d.kind = .scope ∧ e.kind = .scope

theorem Compatible.symm {d e : Declaration} (h : Compatible d e) : Compatible e d :=
  fun hs hn => (h hs.symm hn.symm).symm

instance : Std.Symm Compatible where
  symm _ _ := Compatible.symm

/-- Each scope of a key is longer than the one before. -/
theorem declarationsFrom_scopes (key member : String) (scope path : List String) :
    (declarationsFrom key member scope path).Pairwise fun d e => d.scope ≠ e.scope := by
  induction path generalizing scope with
  | nil => simp [declarationsFrom]
  | cons first path ih =>
    refine List.pairwise_cons.mpr ⟨fun d hd hscope => ?_, ih _⟩
    have hlength := congrArg List.length hscope
    rcases mem_declarationsFrom.mp hd with rfl | ⟨outer, name, inner, -, rfl⟩
    · simp at hlength
    · simp at hlength

/-- So a key declares nothing twice. -/
theorem declarationsFrom_compatible (key member : String) (scope path : List String) :
    (declarationsFrom key member scope path).Pairwise Compatible :=
  (declarationsFrom_scopes key member scope path).imp fun hne hscope => absurd hscope hne

theorem not_clash_of_compatible {a b : String}
    (h : ∀ d ∈ declarationsOf a, ∀ e ∈ declarationsOf b, Compatible d e) : ¬ Clash a b := by
  have hmember := mem_declarationsOf.mpr (Or.inl (rfl : _ = Declaration.mk _ _ _ a))
  rintro (⟨hpath, hname⟩ | ⟨inner, hpath⟩)
  · have := h _ hmember _ (mem_declarationsOf.mpr (Or.inl rfl)) hpath hname
    simp at this
  · have := h _ hmember _ (mem_declarationsOf.mpr (Or.inr ⟨_, _, inner, hpath, rfl⟩)) rfl rfl
    simp at this

/-- The declarations of two keys go together exactly when the keys do not clash. -/
theorem forall_compatible_iff {a b : String} :
    (∀ d ∈ declarationsOf a, ∀ e ∈ declarationsOf b, Compatible d e) ↔ Apart a b := by
  constructor
  · intro h
    exact ⟨not_clash_of_compatible h,
      not_clash_of_compatible fun e he d hd => (h d hd e he).symm⟩
  · rintro ⟨hab, hba⟩ d hd e he hscope hname
    rcases mem_declarationsOf.mp hd with rfl | ⟨outer, name, inner, hpath, rfl⟩ <;>
      rcases mem_declarationsOf.mp he with rfl | ⟨outer', name', inner', hpath', rfl⟩
    · exact absurd (Or.inl ⟨hscope, hname⟩) hab
    · simp only at hscope hname
      exact absurd (Or.inr ⟨inner', by rw [hpath', ← hscope, ← hname]⟩) hab
    · simp only at hscope hname
      exact absurd (Or.inr ⟨inner, by rw [hpath, hscope, hname]⟩) hba
    · exact ⟨rfl, rfl⟩

/-! ## The check as one fold -/

/-- Declares one name, on top of the ones that were declared. -/
def declare (declared : List Declaration) (d : Declaration) :
    Except Violation (List Declaration) :=
  match findDeclaration? declared d.scope d.name with
  | none => .ok (d :: declared)
  | some other =>
    if d.kind = .scope ∧ other.kind = .scope then .ok declared
    else .error (.accessorCollision d.key other.key)

theorem declareKey_eq_foldlM (key member : String) (scope path : List String)
    (declared : List Declaration) :
    declareKey key member scope path declared =
      (declarationsFrom key member scope path).foldlM declare declared := by
  induction path generalizing scope declared with
  | nil =>
    simp only [declareKey, declarationsFrom, List.foldlM_cons, List.foldlM_nil, declare]
    cases findDeclaration? declared scope member <;> simp [pure, Except.pure, bind, Except.bind]
  | cons name path ih =>
    simp only [declareKey, declarationsFrom, List.foldlM_cons, declare]
    rcases findDeclaration? declared scope name with _ | ⟨_, _, kind, _⟩
    · exact ih _ _
    · cases kind
      · simp [bind, Except.bind]
      · simp [bind, Except.bind, ih]

theorem declareKeys_eq_foldlM (keys : List String) (declared : List Declaration) :
    declareKeys keys declared = (keys.flatMap declarationsOf).foldlM declare declared := by
  induction keys generalizing declared with
  | nil => rfl
  | cons key keys ih =>
    rw [List.flatMap_cons, List.foldlM_append, declareKeys, declareKey_eq_foldlM]
    congr 1
    funext declared
    exact ih declared

/-! ## When the fold gets through -/

section

variable {declared all next : List Declaration} {d : Declaration} {scope : List String}
  {name : String}

theorem findDeclaration?_cons : findDeclaration? (d :: declared) scope name =
    if d.scope = scope ∧ d.name = name then some d else findDeclaration? declared scope name := by
  by_cases hat : d.scope = scope ∧ d.name = name <;> simp_all [findDeclaration?]

theorem findDeclaration?_snoc : findDeclaration? (all ++ [d]) scope name =
    (findDeclaration? all scope name).or
      (if d.scope = scope ∧ d.name = name then some d else none) := by
  have happend : findDeclaration? (all ++ [d]) scope name =
      (findDeclaration? all scope name).or (findDeclaration? [d] scope name) := List.find?_append
  rw [happend, findDeclaration?_cons]
  rfl

theorem findDeclaration?_eq_some (h : findDeclaration? all scope name = some d) :
    d ∈ all ∧ d.scope = scope ∧ d.name = name := by
  have hat := List.find?_some h
  simp only [Bool.and_eq_true, beq_iff_eq] at hat
  exact ⟨List.mem_of_find?_eq_some h, hat⟩

theorem findDeclaration?_eq_none :
    findDeclaration? all scope name = none ↔ ∀ d ∈ all, ¬ (d.scope = scope ∧ d.name = name) := by
  simp [findDeclaration?, List.find?_eq_none]

/-- What is declared answers every question as the list of all declarations so
far does, of which the first one counts. -/
def Answers (declared all : List Declaration) : Prop :=
  ∀ scope name, findDeclaration? declared scope name = findDeclaration? all scope name

theorem answers_declare (h : Answers declared all) (hnext : declare declared d = .ok next) :
    Answers next (all ++ [d]) := by
  intro scope name
  rw [findDeclaration?_snoc, ← h]
  unfold declare at hnext
  split at hnext
  · rename_i hnone
    cases hnext
    rw [findDeclaration?_cons]
    split
    · rename_i hat
      obtain ⟨rfl, rfl⟩ := hat
      rw [hnone, Option.none_or]
    · rw [Option.or_none]
  · rename_i other hsome
    split at hnext
    · cases hnext
      split
      · rename_i hat
        obtain ⟨rfl, rfl⟩ := hat
        rw [hsome, Option.some_or]
      · rw [Option.or_none]
    · simp at hnext

/-- What is wrong with a declaration after earlier ones. The first of them that
has its name is the one it is held against. -/
def declarationFaults (earlier : List Declaration) (d : Declaration) : List Violation :=
  match findDeclaration? earlier d.scope d.name with
  | none => []
  | some other =>
    if d.kind = .scope ∧ other.kind = .scope then [] else [.accessorCollision d.key other.key]

theorem outcome_declare (h : Answers declared all) :
    outcome (declare declared d) = stopAt (declarationFaults all d) := by
  unfold declare declarationFaults
  rw [h]
  cases findDeclaration? all d.scope d.name with
  | none => rfl
  | some other => dsimp only; split <;> rfl

/-- A declaration is sound when it goes together with all that came before. -/
theorem declarationFaults_eq_nil_iff (hall : all.Pairwise Compatible) :
    declarationFaults all d = [] ↔ ∀ e ∈ all, Compatible e d := by
  unfold declarationFaults
  cases hfind : findDeclaration? all d.scope d.name with
  | none =>
    refine ⟨fun _ e he hscope hname => ?_, fun _ => rfl⟩
    exact absurd ⟨hscope, hname⟩ (findDeclaration?_eq_none.mp hfind e he)
  | some other =>
    obtain ⟨hother, hscope, hname⟩ := findDeclaration?_eq_some hfind
    by_cases hkinds : d.kind = .scope ∧ other.kind = .scope
    · simp only [hkinds, and_self, if_true, true_iff]
      intro e he hs hn
      by_cases heq : e = other
      · exact ⟨heq ▸ hkinds.2, hkinds.1⟩
      · have := hall.forall he hother heq (hs.trans hscope.symm) (hn.trans hname.symm)
        exact ⟨this.1, hkinds.1⟩
    · simp only [hkinds, if_false, List.cons_ne_nil, false_iff]
      exact fun hcomp => hkinds (hcomp other hother hscope hname).symm

end

/-! ## The check -/

theorem outcome_foldlM_declare (ds : List Declaration) {declared all : List Declaration}
    (h : Answers declared all) :
    outcome (ds.foldlM declare declared) = stopAt (eachAfter declarationFaults all ds) := by
  induction ds generalizing declared all with
  | nil => rfl
  | cons d ds ih =>
    rw [List.foldlM_cons, eachAfter, stopAt_append, ← outcome_declare h]
    exact outcome_bind fun next hnext => ih (answers_declare h hnext)

/-- Everything that is wrong with the names that a list of keys declares. -/
def accessorFaults (keys : List String) : List Violation :=
  eachAfter declarationFaults [] (keys.flatMap declarationsOf)

theorem checkAccessors_eq_stopAt (entries : List Entry) :
    checkAccessors entries = stopAt (accessorFaults (entries.map (·.key))) := by
  rw [accessorFaults, ← outcome_foldlM_declare _ (fun _ _ => rfl), ← declareKeys_eq_foldlM,
    checkAccessors]
  cases declareKeys (entries.map (·.key)) [] <;> rfl

/-- The accessors of a list of keys have names of their own when no two of the
keys clash. -/
theorem accessorFaults_eq_nil_iff (keys : List String) :
    accessorFaults keys = [] ↔ keys.Pairwise Apart := by
  have hfaults := eachAfter_eq_nil_iff (fun _ => True)
    (fun _ d hall => by simpa using declarationFaults_eq_nil_iff (d := d) hall)
    .nil (keys.flatMap declarationsOf)
  rw [accessorFaults, hfaults, List.nil_append, List.pairwise_flatMap]
  simp only [forall_compatible_iff, implies_true, true_and]
  exact and_iff_right fun key _ => declarationsFrom_compatible _ _ _ _

end Validation

end Phrasebook
