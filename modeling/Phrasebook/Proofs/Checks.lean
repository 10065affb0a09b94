-- Runs of checks. A run that stops at the first violation is told by the list
-- of all violations, so runs are compared as lists, and a run passes when its
-- list is empty.
import Mathlib.Data.List.Forall2
import Phrasebook.Violation

namespace Phrasebook.Validation

variable {α β ε : Type}

/-! ## Outcomes -/

/-- Whether something failed, and how, without what it gave. -/
def outcome (run : Except ε α) : Except ε Unit := run.map fun _ => ()

@[simp] theorem outcome_ok (a : α) : outcome (.ok a : Except ε α) = .ok () := rfl

@[simp] theorem outcome_error (e : ε) : outcome (.error e : Except ε α) = .error e := rfl

@[simp] theorem outcome_unit (run : Except ε Unit) : outcome run = run := by
  cases run <;> rfl

theorem outcome_eq_ok_iff {run : Except ε α} : outcome run = .ok () ↔ ∃ a, run = .ok a := by
  cases run <;> simp

theorem bind_eq_ok_iff {run : Except ε α} {next : α → Except ε β} {b : β} :
    run >>= next = .ok b ↔ ∃ a, run = .ok a ∧ next a = .ok b := by
  cases run with
  | error e => simp [bind, Except.bind]
  | ok a => simp [bind, Except.bind]

theorem map_eq_ok_iff {run : Except ε α} {f : α → β} {b : β} :
    run.map f = .ok b ↔ ∃ a, run = .ok a ∧ f a = b := by
  cases run <;> simp [Except.map]

theorem mapError_eq_ok_iff {δ : Type} {run : Except ε α} {meaning : ε → δ} {a : α} :
    run.mapError meaning = .ok a ↔ run = .ok a := by
  cases run <;> simp [Except.mapError]

theorem mapError_eq_error_iff {δ : Type} {run : Except ε α} {meaning : ε → δ} {d : δ} :
    run.mapError meaning = .error d ↔ ∃ e, run = .error e ∧ meaning e = d := by
  cases run <;> simp [Except.mapError]

/-- What comes after a run matters only where the run passed. -/
theorem outcome_bind {run : Except ε α} {next : α → Except ε β} {rest : Except ε Unit}
    (h : ∀ a, run = .ok a → outcome (next a) = rest) :
    outcome (run >>= next) = outcome run >>= fun _ => rest := by
  cases run with
  | error e => rfl
  | ok a => exact h a rfl

theorem outcome_check_bind {check : Except ε Unit} {next : Except ε β} {rest : Except ε Unit}
    (h : check = .ok () → outcome next = rest) :
    outcome (check >>= fun _ => next) = check >>= fun _ => rest := by
  rw [outcome_bind fun _ hcheck => h hcheck, outcome_unit]

theorem outcome_mapM (f : α → Except ε β) (l : List α) :
    outcome (l.mapM f) = l.forM fun a => outcome (f a) := by
  induction l with
  | nil => rfl
  | cons a l ih =>
    rw [List.mapM_cons]
    simp only [List.forM_eq_forM, List.forM_cons] at ih ⊢
    rw [← ih]
    cases f a with
    | error e => rfl
    | ok b => cases l.mapM f <;> rfl

theorem mapM_eq_ok_iff {f : α → Except ε β} {l : List α} {bs : List β} :
    l.mapM f = .ok bs ↔ List.Forall₂ (fun a b => f a = .ok b) l bs := by
  induction l generalizing bs with
  | nil => simp [pure, Except.pure, eq_comm]
  | cons a l ih =>
    simp only [List.mapM_cons, bind_eq_ok_iff, ih, List.forall₂_cons_left_iff]
    constructor
    · rintro ⟨b, hb, rest, hrest, hpure⟩
      cases hpure
      exact ⟨b, rest, hb, hrest, rfl⟩
    · rintro ⟨b, rest, hb, hrest, rfl⟩
      exact ⟨b, hb, rest, hrest, rfl⟩

theorem map_eq_map_of_forall₂ {γ : Type} {R : α → β → Prop} {f : α → γ} {g : β → γ}
    (hR : ∀ a b, R a b → g b = f a) {l : List α} {bs : List β} (h : List.Forall₂ R l bs) :
    bs.map g = l.map f := by
  induction h with
  | nil => rfl
  | cons hab _ ih => rw [List.map_cons, List.map_cons, hR _ _ hab, ih]

theorem getElem?_of_forall₂ {R : α → β → Prop} {l : List α} {bs : List β}
    (h : List.Forall₂ R l bs) {i : Nat} {a : α} (ha : l[i]? = some a) :
    ∃ b, bs[i]? = some b ∧ R a b := by
  induction h generalizing i with
  | nil => simp at ha
  | @cons first b l bs hab _ ih =>
    cases i with
    | zero =>
      cases ha
      exact ⟨b, rfl, hab⟩
    | succ i => exact ih ha

theorem exists_of_mem_forall₂ {R : α → β → Prop} {l : List α} {bs : List β}
    (h : List.Forall₂ R l bs) {b : β} (hb : b ∈ bs) : ∃ a ∈ l, R a b := by
  induction h with
  | nil => simp at hb
  | @cons a first l bs hab _ ih =>
    rcases List.mem_cons.mp hb with rfl | hrest
    · exact ⟨a, List.mem_cons_self, hab⟩
    · obtain ⟨a', ha', hR⟩ := ih hrest
      exact ⟨a', List.mem_cons_of_mem a ha', hR⟩

theorem forM_congr {f g : α → Except ε Unit} {l : List α} (h : ∀ a ∈ l, f a = g a) :
    l.forM f = l.forM g := by
  induction l with
  | nil => rfl
  | cons a l ih =>
    obtain ⟨ha, hl⟩ := List.forall_mem_cons.mp h
    simp only [List.forM_eq_forM, List.forM_cons] at ih ⊢
    rw [ha, ih hl]

/-! ## Lists of violations -/

/-- The run that stops at the first of some violations. -/
def stopAt : List Violation → Except Violation Unit
  | [] => .ok ()
  | v :: _ => .error v

theorem stopAt_eq_ok_iff {vs : List Violation} : stopAt vs = .ok () ↔ vs = [] := by
  cases vs <;> simp [stopAt]

/-- One check, which finds at most one violation. -/
theorem stopAt_ite (p : Prop) [Decidable p] (v : Violation) :
    stopAt (if p then [] else [v]) = if p then .ok () else .error v := by
  split <;> rfl

theorem stopAt_append (vs ws : List Violation) :
    stopAt (vs ++ ws) = stopAt vs >>= fun _ => stopAt ws := by
  cases vs <;> rfl

/-- The runs for the elements of a list, one after the other. -/
theorem stopAt_flatMap (f : α → List Violation) (l : List α) :
    stopAt (l.flatMap f) = l.forM fun a => stopAt (f a) := by
  induction l with
  | nil => rfl
  | cons a l ih =>
    rw [List.flatMap_cons, stopAt_append, ih]
    rfl

/-- A run remembers what it saw in any order, and the list of it has an order. -/
def Remembers (seen earlier : List String) : Prop := ∀ name, name ∈ seen ↔ name ∈ earlier

theorem Remembers.cons {seen earlier : List String} (h : Remembers seen earlier) (name : String) :
    Remembers (name :: seen) (earlier ++ [name]) := by
  intro other
  rw [List.mem_cons, List.mem_append, List.mem_singleton, h, or_comm]

/-- What a check finds for each element of a list, seen with the elements
before it. -/
def eachAfter (f : List α → α → List β) (earlier : List α) : List α → List β
  | [] => []
  | a :: rest => f earlier a ++ eachAfter f (earlier ++ [a]) rest

theorem eachAfter_append (f : List α → α → List β) (earlier l l' : List α) :
    eachAfter f earlier (l ++ l') = eachAfter f earlier l ++ eachAfter f (earlier ++ l) l' := by
  induction l generalizing earlier with
  | nil => rw [List.nil_append, eachAfter, List.nil_append, List.append_nil]
  | cons a l ih =>
    rw [List.cons_append, eachAfter, eachAfter, ih, List.append_assoc, List.append_assoc,
      List.singleton_append]

/-- Elements that come from groups are seen group by group. -/
theorem eachAfter_flatMap {γ : Type} (f : List β → β → List γ) (g : α → List β)
    (earlier l : List α) : eachAfter f (earlier.flatMap g) (l.flatMap g) =
      eachAfter (fun earlier a => eachAfter f (earlier.flatMap g) (g a)) earlier l := by
  induction l generalizing earlier with
  | nil => rfl
  | cons a l ih =>
    rw [List.flatMap_cons, eachAfter_append, eachAfter, ← ih, List.flatMap_append,
      List.flatMap_singleton]

theorem flatMap_eachAfter {γ : Type} (f : List α → α → List β) (g : β → List γ)
    (earlier l : List α) : (eachAfter f earlier l).flatMap g =
      eachAfter (fun earlier a => (f earlier a).flatMap g) earlier l := by
  induction l generalizing earlier with
  | nil => rfl
  | cons a l ih => rw [eachAfter, eachAfter, List.flatMap_append, ih]

/-- A check of each element by itself and against the ones before it finds
nothing when the elements are sound and each two of them go together. -/
theorem eachAfter_eq_nil_iff {f : List α → α → List β} (sound : α → Prop) {R : α → α → Prop}
    (hf : ∀ earlier a, earlier.Pairwise R →
      (f earlier a = [] ↔ sound a ∧ ∀ e ∈ earlier, R e a))
    {earlier : List α} (hearlier : earlier.Pairwise R) (l : List α) :
    eachAfter f earlier l = [] ↔ (∀ a ∈ l, sound a) ∧ (earlier ++ l).Pairwise R := by
  induction l generalizing earlier with
  | nil => simpa [eachAfter] using hearlier
  | cons a l ih =>
    rw [eachAfter, List.append_eq_nil_iff, hf earlier a hearlier, List.append_cons earlier a l]
    constructor
    · rintro ⟨⟨ha, hbefore⟩, hrest⟩
      have hnext : (earlier ++ [a]).Pairwise R :=
        List.pairwise_append.mpr ⟨hearlier, List.pairwise_singleton R a, by simpa using hbefore⟩
      obtain ⟨hl, hpair⟩ := (ih hnext).mp hrest
      exact ⟨List.forall_mem_cons.mpr ⟨ha, hl⟩, hpair⟩
    · rintro ⟨hsound, hpair⟩
      have hnext : (earlier ++ [a]).Pairwise R := hpair.sublist (List.sublist_append_left _ _)
      obtain ⟨ha, hl⟩ := List.forall_mem_cons.mp hsound
      have hbefore : ∀ e ∈ earlier, R e a := by
        simpa using (List.pairwise_append.mp hnext).2.2
      exact ⟨⟨ha, hbefore⟩, (ih hnext).mpr ⟨hl, hpair⟩⟩

end Phrasebook.Validation
