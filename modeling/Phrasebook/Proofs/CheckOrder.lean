-- The order of the checks. All checks of a catalog are one flat sequence, and
-- a catalog that is refused is refused with the first check of it that fails.
import Phrasebook.Proofs.Acceptance

namespace Phrasebook

namespace Validation

/-! ## Checks -/

/-- A check: what has to hold, and what is reported where it does not. -/
structure Check where
  holds : Prop
  [decidable : Decidable holds]
  violation : Violation

namespace Check

instance (k : Check) : Decidable k.holds := k.decidable

/-- The report of the first check of a sequence that fails. -/
def FirstFailing (checks : List Check) (v : Violation) : Prop :=
  ∃ before check after, checks = before ++ check :: after ∧ (∀ k ∈ before, k.holds) ∧
    ¬ check.holds ∧ check.violation = v

def faults (k : Check) : List Violation := if k.holds then [] else [k.violation]

@[simp] theorem faults_mk (p : Prop) [Decidable p] (v : Violation) :
    (Check.mk p v).faults = if p then [] else [v] := rfl

theorem stopAt_eq_error_iff {checks : List Check} {v : Violation} :
    stopAt (checks.flatMap faults) = .error v ↔ FirstFailing checks v := by
  induction checks with
  | nil => simp [stopAt, FirstFailing]
  | cons k checks ih =>
    rw [List.flatMap_cons, faults]
    by_cases hk : k.holds
    · rw [if_pos hk, List.nil_append, ih]
      constructor
      · rintro ⟨before, check, after, rfl, hbefore, hfails⟩
        exact ⟨k :: before, check, after, rfl, List.forall_mem_cons.mpr ⟨hk, hbefore⟩, hfails⟩
      · rintro ⟨before, check, after, hlist, hbefore, hfails⟩
        rcases List.cons_eq_append_iff.mp hlist with ⟨-, hcons⟩ | ⟨before, rfl, rfl⟩
        · cases hcons
          exact absurd hk hfails.1
        · exact ⟨before, check, after, rfl, (List.forall_mem_cons.mp hbefore).2, hfails⟩
    · rw [if_neg hk, List.singleton_append, stopAt, Except.error.injEq]
      constructor
      · rintro rfl
        exact ⟨[], k, checks, rfl, by simp, hk, rfl⟩
      · rintro ⟨before, check, after, hlist, hbefore, -, hv⟩
        rcases List.cons_eq_append_iff.mp hlist with ⟨-, hcons⟩ | ⟨before, rfl, rfl⟩
        · cases hcons
          exact hv
        · exact absurd (hbefore k List.mem_cons_self) hk

end Check

/-! ## The checks of the parts of a catalog -/

def languageChecks (earlier : List String) (language : String) : List Check :=
  [⟨Language.isCode language, .invalidLanguage language⟩,
    ⟨language ∉ earlier, .duplicateLanguage language⟩]

def keyChecks (earlier : List String) (key : String) : List Check :=
  [⟨key ∉ earlier, .duplicateKey key⟩]

def missingCheck (language : String) (entry : Entry) : Check :=
  ⟨language ∈ entry.localizations.languages, .missingLocalization entry.key language⟩

def unnecessaryCheck (languages : List String) (entry : Entry) (language : String) : Check :=
  ⟨language ∈ languages, .unnecessaryLocalization entry.key language⟩

def argumentChecks (key : String) (earlier : List Argument) (a : Argument) : List Check :=
  [⟨isIdentifier a.name, .invalidArgumentName key a.name⟩,
    ⟨a.name ∉ earlier.map (·.name), .duplicateArgument key a.name⟩,
    ⟨a.type ∈ ["String", "Int", "Double"], .unsupportedArgumentType key a.name a.type⟩]

def referenceCheck (entry : Entry) (language : String) (p : Placeholder) : Check :=
  ⟨p.name ∈ entry.arguments.map (·.name), .undefinedReference entry.key language p.name⟩

/-- A text that is missing has no placeholders to check. -/
def templateChecks (entry : Entry) (language : String) : List Check :=
  (entry.localization? language).elim [] fun source =>
    (Template.placeholders source).map (referenceCheck entry language)

def entryChecks (languages : List String) (entry : Entry) : List Check :=
  ⟨isIdentifierPath entry.key, .invalidKey entry.key⟩ ::
    (eachAfter (argumentChecks entry.key) [] entry.arguments ++
      languages.flatMap (templateChecks entry))

/-! ## The checks of the accessors -/

instance (d e : Declaration) : Decidable (Compatible d e) :=
  inferInstanceAs (Decidable (d.scope = e.scope → d.name = e.name → _ ∧ _))

/-- The earliest of some keys that declares a name in a scope. -/
def firstDeclarer? (keys : List String) (scope : List String) (name : String) : Option String :=
  keys.find? fun key => (declarationsOf key).any fun d => d.scope = scope ∧ d.name = name

/-- The declarations of a key from the outermost one. Each that an earlier key
has too must go together with all earlier ones, and the earliest key that
declares the name is reported with it. -/
def accessorChecks (earlier : List String) (key : String) : List Check :=
  (declarationsOf key).flatMap fun d =>
    (firstDeclarer? earlier d.scope d.name).toList.map fun other =>
      ⟨∀ e ∈ earlier.flatMap declarationsOf, Compatible e d, .accessorCollision key other⟩

end Validation

open Validation

/-- All checks of a catalog, in their order. -/
def Catalog.checks (c : Catalog) : List Check :=
  ⟨c.languages ≠ [], .noLanguages⟩ ::
    (eachAfter languageChecks [] c.languages ++
    (eachAfter keyChecks [] (c.entries.map (·.key)) ++
    (c.languages.flatMap (fun language => c.entries.map (missingCheck language)) ++
    (c.entries.flatMap (fun entry =>
      entry.localizations.languages.map (unnecessaryCheck c.languages entry)) ++
    (c.entries.flatMap (entryChecks c.languages) ++
    eachAfter accessorChecks [] (c.entries.map (·.key)))))))

namespace Validation

/-! ## Failing checks as violations -/

theorem faults_languageChecks (earlier : List String) (language : String) :
    (languageChecks earlier language).flatMap Check.faults = languageFaults earlier language := by
  simp [languageChecks, languageFaults]

theorem faults_keyChecks (earlier : List String) (key : String) :
    (keyChecks earlier key).flatMap Check.faults = keyFaults earlier key := by
  simp [keyChecks, keyFaults]

theorem faults_noLanguages (languages : List String) :
    (Check.mk (languages ≠ []) .noLanguages).faults =
      if languages.isEmpty then [.noLanguages] else [] := by
  cases languages <;> rfl

theorem faults_unnecessaryCheck (languages : List String) (entry : Entry) (language : String) :
    (unnecessaryCheck languages entry language).faults =
      unnecessaryFaults languages entry language := rfl

theorem faults_missingCheck (language : String) (entry : Entry) :
    (missingCheck language entry).faults = missingFaults language entry := by
  have hiff : (entry.localization? language).isSome ↔ language ∈ entry.localizations.languages :=
    Localizations.get?_isSome_iff
  simp only [missingCheck, missingFaults, Check.faults_mk, hiff]

theorem faults_argumentChecks (key : String) (earlier : List Argument) (a : Argument) :
    (argumentChecks key earlier a).flatMap Check.faults = argumentFaults key earlier a := by
  unfold argumentChecks argumentFaults
  simp only [List.flatMap_cons, List.flatMap_nil, Check.faults_mk, argumentType?_isSome_iff]
  rw [ite_not, List.append_nil, List.append_assoc]

theorem faults_templateChecks (entry : Entry) (language : String) :
    (templateChecks entry language).flatMap Check.faults = templateFaults entry language := by
  unfold templateChecks templateFaults
  cases entry.localization? language with
  | none => rfl
  | some source =>
    simp only [Option.elim, List.flatMap_map]
    rfl

theorem faults_entryChecks (languages : List String) (entry : Entry) :
    (entryChecks languages entry).flatMap Check.faults = entryFaults languages entry := by
  unfold entryChecks entryFaults
  rw [List.flatMap_cons, List.flatMap_append, flatMap_eachAfter, List.flatMap_assoc]
  simp only [faults_argumentChecks, faults_templateChecks]
  rfl

/-! ## Failing checks of accessors -/

/-- What is wrong with the declarations of a key after some earlier keys. -/
def nameFaults (earlier : List String) (key : String) : List Violation :=
  (declarationsOf key).flatMap (declarationFaults (earlier.flatMap declarationsOf))

section

variable {all ds : List Declaration} {d e : Declaration}

/-- A declaration is not held against one in another scope. -/
theorem declarationFaults_snoc (h : e.scope ≠ d.scope) :
    declarationFaults (all ++ [e]) d = declarationFaults all d := by
  have hother : ¬ (e.scope = d.scope ∧ e.name = d.name) := fun hat => h hat.1
  unfold declarationFaults
  rw [findDeclaration?_snoc, if_neg hother, Option.or_none]

theorem eachAfter_declarationFaults (h : ds.Pairwise fun e d => e.scope ≠ d.scope) :
    eachAfter declarationFaults all ds = ds.flatMap (declarationFaults all) := by
  induction ds generalizing all with
  | nil => rfl
  | cons d ds ih =>
    obtain ⟨hd, hds⟩ := List.pairwise_cons.mp h
    rw [eachAfter, ih hds, List.flatMap_cons]
    congr 1
    exact List.flatMap_congr fun e he => declarationFaults_snoc (hd e he)

end

theorem accessorFaults_eq (keys : List String) :
    accessorFaults keys = eachAfter nameFaults [] keys := by
  have hkey : (fun earlier key => eachAfter declarationFaults (earlier.flatMap declarationsOf)
      (declarationsOf key)) = nameFaults := by
    funext earlier key
    exact eachAfter_declarationFaults (declarationsFrom_scopes key _ _ _)
  rw [accessorFaults, ← hkey, ← eachAfter_flatMap, List.flatMap_nil]

theorem key_of_mem_declarationsOf {key : String} {d : Declaration} (h : d ∈ declarationsOf key) :
    d.key = key := by
  rcases mem_declarationsOf.mp h with rfl | ⟨_, _, _, _, rfl⟩ <;> rfl

/-- The first of all earlier declarations of a name is that of the earliest key. -/
theorem findDeclaration?_key (keys scope : List String) (name : String) :
    (findDeclaration? (keys.flatMap declarationsOf) scope name).map (·.key) =
      firstDeclarer? keys scope name := by
  induction keys with
  | nil => rfl
  | cons key keys ih =>
    have happend : findDeclaration? ((key :: keys).flatMap declarationsOf) scope name =
        (findDeclaration? (declarationsOf key) scope name).or
          (findDeclaration? (keys.flatMap declarationsOf) scope name) := List.find?_append
    unfold firstDeclarer? at ih ⊢
    rw [happend, List.find?_cons]
    cases hfind : findDeclaration? (declarationsOf key) scope name with
    | none =>
      have hnone : (declarationsOf key).any (fun d => d.scope = scope ∧ d.name = name) = false := by
        simpa using findDeclaration?_eq_none.mp hfind
      rw [hnone, Option.none_or]
      exact ih
    | some d =>
      obtain ⟨hd, hscope, hname⟩ := findDeclaration?_eq_some hfind
      have hany : (declarationsOf key).any (fun d => d.scope = scope ∧ d.name = name) = true :=
        List.any_eq_true.mpr ⟨d, hd, by simp [hscope, hname]⟩
      rw [hany, Option.some_or, Option.map_some, key_of_mem_declarationsOf hd]

variable {earlier : List String}

/-- After keys that go together, the failing checks of a key are its faults. -/
theorem faults_accessorChecks (h : (earlier.flatMap declarationsOf).Pairwise Compatible)
    (key : String) : (accessorChecks earlier key).flatMap Check.faults = nameFaults earlier key := by
  rw [accessorChecks, nameFaults, List.flatMap_assoc]
  apply List.flatMap_congr
  intro d hd
  have hnil := declarationFaults_eq_nil_iff (d := d) h
  unfold declarationFaults at hnil ⊢
  rw [← findDeclaration?_key]
  cases hfind : findDeclaration? (earlier.flatMap declarationsOf) d.scope d.name with
  | none => rfl
  | some other =>
    simp only [hfind, ite_eq_left_iff, List.cons_ne_nil, imp_false, not_not] at hnil
    simp only [Option.map_some, Option.toList_some, List.map_cons, List.map_nil,
      List.flatMap_singleton, Check.faults_mk, key_of_mem_declarationsOf hd]
    exact if_congr hnil.symm rfl rfl

theorem compatible_snoc (h : (earlier.flatMap declarationsOf).Pairwise Compatible) {key : String}
    (hkey : nameFaults earlier key = []) :
    ((earlier ++ [key]).flatMap declarationsOf).Pairwise Compatible := by
  rw [nameFaults, List.flatMap_eq_nil_iff] at hkey
  rw [List.flatMap_append, List.flatMap_singleton, List.pairwise_append]
  refine ⟨h, declarationsFrom_compatible _ _ _ _, fun e he d hd => ?_⟩
  exact (declarationFaults_eq_nil_iff h).mp (hkey d hd) e he

/-- Up to the first key with a fault all keys go together, and after that
nothing is looked at. -/
theorem stopAt_accessorChecks (earlier : List String)
    (h : (earlier.flatMap declarationsOf).Pairwise Compatible) (keys : List String) :
    stopAt ((eachAfter accessorChecks earlier keys).flatMap Check.faults) =
      stopAt (eachAfter nameFaults earlier keys) := by
  induction keys generalizing earlier with
  | nil => rfl
  | cons key keys ih =>
    rw [eachAfter, eachAfter, List.flatMap_append, faults_accessorChecks h, stopAt_append,
      stopAt_append]
    cases hkey : nameFaults earlier key with
    | nil => exact ih _ (compatible_snoc h hkey)
    | cons v vs => rfl

end Validation

/-! ## The whole catalog -/

/-- The sequence of all checks stops where the checks of the parts do. -/
theorem Catalog.stopAt_checks (c : Catalog) :
    stopAt (c.checks.flatMap Check.faults) = stopAt c.violations := by
  have haccessors := stopAt_accessorChecks [] .nil (c.entries.map (·.key))
  rw [← accessorFaults_eq] at haccessors
  unfold checks violations
  simp only [List.flatMap_cons, List.flatMap_append, flatMap_eachAfter, List.flatMap_assoc,
    List.flatMap_map, faults_noLanguages, faults_languageChecks, faults_keyChecks,
    faults_missingCheck, faults_unnecessaryCheck, faults_entryChecks, stopAt_append] at haccessors ⊢
  rw [haccessors]

/-- Checking stops at the first check of the sequence that fails. By the time the
templates are resolved, none of their texts is missing. -/
theorem Catalog.resolve_stops_at_first_failing (c : Catalog) :
    (∀ v, c.resolve = .error v ↔ Check.FirstFailing c.checks v) ∧
    (checkMissing c = .ok () → ∀ entry ∈ c.entries, ∀ language ∈ c.languages,
      ∀ arguments key other,
        resolveTemplate entry arguments language ≠ .error (.missingLocalization key other)) := by
  constructor
  · intro v
    rw [← Check.stopAt_eq_error_iff, stopAt_checks, ← outcome_resolve]
    cases c.resolve <;> simp
  · intro hmissing entry hentry language hlanguage arguments key other
    rw [checkMissing_eq_stopAt, stopAt_eq_ok_iff, missing_eq_nil_iff] at hmissing
    obtain ⟨source, hsource⟩ :=
      Option.isSome_iff_exists.mp (hmissing language hlanguage entry hentry)
    unfold resolveTemplate
    rw [hsource]
    dsimp only
    split <;> simp

/-- The namespace `Cart` of the last key has the name of the first accessor, in
the namespace `Shop` that all three share. -/
def Catalog.shop : Catalog where
  languages := ["en"]
  entries := [⟨"shop.Cart", .ofList [("en", "Cart")], []⟩,
    ⟨"Shop.sale", .ofList [("en", "Sale")], []⟩,
    ⟨"shop.cart.item", .ofList [("en", "Item")], []⟩]

theorem Catalog.shop_stops_at_first_failing :
    Check.FirstFailing Catalog.shop.checks (.accessorCollision "shop.cart.item" "shop.Cart") ∧
      ∀ entry ∈ Catalog.shop.entries, ∀ arguments key other,
        resolveTemplate entry arguments "en" ≠ .error (.missingLocalization key other) := by
  have hresolve : Validation.outcome Catalog.shop.resolve =
      .error (.accessorCollision "shop.cart.item" "shop.Cart") := by decide +kernel
  have hmissing : checkMissing Catalog.shop = .ok () := by decide +kernel
  obtain ⟨hfirst, hpresent⟩ := resolve_stops_at_first_failing Catalog.shop
  refine ⟨(hfirst _).mp ?_, fun entry hentry => hpresent hmissing entry hentry "en" (by decide)⟩
  cases hrun : Catalog.shop.resolve with
  | ok r => simp [hrun] at hresolve
  | error v => simpa [hrun] using hresolve

end Phrasebook
