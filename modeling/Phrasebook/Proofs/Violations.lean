-- Everything that is wrong with a catalog, as one list in the order of the
-- checks. A catalog is refused with the first violation of its list.
import Phrasebook.Proofs.Declarations
import Phrasebook.Proofs.PlaceholderScan
import Phrasebook.Proofs.Resolution

namespace Phrasebook

namespace Validation

/-! ## The violations of each check -/

def languageFaults (earlier : List String) (language : String) : List Violation :=
  (if Language.isCode language then [] else [.invalidLanguage language]) ++
    if language ∈ earlier then [.duplicateLanguage language] else []

def keyFaults (earlier : List String) (key : String) : List Violation :=
  if key ∈ earlier then [.duplicateKey key] else []

def missingFaults (language : String) (entry : Entry) : List Violation :=
  if (entry.localization? language).isSome then []
  else [.missingLocalization entry.key language]

def unnecessaryFaults (languages : List String) (entry : Entry) (language : String) :
    List Violation :=
  if language ∈ languages then [] else [.unnecessaryLocalization entry.key language]

def argumentFaults (key : String) (earlier : List Argument) (a : Argument) : List Violation :=
  (if isIdentifier a.name then [] else [.invalidArgumentName key a.name]) ++
    (if a.name ∈ earlier.map (·.name) then [.duplicateArgument key a.name] else []) ++
    if a.argumentType?.isSome then [] else [.unsupportedArgumentType key a.name a.type]

def referenceFaults (entry : Entry) (language name : String) : List Violation :=
  if name ∈ entry.arguments.map (·.name) then [] else [.undefinedReference entry.key language name]

/-- A template that is missing has no placeholders; that it is missing was
found before. -/
def templateFaults (entry : Entry) (language : String) : List Violation :=
  (entry.localization? language).elim [] fun source =>
    ((Template.placeholders source).map (·.name)).flatMap (referenceFaults entry language)

def entryFaults (languages : List String) (entry : Entry) : List Violation :=
  (if isIdentifierPath entry.key then [] else [.invalidKey entry.key]) ++
    (eachAfter (argumentFaults entry.key) [] entry.arguments ++
      languages.flatMap (templateFaults entry))

end Validation

open Validation

/-- All violations, in the order in which they are looked for. -/
def Catalog.violations (c : Catalog) : List Violation :=
  (if c.languages.isEmpty then [.noLanguages] else []) ++
    (eachAfter languageFaults [] c.languages ++
    (eachAfter keyFaults [] (c.entries.map (·.key)) ++
    (c.languages.flatMap (fun language => c.entries.flatMap (missingFaults language)) ++
    (c.entries.flatMap (fun entry =>
      entry.localizations.languages.flatMap (unnecessaryFaults c.languages entry)) ++
    (c.entries.flatMap (entryFaults c.languages) ++
    accessorFaults (c.entries.map (·.key)))))))

namespace Validation

/-! ## Languages, keys and completeness -/

theorem checkLanguagesAfter_eq_stopAt {seen earlier : List String} (h : Remembers seen earlier)
    (languages : List String) :
    checkLanguagesAfter seen languages = stopAt (eachAfter languageFaults earlier languages) := by
  induction languages generalizing seen earlier with
  | nil => rfl
  | cons language rest ih =>
    rw [eachAfter, stopAt_append, ← ih (h.cons language), checkLanguagesAfter, languageFaults]
    by_cases hcode : Language.isCode language
    · by_cases hold : language ∈ earlier <;> simp [hcode, hold, h language] <;> rfl
    · simp [hcode]
      rfl

theorem checkLanguages_eq_stopAt (languages : List String) :
    checkLanguages languages = stopAt ((if languages.isEmpty then [.noLanguages] else []) ++
      eachAfter languageFaults [] languages) := by
  unfold checkLanguages
  rw [checkLanguagesAfter_eq_stopAt (fun _ => Iff.rfl)]
  cases languages <;> rfl

theorem checkKeysAfter_eq_stopAt {seen earlier : List String} (h : Remembers seen earlier)
    (keys : List String) :
    checkKeysAfter seen keys = stopAt (eachAfter keyFaults earlier keys) := by
  induction keys generalizing seen earlier with
  | nil => rfl
  | cons key rest ih =>
    rw [eachAfter, stopAt_append, ← ih (h.cons key), checkKeysAfter, keyFaults]
    by_cases hold : key ∈ earlier <;> simp [hold, h key] <;> rfl

theorem checkMissing_eq_stopAt (c : Catalog) : checkMissing c =
    stopAt (c.languages.flatMap fun language => c.entries.flatMap (missingFaults language)) := by
  simp only [checkMissing, stopAt_flatMap, missingFaults, stopAt_ite]

theorem checkUnnecessary_eq_stopAt (c : Catalog) : checkUnnecessary c =
    stopAt (c.entries.flatMap fun entry =>
      entry.localizations.languages.flatMap (unnecessaryFaults c.languages entry)) := by
  simp only [checkUnnecessary, stopAt_flatMap, unnecessaryFaults, stopAt_ite, List.contains_iff_mem]

/-! ## Arguments -/

theorem outcome_typeArguments (key : String) {seen : List String} {earlier : List Argument}
    (h : Remembers seen (earlier.map (·.name))) (arguments : List Argument) :
    outcome (typeArguments key seen arguments) =
      stopAt (eachAfter (argumentFaults key) earlier arguments) := by
  induction arguments generalizing seen earlier with
  | nil => rfl
  | cons a rest ih =>
    have hnext : Remembers (a.name :: seen) ((earlier ++ [a]).map (·.name)) := by
      simpa using h.cons a.name
    rw [eachAfter, stopAt_append, ← ih hnext, typeArguments, argumentFaults]
    by_cases hname : isIdentifier a.name
    · by_cases hold : a.name ∈ earlier.map (·.name)
      · simp [hname, hold, h a.name]
        rfl
      · simp only [hname, hold, h a.name, List.contains_iff_mem, Bool.not_true, Bool.false_eq_true,
          if_false, if_true, List.nil_append]
        cases a.argumentType? with
        | none => rfl
        | some type => cases typeArguments key (a.name :: seen) rest <;> rfl
    · simp [hname]
      rfl

/-! ## Templates -/

theorem bind?_isSome_iff {name : String} {place : Nat} {arguments : List TypedArgument} :
    (bind? name place arguments).isSome ↔ name ∈ arguments.map (·.name) := by
  induction arguments generalizing place with
  | nil => simp [bind?]
  | cons a rest ih =>
    rw [bind?]
    split
    · rename_i hname
      simp [hname]
    · rename_i hname
      simp [ih, Ne.symm hname]

variable {entry : Entry} {arguments : List TypedArgument}

theorem outcome_resolvePieces (hnames : arguments.map (·.name) = entry.arguments.map (·.name))
    (language : String) (ps : List Piece) :
    (outcome (resolvePieces arguments ps)).mapError (.undefinedReference entry.key language ·) =
      stopAt ((ps.filterMap Piece.name?).flatMap (referenceFaults entry language)) := by
  induction ps with
  | nil => rfl
  | cons p ps ih =>
    cases p with
    | literal c =>
      rw [List.filterMap_cons_none rfl, ← ih, resolvePieces]
      cases resolvePieces arguments ps <;> rfl
    | reference name =>
      have hfirst : (Piece.reference name :: ps).filterMap Piece.name? =
          String.ofList name :: ps.filterMap Piece.name? := rfl
      have hbound : (bind? (String.ofList name) 0 arguments).isSome ↔
          String.ofList name ∈ arguments.map (·.name) := bind?_isSome_iff
      rw [hfirst, List.flatMap_cons, stopAt_append, ← ih, resolvePieces, referenceFaults,
        stopAt_ite, ← hnames]
      simp only [← hbound]
      cases bind? (String.ofList name) 0 arguments with
      | none => rfl
      | some bound => cases resolvePieces arguments ps <;> rfl

theorem outcome_resolveTemplate (hnames : arguments.map (·.name) = entry.arguments.map (·.name))
    {language : String} (hlocal : (entry.localization? language).isSome) :
    outcome (resolveTemplate entry arguments language) = stopAt (templateFaults entry language) := by
  obtain ⟨source, hsource⟩ := Option.isSome_iff_exists.mp hlocal
  unfold templateFaults resolveTemplate Template.placeholders
  rw [hsource, Option.elim, Template.locate_names, ← outcome_resolvePieces hnames]
  dsimp only
  cases resolvePieces arguments (Template.pieces source.toList) <;> rfl

/-! ## Entries -/

theorem outcome_resolveEntry {languages : List String}
    (hlocal : ∀ language ∈ languages, (entry.localization? language).isSome) :
    outcome (resolveEntry languages entry) = stopAt (entryFaults languages entry) := by
  unfold entryFaults resolveEntry
  rw [stopAt_append, stopAt_append, stopAt_ite]
  by_cases hkey : isIdentifierPath entry.key
  · simp only [hkey, Bool.not_true, Bool.false_eq_true, if_false, if_true]
    have hnone : Remembers [] (([] : List Argument).map (·.name)) := fun _ => Iff.rfl
    rw [← outcome_typeArguments entry.key hnone]
    apply outcome_bind
    intro arguments harguments
    have hnames := TypedArgument.names_eq (comesFrom_of_typeArguments harguments)
    have htemplates : ∀ language ∈ languages, outcome (resolveTemplate entry arguments language) =
        stopAt (templateFaults entry language) :=
      fun language hl => outcome_resolveTemplate hnames (hlocal language hl)
    rw [stopAt_flatMap, ← forM_congr htemplates, ← outcome_mapM]
    cases languages.mapM (resolveTemplate entry arguments) <;> rfl
  · simp [hkey]
    rfl

/-! ## The whole catalog -/

theorem missing_eq_nil_iff {c : Catalog} :
    c.languages.flatMap (fun language => c.entries.flatMap (missingFaults language)) = [] ↔
      ∀ language ∈ c.languages, ∀ entry ∈ c.entries, (entry.localization? language).isSome := by
  simp [missingFaults, List.flatMap_eq_nil_iff, Option.ne_none_iff_isSome]

end Validation

/-- The checks, run one after the other, stop at the first violation. -/
theorem Catalog.stopAt_violations (c : Catalog) : stopAt c.violations =
    checkLanguages c.languages >>= fun _ =>
    checkKeys c.entries >>= fun _ =>
    checkMissing c >>= fun _ =>
    checkUnnecessary c >>= fun _ =>
    stopAt (c.entries.flatMap (entryFaults c.languages)) >>= fun _ =>
    stopAt (accessorFaults (c.entries.map (·.key))) := by
  unfold violations checkKeys
  rw [← List.append_assoc, checkLanguages_eq_stopAt, checkKeysAfter_eq_stopAt (fun _ => Iff.rfl),
    checkMissing_eq_stopAt, checkUnnecessary_eq_stopAt]
  simp only [stopAt_append]

/-- A catalog is resolved when nothing is wrong with it, and refused with the
first of its violations otherwise. -/
theorem Catalog.outcome_resolve (c : Catalog) : outcome c.resolve = stopAt c.violations := by
  unfold resolve
  rw [stopAt_violations]
  refine outcome_check_bind fun _ => ?_
  refine outcome_check_bind fun _ => ?_
  refine outcome_check_bind fun hmissing => ?_
  refine outcome_check_bind fun _ => ?_
  rw [checkMissing_eq_stopAt, stopAt_eq_ok_iff, missing_eq_nil_iff] at hmissing
  have hentries : outcome (c.entries.mapM (resolveEntry c.languages)) =
      stopAt (c.entries.flatMap (entryFaults c.languages)) := by
    rw [outcome_mapM, stopAt_flatMap]
    exact forM_congr fun entry he => outcome_resolveEntry fun l hl => hmissing l hl entry he
  rw [← hentries]
  apply outcome_bind
  intro entries _
  rw [checkAccessors_eq_stopAt]
  cases stopAt (accessorFaults (c.entries.map (·.key))) <;> rfl

end Phrasebook
