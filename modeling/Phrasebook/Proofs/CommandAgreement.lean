-- What the commands make of a catalog. All of them load and check it first, so they get
-- past it together and with the same entries, or they stop with the same message.
import Phrasebook.Proofs.Comparison

namespace Phrasebook

open CommandM

/-! ## Catalogs that a store holds -/

section

variable {σ : Type} [FileStore (StateM σ)]

namespace CatalogSource

/-- A format is the one that a source names, or that of its extension if it names none. -/
inductive HasFormat (source : CatalogSource) : Format → Prop
  | named {name : String} {format : Format} (hname : source.format = some name)
      (hformat : Settings.format name = .ok format) : source.HasFormat format
  | inferred {format : Format} (hname : source.format = none)
      (hformat : Format.ofPath source.path = .ok format) : source.HasFormat format

/-- The file of a source can be read, in a format that is known. -/
structure Finds (source : CatalogSource) (s : σ) (format : Format) (bytes : ByteArray) : Prop where
  kindAt_eq : kindAt s source.path = some .file
  hasFormat : source.HasFormat format
  readAt_eq : readAt s source.path = .ok bytes

/-- The file of a source holds a catalog that passes every check. -/
inductive Accepts (source : CatalogSource) (s : σ) : ResolvedCatalog → Prop
  | intro {format : Format} {bytes : ByteArray} {catalog : Catalog} {c : ResolvedCatalog}
      (hfinds : source.Finds s format bytes) (hcatalog : Catalog.ofBytes format bytes = .ok catalog)
      (hresolve : catalog.resolve = .ok c) : source.Accepts s c

/-- What is said of a source whose catalog is not accepted. -/
inductive Refuses (source : CatalogSource) (s : σ) : String → Prop
  | missing (h : kindAt s source.path = none) :
      source.Refuses s ("File does not exist: " ++ source.path)
  | notFile {kind : FileKind} (h : kindAt s source.path = some kind) (hkind : kind ≠ .file) :
      source.Refuses s ("Path is not a file: " ++ source.path)
  | blankFormat {name : String} (h : kindAt s source.path = some .file)
      (hname : source.format = some name) (hblank : Text.isBlankText name) :
      source.Refuses s "Format cannot be empty"
  | unsupportedFormat {name : String} (h : kindAt s source.path = some .file)
      (hname : source.format = some name) (hblank : ¬ Text.isBlankText name)
      (hformat : Format.ofName? name = none) :
      source.Refuses s ("Unsupported catalog format: " ++ name ++
        ". Supported formats: yaml, json, toml")
  | unknownExtension {reason : Error} (h : kindAt s source.path = some .file)
      (hname : source.format = none) (hformat : Format.ofPath source.path = .error reason) :
      source.Refuses s ("Failed to read catalog " ++ source.path ++ ": " ++ reason.message)
  | unreadable {format : Format} {reason : FileError} (h : kindAt s source.path = some .file)
      (hformat : source.HasFormat format) (hread : readAt s source.path = .error reason) :
      source.Refuses s ("Failed to read catalog " ++ source.path ++ ": " ++
        ("I/O error: " ++ reason.message))
  | undecoded {format : Format} {bytes : ByteArray} {reason : Error}
      (hfinds : source.Finds s format bytes)
      (hcatalog : Catalog.ofBytes format bytes = .error reason) :
      source.Refuses s ("Failed to read catalog " ++ source.path ++ ": " ++ reason.message)
  | invalid {format : Format} {bytes : ByteArray} {catalog : Catalog} {violation : Violation}
      (hfinds : source.Finds s format bytes) (hcatalog : Catalog.ofBytes format bytes = .ok catalog)
      (hresolve : catalog.resolve = .error violation) :
      source.Refuses s ("validation error: " ++ violation.message)

end CatalogSource

end

/-! ## Failures -/

/-- A command stops with a message, and leaves the state as it was. -/
def CommandM.FailsWith {σ α : Type} (command : CommandM (StateM σ) α) (s : σ) (message : String) :
    Prop :=
  ∃ e : CommandError, command.runOn s = (.error e, s) ∧ e.message = message

/-- What stops a command stops what goes on after it. -/
theorem CommandM.FailsWith.bind {σ α β : Type} {command : CommandM (StateM σ) α} {s : σ}
    {message : String} (h : command.FailsWith s message) (next : α → CommandM (StateM σ) β) :
    (command >>= next).FailsWith s message := by
  obtain ⟨e, hrun, hmessage⟩ := h
  refine ⟨e, ?_, hmessage⟩
  rw [runOn_bind, hrun]

/-- What stops a command stops it after another one that leaves the state as it was. -/
theorem CommandM.FailsWith.after {σ α β : Type} {command : CommandM (StateM σ) α}
    {next : α → CommandM (StateM σ) β} {s : σ} {a : α} {message : String}
    (h : command.runOn s = (.ok a, s)) (hnext : (next a).FailsWith s message) :
    (command >>= next).FailsWith s message := by
  obtain ⟨e, hrun, hmessage⟩ := hnext
  refine ⟨e, ?_, hmessage⟩
  rw [runOn_bind, h]
  exact hrun

/-! ## Loading -/

section

variable {σ : Type} [FileStore (StateM σ)] [LawfulStore σ] {source : CatalogSource} {s : σ}

/-! ### The file -/

theorem checkCatalogPath_of_file {path : String} (h : kindAt s path = some .file) :
    runOn (checkCatalogPath path) s = (.ok (), s) := by
  unfold checkCatalogPath
  rw [runOn_bind, runOn_lift, kind?_run, h]
  rfl

theorem checkCatalogPath_of_none {path : String} (h : kindAt s path = none) :
    runOn (checkCatalogPath path) s = (.error (.missingFile path), s) := by
  unfold checkCatalogPath
  rw [runOn_bind, runOn_lift, kind?_run, h]
  rfl

theorem checkCatalogPath_of_other {path : String} {kind : FileKind}
    (h : kindAt s path = some kind) (hkind : kind ≠ .file) :
    runOn (checkCatalogPath path) s = (.error (.notFile path), s) := by
  unfold checkCatalogPath
  rw [runOn_bind, runOn_lift, kind?_run, h]
  cases kind with
  | file => exact absurd rfl hkind
  | directory => rfl
  | special => rfl

/-! ### The format -/

theorem Settings.format_of_blank {name : String} (h : Text.isBlankText name) :
    format name = .error .blankFormat := by
  rw [format, if_pos h]

theorem Settings.format_of_none {name : String} (hblank : ¬ Text.isBlankText name)
    (h : Format.ofName? name = none) : format name = .error (.unsupportedFormat name) := by
  rw [format, if_neg hblank, h]

namespace CatalogSource

theorem HasFormat.exists_given {format : Format} (h : source.HasFormat format) :
    ∃ given, source.format.mapM Settings.format = .ok given ∧
      given.elim (Format.ofPath source.path) .ok = .ok format := by
  cases h with
  | @named name format hname hformat =>
    refine ⟨some format, ?_, rfl⟩
    rw [hname, Option.mapM_some, hformat]
    rfl
  | inferred hname hformat =>
    refine ⟨none, ?_, hformat⟩
    rw [hname]
    rfl

theorem load_of_given {given : Option Format} (h : kindAt s source.path = some .file)
    (hgiven : source.format.mapM Settings.format = .ok given) : runOn source.load s =
      ((actOn (Catalog.readFrom source.path given) s).1.mapError
        (.unreadableCatalog source.path), s) := by
  unfold load
  rw [runOn_bind, checkCatalogPath_of_file h]
  dsimp only
  rw [hgiven]
  exact Prod.ext rfl (readFrom_looks source.path given s)

theorem load_of_format_error {name : String} {e : CommandError}
    (h : kindAt s source.path = some .file) (hname : source.format = some name)
    (hformat : Settings.format name = .error e) : runOn source.load s = (.error e, s) := by
  unfold load
  rw [runOn_bind, checkCatalogPath_of_file h]
  dsimp only
  rw [hname, Option.mapM_some, hformat]
  rfl

theorem Finds.load_eq {format : Format} {bytes : ByteArray} (h : source.Finds s format bytes) :
    runOn source.load s =
      ((Catalog.ofBytes format bytes).mapError (.unreadableCatalog source.path), s) := by
  obtain ⟨given, hgiven, hformat⟩ := h.hasFormat.exists_given
  rw [load_of_given h.kindAt_eq hgiven, readFrom_run, hformat, h.readAt_eq]
  rfl

theorem Finds.load_eq_ok {format : Format} {bytes : ByteArray} {catalog : Catalog}
    (h : source.Finds s format bytes) (hcatalog : Catalog.ofBytes format bytes = .ok catalog) :
    runOn source.load s = (.ok catalog, s) := by
  rw [h.load_eq, hcatalog]
  rfl

/-- A source is refused because it does not load, or because of a violation in the catalog
that it loads. -/
theorem Refuses.load_failsWith_or {message : String} (h : source.Refuses s message) :
    (source.load : CommandM (StateM σ) Catalog).FailsWith s message ∨
      ∃ catalog violation, runOn source.load s = (.ok catalog, s) ∧
        catalog.resolve = .error violation ∧
        "validation error: " ++ violation.message = message := by
  cases h with
  | missing h =>
    left
    apply FailsWith.bind
    exact ⟨_, checkCatalogPath_of_none h, rfl⟩
  | notFile h hkind =>
    left
    apply FailsWith.bind
    exact ⟨_, checkCatalogPath_of_other h hkind, rfl⟩
  | blankFormat h hname hblank =>
    exact .inl ⟨_, load_of_format_error h hname (Settings.format_of_blank hblank), rfl⟩
  | unsupportedFormat h hname hblank hformat =>
    exact .inl ⟨_, load_of_format_error h hname (Settings.format_of_none hblank hformat), rfl⟩
  | @unknownExtension reason h hname hformat =>
    have hgiven : source.format.mapM Settings.format = .ok none := by
      rw [hname]
      rfl
    refine .inl ⟨.unreadableCatalog source.path reason, ?_, rfl⟩
    rw [load_of_given h hgiven, readFrom_run, Option.elim_none, hformat]
    rfl
  | @unreadable format reason h hformat hread =>
    obtain ⟨given, hgiven, helim⟩ := hformat.exists_given
    refine .inl ⟨.unreadableCatalog source.path (.file reason), ?_, rfl⟩
    rw [load_of_given h hgiven, readFrom_run, helim, hread]
    rfl
  | @undecoded format bytes reason hfinds hcatalog =>
    refine .inl ⟨.unreadableCatalog source.path reason, ?_, rfl⟩
    rw [hfinds.load_eq, hcatalog]
    rfl
  | @invalid format bytes catalog violation hfinds hcatalog hresolve =>
    exact .inr ⟨catalog, violation, hfinds.load_eq_ok hcatalog, hresolve, rfl⟩

end CatalogSource

end

/-! ## Checking

The first two commands put a text of their own before a violation, and the third has that
of the error which generation gives. -/

section

variable {σ : Type} [FileStore (StateM σ)] {source : CatalogSource} {s : σ} {catalog : Catalog}

theorem CatalogSource.validate_of_load (hload : runOn source.load s = (.ok catalog, s)) :
    runOn source.validate s = ((catalog.resolve.mapError .invalidCatalog).map fun c =>
      "✅ " ++ source.path ++ " is valid: " ++ toString c.languages.length ++ " language(s), " ++
        toString c.entries.length ++ " entries\n", s) := by
  rw [validate, runOn_bind, hload]
  dsimp only
  cases catalog.resolve with
  | error violation => rfl
  | ok c => rfl

theorem CatalogSource.keys_of_load (hload : runOn source.load s = (.ok catalog, s))
    (json : Bool) : runOn (source.keys json) s =
      ((catalog.resolve.mapError .invalidCatalog).map (·.keyList json), s) := by
  rw [keys, runOn_bind, hload]
  dsimp only
  cases catalog.resolve with
  | error violation => rfl
  | ok c => rfl

theorem CatalogSource.keys_of_resolve {c : ResolvedCatalog}
    (hload : runOn source.load s = (.ok catalog, s)) (hresolve : catalog.resolve = .ok c)
    (json : Bool) : runOn (source.keys json) s = (.ok (c.keyList json), s) := by
  rw [keys_of_load hload, hresolve]
  rfl

theorem GenerateOptions.prepare_of_load {o : GenerateOptions}
    (htargets : runOn o.checkTargets s = (.ok (), s))
    (hload : runOn o.source.load s = (.ok catalog, s)) :
    runOn o.prepare s = (catalog.prepare.mapError .refusedCatalog, s) := by
  rw [prepare, runOn_bind, htargets]
  dsimp only
  rw [runOn_bind, hload]
  rfl

end

/-! ## Every source is accepted or refused -/

section

variable {σ : Type} [FileStore (StateM σ)] {source : CatalogSource} {s : σ}

namespace CatalogSource

theorem hasFormat_or_refuses (h : kindAt s source.path = some .file) :
    (∃ format, source.HasFormat format) ∨ ∃ message, source.Refuses s message := by
  cases hname : source.format with
  | none =>
    cases hformat : Format.ofPath source.path with
    | ok format => exact .inl ⟨format, .inferred hname hformat⟩
    | error reason => exact .inr ⟨_, .unknownExtension h hname hformat⟩
  | some name =>
    by_cases hblank : Text.isBlankText name
    · exact .inr ⟨_, .blankFormat h hname hblank⟩
    · cases hformat : Format.ofName? name with
      | none => exact .inr ⟨_, .unsupportedFormat h hname hblank hformat⟩
      | some format =>
        refine .inl ⟨format, .named hname ?_⟩
        rw [Settings.format, if_neg hblank, hformat]

theorem finds_or_refuses (source : CatalogSource) (s : σ) :
    (∃ format bytes, source.Finds s format bytes) ∨ ∃ message, source.Refuses s message := by
  cases hkind : kindAt s source.path with
  | none => exact .inr ⟨_, .missing hkind⟩
  | some kind =>
    by_cases hfile : kind = .file
    · rw [hfile] at hkind
      obtain ⟨format, hformat⟩ | hrefuses := hasFormat_or_refuses hkind
      · cases hread : readAt s source.path with
        | error reason => exact .inr ⟨_, .unreadable hkind hformat hread⟩
        | ok bytes => exact .inl ⟨format, bytes, hkind, hformat, hread⟩
      · exact .inr hrefuses
    · exact .inr ⟨_, .notFile hkind hfile⟩

theorem accepts_or_refuses (source : CatalogSource) (s : σ) :
    (∃ c, source.Accepts s c) ∨ ∃ message, source.Refuses s message := by
  obtain ⟨format, bytes, hfinds⟩ | hrefuses := source.finds_or_refuses s
  · cases hcatalog : Catalog.ofBytes format bytes with
    | error reason => exact .inr ⟨_, .undecoded hfinds hcatalog⟩
    | ok catalog =>
      cases hresolve : catalog.resolve with
      | error violation => exact .inr ⟨_, .invalid hfinds hcatalog hresolve⟩
      | ok c => exact .inl ⟨c, .intro hfinds hcatalog hresolve⟩
  · exact .inr hrefuses

end CatalogSource

end

/-! ## The commands -/

/-- A failure that is about the outputs, and so comes after the catalog. -/
inductive CommandError.IsAboutOutputs : CommandError → Prop
  | unwritable (path : String) (reason : FileError) : IsAboutOutputs (.unwritable path reason)
  | unreadable (path : String) (reason : FileError) : IsAboutOutputs (.unreadable path reason)
  | outOfDate (paths : List String) : IsAboutOutputs (.outOfDate paths)

namespace GenerateOptions

/-- What a run does once it has a catalog: it compares the outputs, or writes them. -/
def finish {m : Type → Type} [Monad m] [FileStore m] (o : GenerateOptions) (c : ResolvedCatalog) :
    CommandM m String :=
  if o.check then compare (o.outputs c)
  else do
    writeOutputs (o.outputs c)
    return o.report c

section

variable {σ : Type} [FileStore (StateM σ)] {o : GenerateOptions} {s s' : σ} {c : ResolvedCatalog}
  {e : CommandError}

theorem generate_eq_finish (o : GenerateOptions) :
    o.generate = (o.prepare >>= o.finish : CommandM (StateM σ) String) := by
  cases hcheck : o.check with
  | true =>
    rw [generate_of_check hcheck]
    congr 1
    funext c
    rw [finish, if_pos hcheck]
  | false =>
    rw [generate_of_write hcheck]
    congr 1
    funext c
    rw [finish, if_neg (by simp [hcheck])]

theorem compare_isAboutOutputs [LawfulStore σ] {outputs : List Output}
    (h : runOn (compare outputs) s = (.error e, s')) : e.IsAboutOutputs := by
  by_cases hreadable : ∀ o ∈ outputs, Readable s o.path
  · by_cases hheld : ∀ o ∈ outputs, o.IsHeld s
    · rw [compare_of_held hheld] at h
      cases h
    · rw [compare_of_stale hreadable (by simpa using hheld)] at h
      cases h
      exact .outOfDate _
  · obtain ⟨before, o, after, reason, -, -, -, hfails⟩ := exists_compare_unreadable hreadable
    rw [hfails] at h
    cases h
    exact .unreadable _ _

theorem finish_isAboutOutputs [LawfulStore σ] (h : runOn (o.finish c) s = (.error e, s')) :
    e.IsAboutOutputs := by
  unfold finish at h
  split at h
  · exact compare_isAboutOutputs h
  · obtain hwrite | ⟨⟨⟩, s₁, -, hreport⟩ := runOn_bind_eq_error.mp h
    · obtain ⟨_, output, _, _, reason, -, -, -, rfl⟩ := writeOutputs_eq_error.mp hwrite
      exact .unwritable _ _
    · cases hreport

end

end GenerateOptions

section

variable {σ : Type} [FileStore (StateM σ)] [LawfulStore σ] {source : CatalogSource} {s : σ}

namespace GenerateOptions

/-- The commands get past loading and validation with one catalog: the first says that it
is valid, the second lists it, and the third goes on to its outputs. -/
structure Passes (o : GenerateOptions) (s : σ) (c : ResolvedCatalog) : Prop where
  validate_eq : runOn o.source.validate s = (.ok ("✅ " ++ o.source.path ++ " is valid: " ++
    toString c.languages.length ++ " language(s), " ++ toString c.entries.length ++
      " entries\n"), s)
  keys_eq (json : Bool) : runOn (o.source.keys json) s = (.ok (c.keyList json), s)
  generate_eq : runOn o.generate s = runOn (o.finish c) s
  isAboutOutputs (e : CommandError) (s' : σ) :
    runOn o.generate s = (.error e, s') → e.IsAboutOutputs

/-- The commands stop with one message before they make anything of a catalog. -/
structure Stops (o : GenerateOptions) (s : σ) (message : String) : Prop where
  validate : (o.source.validate : CommandM (StateM σ) String).FailsWith s message
  keys (json : Bool) : (o.source.keys json : CommandM (StateM σ) String).FailsWith s message
  generate : (o.generate : CommandM (StateM σ) String).FailsWith s message

variable {o : GenerateOptions} {c : ResolvedCatalog} {message : String}

theorem passes_of_accepts (htargets : runOn o.checkTargets s = (.ok (), s))
    (h : o.source.Accepts s c) : o.Passes s c := by
  obtain ⟨hfinds, hcatalog, hresolve⟩ := h
  have hload := hfinds.load_eq_ok hcatalog
  have hvalidate := CatalogSource.validate_of_load hload
  rw [hresolve] at hvalidate
  have hgenerate : runOn o.generate s = runOn (o.finish c) s := by
    rw [generate_eq_finish, runOn_bind, prepare_of_load htargets hload, Catalog.prepare, hresolve]
    rfl
  exact ⟨hvalidate, CatalogSource.keys_of_resolve hload hresolve, hgenerate,
    fun _ _ hrun => finish_isAboutOutputs (hgenerate.symm.trans hrun)⟩

/-- Where a violation stops the commands, the two texts that they have for it are equal. -/
theorem stops_of_refuses (htargets : runOn o.checkTargets s = (.ok (), s))
    (h : o.source.Refuses s message) : o.Stops s message := by
  obtain hload | ⟨catalog, violation, hload, hresolve, rfl⟩ := h.load_failsWith_or
  · refine ⟨hload.bind _, fun json => hload.bind _, ?_⟩
    rw [generate_eq_finish, prepare]
    apply FailsWith.bind
    apply FailsWith.after htargets
    exact hload.bind _
  · refine ⟨⟨.invalidCatalog violation, ?_, rfl⟩,
      fun json => ⟨.invalidCatalog violation, ?_, rfl⟩, ?_⟩
    · rw [CatalogSource.validate_of_load hload, hresolve]
      rfl
    · rw [CatalogSource.keys_of_load hload, hresolve]
      rfl
    · rw [generate_eq_finish]
      apply FailsWith.bind
      refine ⟨.refusedCatalog (.validation violation), ?_, rfl⟩
      rw [prepare_of_load htargets hload, Catalog.prepare, hresolve]
      rfl

/-- With outputs that pass their own checks, the three commands agree on every source: its
catalog is accepted and all of them get past it, or it is refused and all of them stop with
the same message. -/
theorem commands_agree (o : GenerateOptions) (s : σ)
    (htargets : runOn o.checkTargets s = (.ok (), s)) :
    (∃ c, o.source.Accepts s c ∧ o.Passes s c) ∨
      ∃ message, o.source.Refuses s message ∧ o.Stops s message := by
  obtain ⟨c, haccepts⟩ | ⟨message, hrefuses⟩ := o.source.accepts_or_refuses s
  · exact .inl ⟨c, haccepts, passes_of_accepts htargets haccepts⟩
  · exact .inr ⟨message, hrefuses, stops_of_refuses htargets hrefuses⟩

end GenerateOptions

end

/-- A catalog in two languages, with a title in one of them. -/
def FileTree.partlyTranslated : FileTree where
  nodes := [(["langgen.json"], .file ("\x7b\"languages\": [\"en\", \"de\"], \"items\": " ++
    "[\x7b\"key\": \"title\", \"localizations\": \x7b\"en\": \"Title\"\x7d\x7d]\x7d").toUTF8)]
  working := []

/-- All commands name the language that is missing. -/
theorem FileTree.partlyTranslated_commands_agree :
    GenerateOptions.small.Stops FileTree.partlyTranslated
      ("validation error: item which has a key \"title\" does not have localization for " ++
        "\"de\"") := by
  have htargets : runOn GenerateOptions.small.checkTargets FileTree.partlyTranslated =
      (.ok (), FileTree.partlyTranslated) :=
    Prod.ext (by decide +kernel) (GenerateOptions.small.checkTargets_inspects.state_eq _)
  have hvalidate : (runOn GenerateOptions.small.source.validate FileTree.partlyTranslated).1 =
      .error (.invalidCatalog (.missingLocalization "title" "de")) := by decide +kernel
  obtain ⟨c, -, hpasses⟩ | ⟨message, -, hstops⟩ :=
    GenerateOptions.commands_agree .small FileTree.partlyTranslated htargets
  · rw [hpasses.validate_eq] at hvalidate
    cases hvalidate
  · obtain ⟨e, hrun, rfl⟩ := hstops.validate
    rw [hrun] at hvalidate
    cases hvalidate
    exact hstops

end Phrasebook
