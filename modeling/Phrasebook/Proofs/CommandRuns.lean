-- Runs of the commands on a store with a state. A command that checks, loads
-- or compares leaves the store as it was, and a command that has to write
-- stops at the first output that cannot be written.
import Phrasebook.Proofs.Artifacts
import Phrasebook.Proofs.StoreRuns

namespace Phrasebook

variable {σ : Type} {α β ε : Type}

/-! ## Runs -/

namespace CommandM

/-- The result of a command, and the state that it leaves. -/
def runOn (command : CommandM (StateM σ) α) (s : σ) : Except CommandError α × σ :=
  actOn (ExceptT.run command) s

theorem runOn_bind (command : CommandM (StateM σ) α) (next : α → CommandM (StateM σ) β) (s : σ) :
    (command >>= next).runOn s = match command.runOn s with
      | (.ok a, s') => (next a).runOn s'
      | (.error e, s') => (.error e, s') := by
  show actOn (ExceptT.bindCont next (command.runOn s).1) (command.runOn s).2 = _
  rcases command.runOn s with ⟨_ | a, s'⟩
  · rfl
  · rfl

theorem runOn_lift (action : StateM σ α) (s : σ) :
    (liftM action : CommandM (StateM σ) α).runOn s =
      (.ok (actOn action s).1, (actOn action s).2) := rfl

theorem runOn_perform (action : StateM σ (Except ε α))
    (meaning : ε → CommandError) (s : σ) : (perform action meaning).runOn s =
      ((actOn action s).1.mapError meaning, (actOn action s).2) := rfl

theorem runOn_bind_eq_ok {command : CommandM (StateM σ) α} {next : α → CommandM (StateM σ) β}
    {s s' : σ} {b : β} : (command >>= next).runOn s = (.ok b, s') ↔
      ∃ a s₁, command.runOn s = (.ok a, s₁) ∧ (next a).runOn s₁ = (.ok b, s') := by
  rw [runOn_bind]
  rcases command.runOn s with ⟨_ | a, s₁⟩
  · simp
  · simp

theorem runOn_bind_eq_error {command : CommandM (StateM σ) α} {next : α → CommandM (StateM σ) β}
    {s s' : σ} {e : CommandError} : (command >>= next).runOn s = (.error e, s') ↔
      command.runOn s = (.error e, s') ∨
        ∃ a s₁, command.runOn s = (.ok a, s₁) ∧ (next a).runOn s₁ = (.error e, s') := by
  rw [runOn_bind]
  rcases command.runOn s with ⟨_ | a, s₁⟩
  · simp
  · simp

end CommandM

open CommandM

/-! ## Commands that only look -/

/-- A failure to write an output. -/
def CommandError.IsUnwritable : CommandError → Prop
  | unwritable _ _ => True
  | _ => False

/-- A command that leaves every state as it was and has nothing to write. -/
structure CommandM.Inspects (command : CommandM (StateM σ) α) : Prop where
  state_eq (s : σ) : (command.runOn s).2 = s
  not_unwritable (s : σ) (e : CommandError) :
    (command.runOn s).1 = .error e → ¬ e.IsUnwritable

namespace CommandM.Inspects

theorem pure (a : α) : Inspects (σ := σ) (Pure.pure a) where
  state_eq _ := rfl
  not_unwritable _ _ h := by cases h

theorem throw {e : CommandError} (h : ¬ e.IsUnwritable) :
    Inspects (σ := σ) (α := α) (MonadExcept.throw e) where
  state_eq _ := rfl
  not_unwritable _ _ he := by
    cases he
    exact h

theorem bind {command : CommandM (StateM σ) α} {next : α → CommandM (StateM σ) β}
    (h : command.Inspects) (hnext : ∀ a, (next a).Inspects) : (command >>= next).Inspects where
  state_eq s := by
    have hs := h.state_eq s
    rw [runOn_bind]
    rcases hrun : command.runOn s with ⟨_ | a, s₁⟩
    · rw [hrun] at hs
      exact hs
    · rw [hrun] at hs
      exact ((hnext a).state_eq s₁).trans hs
  not_unwritable s e he := by
    rw [runOn_bind] at he
    rcases hrun : command.runOn s with ⟨_ | a, s₁⟩
    · rw [hrun] at he
      cases he
      exact h.not_unwritable s e (by rw [hrun])
    · rw [hrun] at he
      exact (hnext a).not_unwritable s₁ e he

theorem check {result : Except CommandError α} (h : ∀ e, result = .error e → ¬ e.IsUnwritable) :
    Inspects (σ := σ) (CommandM.check result) where
  state_eq _ := rfl
  not_unwritable _ e he := h e he

theorem eq_of_runOn {command : CommandM (StateM σ) α} {result : Except CommandError α} {s s' : σ}
    (h : command.Inspects) (hrun : command.runOn s = (result, s')) : s' = s := by
  have hstate := h.state_eq s
  rwa [hrun] at hstate

/-- Looking into the store is no command that writes. -/
theorem lift {action : StateM σ α} (h : Looks action) :
    Inspects (σ := σ) (liftM action) where
  state_eq s := h s
  not_unwritable _ _ he := by cases he

theorem perform {action : StateM σ (Except ε α)} {meaning : ε → CommandError}
    (h : Looks action) (hmeaning : ∀ e, ¬ (meaning e).IsUnwritable) :
    (CommandM.perform action meaning).Inspects where
  state_eq s := h s
  not_unwritable s e he := by
    rw [runOn_perform] at he
    obtain ⟨cause, -, rfl⟩ := Validation.mapError_eq_error_iff.mp he
    exact hmeaning cause

end CommandM.Inspects

section Inspections

variable [FileStore (StateM σ)] [LawfulStore σ]

theorem checkCatalogPath_inspects (path : String) :
    (checkCatalogPath path : CommandM (StateM σ) Unit).Inspects := by
  unfold checkCatalogPath
  apply Inspects.bind (Inspects.lift (LawfulStore.kind?_looks path))
  intro kind
  split
  · exact Inspects.throw not_false
  · exact Inspects.pure ()
  · exact Inspects.throw not_false

theorem checkOutputDirectory_inspects (path : String) :
    (checkOutputDirectory path : CommandM (StateM σ) Unit).Inspects := by
  unfold checkOutputDirectory
  split
  · exact Inspects.throw not_false
  · apply Inspects.bind (Inspects.lift (LawfulStore.kind?_looks path))
    intro kind
    split
    · exact Inspects.pure ()
    · exact Inspects.pure ()
    · exact Inspects.throw not_false

theorem format_not_unwritable {name : String} {e : CommandError}
    (h : Settings.format name = .error e) : ¬ e.IsUnwritable := by
  unfold Settings.format at h
  split at h
  · cases h
    exact not_false
  · split at h
    · cases h
    · cases h
      exact not_false

theorem checkTableName_not_unwritable {name : String} {e : CommandError}
    (h : Settings.checkTableName name = .error e) : ¬ e.IsUnwritable := by
  unfold Settings.checkTableName at h
  split at h
  · cases h
    exact not_false
  · split at h
    · cases h
    · cases h
      exact not_false

theorem checkTypeName_not_unwritable {name : String} {e : CommandError}
    (h : Settings.checkTypeName name = .error e) : ¬ e.IsUnwritable := by
  unfold Settings.checkTypeName at h
  split at h
  · cases h
  · cases h
    exact not_false

theorem CatalogSource.load_inspects (source : CatalogSource) :
    (source.load : CommandM (StateM σ) Catalog).Inspects := by
  unfold load
  apply Inspects.bind (checkCatalogPath_inspects source.path)
  intro _
  apply Inspects.bind
  · apply Inspects.check
    intro e he
    cases hname : source.format with
    | none =>
      rw [hname] at he
      cases he
    | some name =>
      rw [hname] at he
      cases hformat : Settings.format name with
      | ok format => simp [hformat] at he
      | error cause =>
        simp only [Option.mapM_some, hformat] at he
        cases he
        exact format_not_unwritable hformat
  · intro format
    exact Inspects.perform (readFrom_looks source.path format)
      fun _ => not_false

theorem GenerateOptions.checkTargets_inspects (o : GenerateOptions) :
    (o.checkTargets : CommandM (StateM σ) Unit).Inspects := by
  unfold checkTargets
  apply Inspects.bind (checkOutputDirectory_inspects o.stringsDirectory)
  intro _
  apply Inspects.bind (checkOutputDirectory_inspects o.swiftDirectory)
  intro _
  apply Inspects.bind (Inspects.check fun _ => checkTableName_not_unwritable)
  intro _
  exact Inspects.check fun _ => checkTypeName_not_unwritable

theorem staleOutputs_inspects (outputs : List Output) :
    (staleOutputs outputs : CommandM (StateM σ) (List String)).Inspects := by
  induction outputs with
  | nil => exact Inspects.pure []
  | cons output rest ih =>
    unfold staleOutputs
    apply Inspects.bind
    · exact Inspects.perform (holdsText_looks output.path output.text)
        fun _ => not_false
    · intro upToDate
      apply Inspects.bind ih
      intro stale
      exact Inspects.pure _

end Inspections

/-! ## Writing -/

section Writes

variable [FileStore (StateM σ)]

theorem writeOutputs_cons_run (output : Output) (rest : List Output) (s : σ) :
    runOn (writeOutputs (output :: rest)) s =
      match actOn (FileStore.writeText output.path output.text) s with
      | (.ok (), s₁) => runOn (writeOutputs rest) s₁
      | (.error reason, s₁) => (.error (.unwritable output.path reason), s₁) := by
  rw [writeOutputs, runOn_bind, runOn_perform]
  rcases actOn (FileStore.writeText output.path output.text) s with ⟨_ | ⟨⟨⟩⟩, s₁⟩
  · rfl
  · rfl

theorem writeOutputs_cons_eq_ok {output : Output} {rest : List Output} {s s' : σ} :
    runOn (writeOutputs (output :: rest)) s = (.ok (), s') ↔
      ∃ s₁, actOn (FileStore.writeText output.path output.text) s = (.ok (), s₁) ∧
        runOn (writeOutputs rest) s₁ = (.ok (), s') := by
  rw [writeOutputs_cons_run]
  rcases actOn (FileStore.writeText output.path output.text) s with ⟨_ | ⟨⟨⟩⟩, s₁⟩
  · simp
  · simp

/-- A run that fails stops at an output, with those before it written. -/
theorem writeOutputs_eq_error {outputs : List Output} {e : CommandError} {s s' : σ} :
    runOn (writeOutputs outputs) s = (.error e, s') ↔
      ∃ before output after s₁ reason, outputs = before ++ output :: after ∧
        runOn (writeOutputs before) s = (.ok (), s₁) ∧
        actOn (FileStore.writeText output.path output.text) s₁ = (.error reason, s') ∧
        e = .unwritable output.path reason := by
  constructor
  · intro h
    induction outputs generalizing s with
    | nil => cases h
    | cons output rest ih =>
      rw [writeOutputs_cons_run] at h
      rcases hwrite : actOn (FileStore.writeText output.path output.text) s
        with ⟨reason | ⟨⟨⟩⟩, s₁⟩
      · rw [hwrite] at h
        cases h
        exact ⟨[], output, rest, s, reason, rfl, rfl, hwrite, rfl⟩
      · rw [hwrite] at h
        obtain ⟨before, failing, after, s₂, reason, rfl, hbefore, hfails, he⟩ := ih h
        refine ⟨output :: before, failing, after, s₂, reason, rfl, ?_, hfails, he⟩
        exact writeOutputs_cons_eq_ok.mpr ⟨s₁, hwrite, hbefore⟩
  · rintro ⟨before, output, after, s₁, reason, rfl, hbefore, hfails, rfl⟩
    induction before generalizing s with
    | nil =>
      cases hbefore
      rw [List.nil_append, writeOutputs_cons_run, hfails]
    | cons first before ih =>
      obtain ⟨s₂, hwrite, hrest⟩ := writeOutputs_cons_eq_ok.mp hbefore
      rw [List.cons_append, writeOutputs_cons_run, hwrite]
      exact ih hrest

end Writes

/-! ## Generating -/

namespace GenerateOptions

/-- All that comes before the outputs: the checks of the options, and the
catalog. -/
def prepare {m : Type → Type} [Monad m] [FileStore m] (o : GenerateOptions) :
    CommandM m ResolvedCatalog := do
  o.checkTargets
  let catalog ← o.source.load
  CommandM.check (catalog.prepare.mapError .refusedCatalog)

/-- The comparison of the outputs with the files that there are. -/
def compare {m : Type → Type} [Monad m] [FileStore m] (outputs : List Output) :
    CommandM m String := do
  let stale ← staleOutputs outputs
  if stale.isEmpty then return "All generated files are up to date\n"
  else throw (.outOfDate stale)

section Generate

variable [FileStore (StateM σ)] {o : GenerateOptions}

theorem generate_of_check (h : o.check = true) :
    o.generate = (o.prepare >>= fun c => compare (o.outputs c) : CommandM (StateM σ) _) := by
  unfold generate prepare
  simp only [bind_assoc]
  rw [h]
  rfl

theorem generate_of_write (h : o.check = false) :
    o.generate = (o.prepare >>= fun c =>
      writeOutputs (o.outputs c) >>= fun _ => pure (o.report c) : CommandM (StateM σ) _) := by
  unfold generate prepare
  simp only [bind_assoc]
  rw [h]
  rfl

/-- A run that writes stops in the preparation, or at an output. -/
theorem generate_eq_error {s s' : σ} {e : CommandError} (h : o.check = false) :
    runOn o.generate s = (.error e, s') ↔ runOn o.prepare s = (.error e, s') ∨
      ∃ c s₁, runOn o.prepare s = (.ok c, s₁) ∧
        runOn (writeOutputs (o.outputs c)) s₁ = (.error e, s') := by
  have hwrite (c : ResolvedCatalog) (s₁ : σ) :
      runOn (writeOutputs (o.outputs c) >>= fun _ => pure (o.report c)) s₁ = (.error e, s') ↔
        runOn (writeOutputs (o.outputs c)) s₁ = (.error e, s') := by
    rw [runOn_bind_eq_error, or_iff_left]
    rintro ⟨_, _, -, hreport⟩
    cases hreport
  rw [generate_of_write h, runOn_bind_eq_error]
  simp only [hwrite]

theorem outputs_of_generate_eq_ok {s s' : σ} {text : String} (h : o.check = false)
    (hrun : runOn o.generate s = (.ok text, s')) : ∃ c s₁, runOn o.prepare s = (.ok c, s₁) ∧
      runOn (writeOutputs (o.outputs c)) s₁ = (.ok (), s') ∧ text = o.report c := by
  rw [generate_of_write h] at hrun
  obtain ⟨c, s₁, hc, hrest⟩ := runOn_bind_eq_ok.mp hrun
  obtain ⟨⟨⟩, s₂, hwrite, hreport⟩ := runOn_bind_eq_ok.mp hrest
  cases hreport
  exact ⟨c, s₁, hc, hwrite, rfl⟩

/-- What is prepared was read from a catalog. -/
theorem exists_catalog_of_prepare {s s' : σ} {c : ResolvedCatalog}
    (h : runOn o.prepare s = (.ok c, s')) : ∃ catalog : Catalog, catalog.resolve = .ok c := by
  obtain ⟨⟨⟩, s₁, -, hsource⟩ := runOn_bind_eq_ok.mp h
  obtain ⟨catalog, s₂, -, hcheck⟩ := runOn_bind_eq_ok.mp hsource
  have hprepare := Validation.mapError_eq_ok_iff.mp (congrArg Prod.fst hcheck)
  exact ⟨catalog, Validation.mapError_eq_ok_iff.mp hprepare⟩

variable [LawfulStore σ]

variable (o) in
theorem prepare_inspects : Inspects (σ := σ) o.prepare := by
  apply Inspects.bind o.checkTargets_inspects
  intro _
  apply Inspects.bind o.source.load_inspects
  intro catalog
  apply Inspects.check
  intro e he
  obtain ⟨reason, -, rfl⟩ := Validation.mapError_eq_error_iff.mp he
  exact not_false

theorem compare_inspects (outputs : List Output) : Inspects (σ := σ) (compare outputs) := by
  apply Inspects.bind (staleOutputs_inspects outputs)
  intro stale
  split
  · exact Inspects.pure _
  · exact Inspects.throw not_false

theorem generate_inspects (h : o.check = true) : Inspects (σ := σ) o.generate := by
  rw [generate_of_check h]
  exact (prepare_inspects o).bind fun c => compare_inspects (o.outputs c)

/-- A failure other than that of a write leaves the state as it was. -/
theorem state_eq_of_generate_eq_error {s s' : σ} {e : CommandError}
    (h : runOn o.generate s = (.error e, s')) (he : ¬ e.IsUnwritable) : s' = s := by
  by_cases hcheck : o.check = true
  · exact (generate_inspects hcheck).eq_of_runOn h
  · obtain hfails | ⟨c, s₁, -, hwrite⟩ :=
      (generate_eq_error (Bool.eq_false_of_not_eq_true hcheck)).mp h
    · exact (prepare_inspects o).eq_of_runOn hfails
    · obtain ⟨_, output, _, _, reason, -, -, -, rfl⟩ := writeOutputs_eq_error.mp hwrite
      exact absurd trivial he

/-- A failed write is that of an output, after those before it are written. -/
theorem generate_eq_unwritable {s s' : σ} {path : String} {reason : FileError} :
    runOn o.generate s = (.error (.unwritable path reason), s') ↔
      o.check = false ∧ ∃ c before output after s₁, runOn o.prepare s = (.ok c, s) ∧
        o.outputs c = before ++ output :: after ∧ output.path = path ∧
        runOn (writeOutputs before) s = (.ok (), s₁) ∧
        actOn (FileStore.writeText output.path output.text) s₁ = (.error reason, s') := by
  have hprepare := prepare_inspects (σ := σ) o
  constructor
  · intro h
    have hcheck : o.check = false := by
      by_contra hcheck
      have hinspects := generate_inspects (σ := σ) (Bool.eq_true_of_not_eq_false hcheck)
      exact hinspects.not_unwritable s (.unwritable path reason) (by rw [h]) trivial
    refine ⟨hcheck, ?_⟩
    obtain hfails | ⟨c, s₀, hc, hwrite⟩ := (generate_eq_error hcheck).mp h
    · exact absurd trivial
        (hprepare.not_unwritable s (.unwritable path reason) (by rw [hfails]))
    · obtain rfl := hprepare.eq_of_runOn hc
      obtain ⟨before, output, after, s₁, reason', houtputs, hbefore, hfails, he⟩ :=
        writeOutputs_eq_error.mp hwrite
      cases he
      exact ⟨c, before, output, after, s₁, hc, houtputs, rfl, hbefore, hfails⟩
  · rintro ⟨hcheck, c, before, output, after, s₁, hc, houtputs, rfl, hbefore, hfails⟩
    refine (generate_eq_error hcheck).mpr (.inr ⟨c, s, hc, ?_⟩)
    exact writeOutputs_eq_error.mpr
      ⟨before, output, after, s₁, reason, houtputs, hbefore, hfails, rfl⟩

/-- A run that compares, or that fails before it writes, changes nothing. A run
that cannot write an output leaves what there was after the outputs before it,
and at most more directories. -/
theorem generate_changes (o : GenerateOptions) (s : σ) :
    (o.check = true → (runOn o.generate s).2 = s) ∧
    (∀ e s', runOn o.generate s = (.error e, s') → ¬ e.IsUnwritable → s' = s) ∧
    (∀ path reason s', runOn o.generate s = (.error (.unwritable path reason), s') ↔
      o.check = false ∧ ∃ c before output after s₁, runOn o.prepare s = (.ok c, s) ∧
        (o.outputs c).map (·.path) = c.languages.map (o.naming.tablePath o.stringsDirectory) ++
          [o.naming.modulePath o.swiftDirectory] ∧
        o.outputs c = before ++ output :: after ∧ output.path = path ∧
        runOn (writeOutputs before) s = (.ok (), s₁) ∧
        actOn (FileStore.writeText output.path output.text) s₁ = (.error reason, s') ∧
        (LawfulStore.tree s₁).AddsDirectories (LawfulStore.tree s')) := by
  refine ⟨fun h => (generate_inspects h).state_eq s,
    fun e s' h he => state_eq_of_generate_eq_error h he, fun path reason s' => ?_⟩
  rw [generate_eq_unwritable]
  constructor
  · rintro ⟨hcheck, c, before, output, after, s₁, hc, houtputs, hpath, hbefore, hfails⟩
    obtain ⟨catalog, hresolve⟩ := exists_catalog_of_prepare hc
    have hfrom := Catalog.comesFrom_of_resolve hresolve
    have hpaths := hfrom.outputs_paths o.naming o.stringsDirectory o.swiftDirectory
    rw [← hfrom.languages_eq] at hpaths
    exact ⟨hcheck, c, before, output, after, s₁, hc, hpaths, houtputs, hpath, hbefore, hfails,
      writeText_eq_error hfails⟩
  · rintro ⟨hcheck, c, before, output, after, s₁, hc, -, houtputs, hpath, hbefore, hfails, -⟩
    exact ⟨hcheck, c, before, output, after, s₁, hc, houtputs, hpath, hbefore, hfails⟩

end Generate

/-- A catalog of one language in a file of its own. -/
def small : GenerateOptions := { source := { path := "langgen.json" } }

end GenerateOptions

/-- The file of the small catalog, and a directory in the place of the Swift file. -/
def FileTree.blocked : FileTree where
  nodes := [(["langgen.json"], .file "\x7b\"languages\": [\"en\"], \"items\": []\x7d".toUTF8),
    (["Localization.swift"], .directory)]
  working := []

/-- The table is written, and the Swift file cannot be. -/
theorem FileTree.blocked_generate_changes :
    ∃ c t' before output after t₁,
      runOn GenerateOptions.small.generate FileTree.blocked =
        (.error (.unwritable "./Localization.swift" .isDirectory), t') ∧
      GenerateOptions.small.outputs c = before ++ output :: after ∧
      output.path = "./Localization.swift" ∧
      runOn (writeOutputs before) FileTree.blocked = (.ok (), t₁) ∧
      t₁.read "./en.lproj/Localizable.strings" = .ok (StringsTable.mk "en" []).render.toUTF8 ∧
      t₁.AddsDirectories t' := by
  have herror : (match (runOn GenerateOptions.small.generate FileTree.blocked).1 with
      | .error e => some e
      | .ok _ => none) = some (.unwritable "./Localization.swift" .isDirectory) := by
    decide +kernel
  have hcatalog : (runOn GenerateOptions.small.prepare FileTree.blocked).1 = .ok ⟨["en"], []⟩ := by
    decide +kernel
  have htable : GenerateOptions.small.outputs ⟨["en"], []⟩ =
      [⟨"./en.lproj/Localizable.strings", (StringsTable.mk "en" []).render⟩,
        ⟨"./Localization.swift", (AccessorModule.mk "Localization" "Localizable" []).render⟩] := by
    decide +kernel
  obtain ⟨-, -, hunwritable⟩ := GenerateOptions.generate_changes .small FileTree.blocked
  rcases hrun : runOn GenerateOptions.small.generate FileTree.blocked with ⟨e | text, t'⟩
  · rw [hrun] at herror
    cases herror
    obtain ⟨-, c, before, output, after, t₁, hprepare, -, houtputs, hpath, hbefore, -, hadds⟩ :=
      (hunwritable "./Localization.swift" .isDirectory t').mp hrun
    rw [hprepare] at hcatalog
    cases hcatalog
    refine ⟨_, t', before, output, after, t₁, rfl, houtputs, hpath, hbefore, ?_, hadds⟩
    -- The table is the only output before the Swift file.
    rw [htable] at houtputs
    rcases before with _ | ⟨first, _ | ⟨second, before⟩⟩
    · cases houtputs
      exact absurd hpath (by decide)
    · cases houtputs
      have hread : (runOn (writeOutputs [⟨"./en.lproj/Localizable.strings",
          (StringsTable.mk "en" []).render⟩]) FileTree.blocked).2.read
            "./en.lproj/Localizable.strings" = .ok (StringsTable.mk "en" []).render.toUTF8 := by
        decide +kernel
      rw [hbefore] at hread
      exact hread
    · simp at houtputs
  · rw [hrun] at herror
    cases herror

end Phrasebook
