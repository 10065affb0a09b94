-- What a run that compares finds and says. It reads the outputs in their order,
-- names the first that can be no text, or lists all that are missing or different.
import Phrasebook.Proofs.OutputFiles

namespace Phrasebook

open CommandM

/-! ## Bytes of a text -/

theorem fromUTF8?_toUTF8 (text : String) : String.fromUTF8? text.toUTF8 = some text := by
  simp only [String.fromUTF8?, String.toUTF8_eq_toByteArray, dif_pos text.isValidUTF8]
  rfl

theorem fromUTF8?_eq_some_iff {bytes : ByteArray} {text : String} :
    String.fromUTF8? bytes = some text ↔ bytes = text.toUTF8 := by
  constructor
  · intro h
    unfold String.fromUTF8? at h
    split at h
    · cases h
      rfl
    · cases h
  · rintro rfl
    exact fromUTF8?_toUTF8 text

/-! ## Files of a store -/

section

variable {σ : Type} [FileStore (StateM σ)] {s : σ} {path text : String} {outputs : List Output}
  {reason : FileError}

/-- A path at which there is nothing, or a text. -/
def Readable (s : σ) (path : String) : Prop :=
  readAt s path = .error .notFound ∨ ∃ text : String, readAt s path = .ok text.toUTF8

/-- A path that cannot be compared with a text, and the reason. -/
inductive Unreadable (s : σ) (path : String) : FileError → Prop
  | failed {reason : FileError} :
    readAt s path = .error reason → reason ≠ .notFound → Unreadable s path reason
  | noText {bytes : ByteArray} :
    readAt s path = .ok bytes → (∀ text : String, bytes ≠ text.toUTF8) →
      Unreadable s path .invalidText

/-- The file at the path of an output holds exactly its text. -/
def Output.IsHeld (s : σ) (o : Output) : Prop := readAt s o.path = .ok o.text.toUTF8

instance (s : σ) (o : Output) : Decidable (o.IsHeld s) := inferInstanceAs (Decidable (_ = _))

/-- The paths of the outputs that are missing or different, in their order. -/
def stalePaths (s : σ) (outputs : List Output) : List String :=
  (outputs.filter (¬ ·.IsHeld s)).map (·.path)

theorem Output.IsHeld.readable {o : Output} (h : o.IsHeld s) : Readable s o.path := .inr ⟨o.text, h⟩

theorem Output.not_isHeld {o : Output} (h : readAt s o.path = .error reason) : ¬ o.IsHeld s := by
  intro hheld
  rw [IsHeld, h] at hheld
  cases hheld

theorem Unreadable.not_readable (h : Unreadable s path reason) : ¬ Readable s path := by
  rintro (hfree | ⟨text, hread⟩)
  · cases h with
    | failed hfails hreason => exact hreason (Except.error.inj (hfails.symm.trans hfree))
    | noText hbytes _ => cases hbytes.symm.trans hfree
  · cases h with
    | failed hfails _ => cases hfails.symm.trans hread
    | noText hbytes htext => exact htext text (Except.ok.inj (hbytes.symm.trans hread))

theorem not_forall_readable (hmem : path ∈ outputs.map (·.path)) (h : Unreadable s path reason) :
    ¬ ∀ o ∈ outputs, Readable s o.path := by
  obtain ⟨o, ho, rfl⟩ := List.mem_map.mp hmem
  exact fun hreadable => h.not_readable (hreadable o ho)

theorem exists_not_isHeld (hmem : path ∈ outputs.map (·.path))
    (h : readAt s path = .error reason) : ∃ o ∈ outputs, ¬ o.IsHeld s := by
  obtain ⟨o, ho, rfl⟩ := List.mem_map.mp hmem
  exact ⟨o, ho, Output.not_isHeld h⟩

theorem Unreadable.eq_of_readAt {cause : FileError} (h : Unreadable s path reason)
    (hread : readAt s path = .error cause) : reason = cause := by
  cases h with
  | failed hfails _ => exact Except.error.inj (hfails.symm.trans hread)
  | noText hbytes _ => cases hbytes.symm.trans hread

/-- Outputs that are all missing are all stale. -/
theorem stalePaths_of_missing (h : ∀ o ∈ outputs, readAt s o.path = .error .notFound) :
    stalePaths s outputs = outputs.map (·.path) := by
  have hnot : ∀ o ∈ outputs, ¬ o.IsHeld s := fun o ho =>
    Output.not_isHeld (h o ho)
  rw [stalePaths, List.filter_eq_self.mpr (by simpa using hnot)]

theorem exists_unreadable (h : ¬ Readable s path) : ∃ reason, Unreadable s path reason := by
  unfold Readable at h
  rw [not_or, not_exists] at h
  obtain ⟨hfound, htext⟩ := h
  cases hread : readAt s path with
  | error reason =>
    rw [hread] at hfound
    exact ⟨reason, .failed hread fun he => hfound (he ▸ rfl)⟩
  | ok bytes =>
    rw [hread] at htext
    exact ⟨.invalidText, .noText hread fun text he => htext text (he ▸ rfl)⟩

theorem exists_first_unreadable (h : ¬ ∀ o ∈ outputs, Readable s o.path) :
    ∃ before o after reason, outputs = before ++ o :: after ∧
      (∀ earlier ∈ before, Readable s earlier.path) ∧ Unreadable s o.path reason := by
  induction outputs with
  | nil => simp at h
  | cons o outputs ih =>
    by_cases ho : Readable s o.path
    · have hrest : ¬ ∀ o ∈ outputs, Readable s o.path :=
        fun hrest => h (List.forall_mem_cons.mpr ⟨ho, hrest⟩)
      obtain ⟨before, first, after, reason, rfl, hbefore, hfirst⟩ := ih hrest
      exact ⟨o :: before, first, after, reason, rfl, List.forall_mem_cons.mpr ⟨ho, hbefore⟩, hfirst⟩
    · obtain ⟨reason, hreason⟩ := exists_unreadable ho
      exact ⟨[], o, outputs, reason, rfl, by simp, hreason⟩

/-- What a comparison with a text makes of what was read. -/
def compareText (text : String) : Except FileError ByteArray → Except FileError Bool
  | .error .notFound => .ok false
  | .error reason => .error reason
  | .ok bytes =>
    match String.fromUTF8? bytes with
    | none => .error .invalidText
    | some found => .ok (found == text)

theorem holdsText_eq (path text : String) (s : σ) :
    (actOn (FileStore.holdsText path text) s).1 = compareText text (readAt s path) := by
  unfold FileStore.holdsText readAt
  rw [actOn_bind]
  rcases (actOn (FileStore.read path) s).1 with reason | bytes
  · cases reason <;> rfl
  · dsimp only [compareText]
    cases String.fromUTF8? bytes with
    | none => rfl
    | some found => rfl

theorem Readable.holdsText {o : Output} (h : Readable s o.path) :
    (actOn (FileStore.holdsText o.path o.text) s).1 = .ok (decide (o.IsHeld s)) := by
  rw [holdsText_eq]
  obtain hfree | ⟨found, hread⟩ := h
  · rw [hfree, decide_eq_false (Output.not_isHeld hfree)]
    rfl
  · have hiff : o.IsHeld s ↔ found = o.text := by
      rw [Output.IsHeld, hread, Except.ok.injEq, String.toUTF8_eq_toByteArray,
        String.toUTF8_eq_toByteArray, String.toByteArray_inj]
    rw [hread, compareText, fromUTF8?_toUTF8, decide_eq_decide.mpr hiff]
    rfl

theorem Unreadable.holdsText (text : String) (h : Unreadable s path reason) :
    (actOn (FileStore.holdsText path text) s).1 = .error reason := by
  rw [holdsText_eq]
  cases h with
  | failed hread hreason =>
    rw [hread]
    cases reason with
    | notFound => exact absurd rfl hreason
    | _ => rfl
  | @noText bytes hread htext =>
    have hnone : String.fromUTF8? bytes = none := by
      apply Option.eq_none_iff_forall_ne_some.mpr
      exact fun text he => htext text (fromUTF8?_eq_some_iff.mp he)
    rw [hread, compareText, hnone]

end

/-! ## Outputs of a run -/

namespace GenerateOptions

/-- An output that is the table of a language. -/
def IsTableOf (o : GenerateOptions) (c : ResolvedCatalog) (language : String) (output : Output) :
    Prop :=
  output.path = o.naming.tablePath o.stringsDirectory language ∧
    ∃ table, c.table? language = some table ∧ output.text = table.render

variable {σ : Type} [FileStore (StateM σ)] {s s' : σ} {o : GenerateOptions} {c : ResolvedCatalog}

/-- The outputs are the tables of the languages in their order, and the Swift file
after them. -/
theorem outputs_of_prepare (h : runOn o.prepare s = (.ok c, s')) :
    ∃ tables, List.Forall₂ (o.IsTableOf c) c.languages tables ∧
      o.outputs c = tables ++ [o.moduleOutput c] := by
  obtain ⟨catalog, hresolve⟩ := exists_catalog_of_prepare h
  have hfrom := Catalog.comesFrom_of_resolve hresolve
  have hsome : ∀ language ∈ c.languages, (c.table? language).isSome :=
    fun language hl => hfrom.table?_isSome (hfrom.languages_eq ▸ hl)
  refine ⟨c.tables.map o.tableOutput, ?_, o.outputs_eq c⟩
  rw [List.forall₂_map_right_iff]
  refine (forall₂_filterMap hsome).imp fun language table htable => ?_
  obtain ⟨-, rfl, -⟩ := ResolvedCatalog.table?_eq_some_iff.mp htable
  exact ⟨rfl, table, htable, rfl⟩

theorem paths_of_prepare (h : runOn o.prepare s = (.ok c, s')) :
    (o.outputs c).map (·.path) = c.languages.map (o.naming.tablePath o.stringsDirectory) ++
      [o.naming.modulePath o.swiftDirectory] := by
  obtain ⟨tables, htables, houtputs⟩ := outputs_of_prepare h
  rw [houtputs, List.map_append,
    Validation.map_eq_map_of_forall₂ (fun _ _ htable => htable.1) htables]
  rfl

theorem generate_eq_compare (hcheck : o.check = true) (h : runOn o.prepare s = (.ok c, s')) :
    runOn o.generate s = runOn (compare (o.outputs c)) s' := by
  rw [generate_of_check hcheck, runOn_bind, h]

end GenerateOptions

/-! ## Runs that compare -/

section

variable {σ : Type} [FileStore (StateM σ)] [LawfulStore σ] {s : σ} {outputs : List Output}
  {reason : FileError}

theorem holdsText_run (path text : String) (s : σ) :
    actOn (FileStore.holdsText path text) s =
      ((actOn (FileStore.holdsText path text) s).1, s) :=
  Prod.ext rfl (holdsText_looks path text s)

theorem staleOutputs_cons_of_readable {o : Output} (h : Readable s o.path) :
    runOn (staleOutputs (o :: outputs)) s =
      match runOn (staleOutputs outputs) s with
      | (.ok stale, s') => (.ok (if o.IsHeld s then stale else o.path :: stale), s')
      | (.error e, s') => (.error e, s') := by
  rw [staleOutputs, runOn_bind, runOn_perform, holdsText_run, h.holdsText]
  show runOn (staleOutputs outputs >>= _) s = _
  rw [runOn_bind]
  rcases runOn (staleOutputs outputs) s with ⟨e | stale, s'⟩
  · rfl
  · by_cases hheld : o.IsHeld s
    · dsimp only
      rw [decide_eq_true hheld, if_pos hheld]
      rfl
    · dsimp only
      rw [decide_eq_false hheld, if_neg hheld]
      rfl

theorem staleOutputs_cons_of_unreadable {o : Output} (h : Unreadable s o.path reason) :
    runOn (staleOutputs (o :: outputs)) s = (.error (.unreadable o.path reason), s) := by
  rw [staleOutputs, runOn_bind, runOn_perform, holdsText_run, h.holdsText]
  rfl

/-- Where every output can be compared, those that are not held are stale. -/
theorem staleOutputs_of_readable (h : ∀ o ∈ outputs, Readable s o.path) :
    runOn (staleOutputs outputs) s = (.ok (stalePaths s outputs), s) := by
  induction outputs with
  | nil => rfl
  | cons o outputs ih =>
    obtain ⟨ho, hrest⟩ := List.forall_mem_cons.mp h
    rw [staleOutputs_cons_of_readable ho, ih hrest]
    by_cases hheld : o.IsHeld s
    · simp [stalePaths, hheld]
    · simp [stalePaths, hheld]

/-- The first output that cannot be compared ends the run. -/
theorem staleOutputs_of_unreadable {before after : List Output} {o : Output}
    (hbefore : ∀ earlier ∈ before, Readable s earlier.path) (h : Unreadable s o.path reason) :
    runOn (staleOutputs (before ++ o :: after)) s = (.error (.unreadable o.path reason), s) := by
  induction before with
  | nil => exact staleOutputs_cons_of_unreadable h
  | cons first before ih =>
    obtain ⟨hfirst, hrest⟩ := List.forall_mem_cons.mp hbefore
    rw [List.cons_append, staleOutputs_cons_of_readable hfirst, ih hrest]

namespace GenerateOptions

theorem compare_of_held (h : ∀ o ∈ outputs, o.IsHeld s) :
    runOn (compare outputs) s = (.ok "All generated files are up to date\n", s) := by
  have hstale := staleOutputs_of_readable fun o ho => (h o ho).readable
  rw [stalePaths, List.filter_eq_nil_iff.mpr (by simpa using h)] at hstale
  rw [compare, runOn_bind, hstale]
  rfl

theorem compare_of_stale (hreadable : ∀ o ∈ outputs, Readable s o.path)
    (hstale : ∃ o ∈ outputs, ¬ o.IsHeld s) :
    runOn (compare outputs) s = (.error (.outOfDate (stalePaths s outputs)), s) := by
  obtain ⟨o, ho, hheld⟩ := hstale
  have hsome : o ∈ outputs.filter (¬ ·.IsHeld s) := List.mem_filter.mpr ⟨ho, by simpa using hheld⟩
  rw [compare, runOn_bind, staleOutputs_of_readable hreadable]
  dsimp only
  rw [if_neg]
  · rfl
  · intro hempty
    rw [List.isEmpty_iff, stalePaths, List.map_eq_nil_iff] at hempty
    rw [hempty] at hsome
    cases hsome

theorem compare_of_unreadable {before after : List Output} {o : Output}
    (hbefore : ∀ earlier ∈ before, Readable s earlier.path) (h : Unreadable s o.path reason) :
    runOn (compare (before ++ o :: after)) s = (.error (.unreadable o.path reason), s) := by
  rw [compare, runOn_bind, staleOutputs_of_unreadable hbefore h]

theorem exists_compare_unreadable (h : ¬ ∀ o ∈ outputs, Readable s o.path) :
    ∃ before o after reason, outputs = before ++ o :: after ∧
      (∀ earlier ∈ before, Readable s earlier.path) ∧ Unreadable s o.path reason ∧
      runOn (compare outputs) s = (.error (.unreadable o.path reason), s) := by
  obtain ⟨before, o, after, reason, rfl, hbefore, ho⟩ := exists_first_unreadable h
  exact ⟨before, o, after, reason, rfl, hbefore, ho, compare_of_unreadable hbefore ho⟩

theorem compare_eq_ok :
    (∃ text, runOn (compare outputs) s = (.ok text, s)) ↔ ∀ o ∈ outputs, o.IsHeld s := by
  refine ⟨?_, fun h => ⟨_, compare_of_held h⟩⟩
  rintro ⟨text, hrun⟩
  by_contra hheld
  by_cases hreadable : ∀ o ∈ outputs, Readable s o.path
  · rw [compare_of_stale hreadable (by simpa using hheld)] at hrun
    cases hrun
  · obtain ⟨before, o, after, reason, -, -, -, hfails⟩ := exists_compare_unreadable hreadable
    rw [hfails] at hrun
    cases hrun

variable {o : GenerateOptions} {c : ResolvedCatalog}

/-- A run that compares succeeds exactly if the file of every output holds its
text. If some file is missing or different and all the others can be compared, its
message lists the paths of all such files in their order, and otherwise it names the
first path that can be compared with no text. -/
theorem generate_compares (hcheck : o.check = true) (hprepare : runOn o.prepare s = (.ok c, s)) :
    (∃ tables, List.Forall₂ (o.IsTableOf c) c.languages tables ∧
      o.outputs c = tables ++ [o.moduleOutput c]) ∧
    ((∃ text, runOn o.generate s = (.ok text, s)) ↔ ∀ output ∈ o.outputs c, output.IsHeld s) ∧
    ((∀ output ∈ o.outputs c, Readable s output.path) →
      (∃ output ∈ o.outputs c, ¬ output.IsHeld s) →
      ∃ e, runOn o.generate s = (.error e, s) ∧ e = .outOfDate (stalePaths s (o.outputs c)) ∧
        e.message = "Generated files are out of date: " ++
          ", ".intercalate (stalePaths s (o.outputs c))) ∧
    ((¬ ∀ output ∈ o.outputs c, Readable s output.path) →
      ∃ before output after reason e, o.outputs c = before ++ output :: after ∧
        (∀ earlier ∈ before, Readable s earlier.path) ∧ Unreadable s output.path reason ∧
        runOn o.generate s = (.error e, s) ∧ e = .unreadable output.path reason ∧
        e.message =
          "Failed to read " ++ output.path ++ ": " ++ ("I/O error: " ++ reason.message)) := by
  rw [generate_eq_compare hcheck hprepare]
  refine ⟨outputs_of_prepare hprepare, compare_eq_ok, fun hreadable hstale => ?_,
    fun hreadable => ?_⟩
  · exact ⟨_, compare_of_stale hreadable hstale, rfl, rfl⟩
  · obtain ⟨before, output, after, reason, houtputs, hbefore, houtput, hrun⟩ :=
      exists_compare_unreadable hreadable
    exact ⟨before, output, after, reason, _, houtputs, hbefore, houtput, hrun, rfl, rfl⟩

end GenerateOptions

end

/-- The small catalog, compared with what is there. -/
def GenerateOptions.smallCheck : GenerateOptions := { GenerateOptions.small with check := true }

/-- Before anything is written all three files are missing. A directory in the place
of a file cannot be compared. -/
theorem GenerateOptions.smallCheck_generate_compares :
    (∃ e, runOn smallCheck.generate FileTree.twoLanguages = (.error e, FileTree.twoLanguages) ∧
      e = .outOfDate ["./en.lproj/Localizable.strings", "./de.lproj/Localizable.strings",
        "./Localization.swift"] ∧
      e.message = "Generated files are out of date: ./en.lproj/Localizable.strings, " ++
        "./de.lproj/Localizable.strings, ./Localization.swift") ∧
    ∃ e, runOn smallCheck.generate FileTree.blocked = (.error e, FileTree.blocked) ∧
      e = .unreadable "./Localization.swift" .isDirectory ∧
      e.message = "Failed to read ./Localization.swift: I/O error: Is a directory (os error 21)" := by
  constructor
  · obtain ⟨c, hprepare⟩ :=
      exists_prepared_of_isOk (o := smallCheck) (t := FileTree.twoLanguages) (by decide +kernel)
    have hlanguages : c.languages = ["en", "de"] :=
      languages_of_prepare hprepare (by decide +kernel)
    have hpaths : (smallCheck.outputs c).map (·.path) = ["./en.lproj/Localizable.strings",
        "./de.lproj/Localizable.strings", "./Localization.swift"] := by
      rw [paths_of_prepare hprepare, hlanguages]
      rfl
    have hfree : ∀ path ∈ ["./en.lproj/Localizable.strings", "./de.lproj/Localizable.strings",
        "./Localization.swift"], readAt FileTree.twoLanguages path = .error .notFound := by
      decide +kernel
    have hmissing : ∀ output ∈ smallCheck.outputs c,
        readAt FileTree.twoLanguages output.path = .error .notFound :=
      fun output houtput => hfree output.path (hpaths ▸ List.mem_map_of_mem houtput)
    have hnot : ∃ output ∈ smallCheck.outputs c, ¬ output.IsHeld FileTree.twoLanguages :=
      exists_not_isHeld (by simp [hpaths]) (hfree "./Localization.swift" (by simp))
    obtain ⟨-, -, hstale, -⟩ := generate_compares rfl hprepare
    have hrun := hstale (fun output houtput => .inl (hmissing output houtput)) hnot
    rw [stalePaths_of_missing hmissing, hpaths] at hrun
    exact hrun
  · obtain ⟨c, hprepare⟩ :=
      exists_prepared_of_isOk (o := smallCheck) (t := FileTree.blocked) (by decide +kernel)
    have hlanguages : c.languages = ["en"] := languages_of_prepare hprepare (by decide +kernel)
    have hpaths : (smallCheck.outputs c).map (·.path) =
        ["./en.lproj/Localizable.strings", "./Localization.swift"] := by
      rw [paths_of_prepare hprepare, hlanguages]
      rfl
    have hfree : readAt FileTree.blocked "./en.lproj/Localizable.strings" = .error .notFound := by
      decide +kernel
    have hdirectory : readAt FileTree.blocked "./Localization.swift" = .error .isDirectory := by
      decide +kernel
    have hnot : ¬ ∀ output ∈ smallCheck.outputs c, Readable FileTree.blocked output.path :=
      not_forall_readable (by simp [hpaths]) (.failed hdirectory (by decide))
    obtain ⟨-, -, -, hunreadable⟩ := generate_compares rfl hprepare
    obtain ⟨before, output, after, reason, e, houtputs, -, houtput, hrun, he, hmessage⟩ :=
      hunreadable hnot
    have hmem : output.path ∈ (smallCheck.outputs c).map (·.path) :=
      List.mem_map_of_mem (by simp [houtputs])
    have hpath : output.path = "./Localization.swift" := by
      rw [hpaths, List.mem_pair] at hmem
      rcases hmem with htable | hmodule
      · rw [htable] at houtput
        exact absurd (.inl hfree) houtput.not_readable
      · exact hmodule
    rw [hpath] at houtput he hmessage
    obtain rfl := houtput.eq_of_readAt hdirectory
    exact ⟨e, hrun, he, hmessage⟩

end Phrasebook
