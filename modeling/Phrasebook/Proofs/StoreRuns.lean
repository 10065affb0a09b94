-- Runs of the actions of a store with a state. What reads leaves the state as it
-- was, and what writes a file makes the directories above it first.
import Phrasebook.CatalogFile
import Phrasebook.Proofs.FileTrees

namespace Phrasebook

variable {σ : Type} {α β : Type}

/-! ## Stores -/

/-- What an action gives, and the state that it leaves. -/
def actOn (action : StateM σ α) (s : σ) : α × σ := action.run s

/-- What leaves every state as it was. -/
def Looks (action : StateM σ α) : Prop := ∀ s, (actOn action s).2 = s

theorem actOn_bind (action : StateM σ α) (next : α → StateM σ β) (s : σ) :
    actOn (action >>= next) s = actOn (next (actOn action s).1) (actOn action s).2 := rfl

theorem Looks.pure (a : α) : Looks (Pure.pure a : StateM σ α) := fun _ => rfl

theorem Looks.bind {action : StateM σ α} {next : α → StateM σ β} (h : Looks action)
    (hnext : ∀ a, Looks (next a)) : Looks (action >>= next) := by
  intro s
  rw [actOn_bind, hnext, h]

/-- A store with a state that shows a tree of files. Looking at something leaves
the state as it was, and so does what fails; a directory is made where there
was nothing. -/
class LawfulStore (σ : Type) [FileStore (StateM σ)] where
  tree : σ → FileTree
  kind?_looks (path : String) : Looks (FileStore.kind? path : StateM σ _)
  read_looks (path : String) : Looks (FileStore.read path : StateM σ _)
  write_error {path : String} {content : ByteArray} {e : FileError} {s s' : σ} :
    actOn (FileStore.write path content) s = (.error e, s') → s' = s
  makeDirectory_error {path : String} {e : FileError} {s s' : σ} :
    actOn (FileStore.makeDirectory path) s = (.error e, s') → s' = s
  makeDirectory_ok {path : String} {s s' : σ} :
    actOn (FileStore.makeDirectory path) s = (.ok (), s') →
      (tree s).AddsDirectories (tree s')

namespace FileTree

theorem commit_eq_error {change : FileTree → Except FileError FileTree} {t t' : FileTree}
    {e : FileError} (h : actOn (commit change) t = (.error e, t')) : t' = t := by
  unfold actOn StateT.run commit at h
  split at h
  · cases h
  · cases h
    rfl

theorem commit_eq_ok {change : FileTree → Except FileError FileTree} {t t' : FileTree}
    (h : actOn (commit change) t = (.ok (), t')) : change t = .ok t' := by
  unfold actOn StateT.run commit at h
  split at h
  · rename_i hchange
    cases h
    exact hchange
  · cases h

instance : LawfulStore FileTree where
  tree t := t
  kind?_looks _ _ := rfl
  read_looks _ _ := rfl
  write_error h := commit_eq_error h
  makeDirectory_error h := commit_eq_error h
  makeDirectory_ok h := makeDirectory_eq_ok (commit_eq_ok h)

end FileTree

/-! ## Reading -/

section

variable [FileStore (StateM σ)]

/-- What there is at a path in a state. -/
def kindAt (s : σ) (path : String) : Option FileKind := (actOn (FileStore.kind? path) s).1

/-- What reading a path gives in a state. -/
def readAt (s : σ) (path : String) : Except FileError ByteArray :=
  (actOn (FileStore.read path) s).1

variable [LawfulStore σ]

open LawfulStore

theorem kind?_run (s : σ) (path : String) :
    actOn (FileStore.kind? path) s = (kindAt s path, s) := Prod.ext rfl (kind?_looks path s)

theorem read_run (s : σ) (path : String) :
    actOn (FileStore.read path) s = (readAt s path, s) :=
  Prod.ext rfl (LawfulStore.read_looks path s)

/-- A catalog is told by its format and by the bytes of its file. -/
theorem readFrom_run (path : String) (given : Option Format) (s : σ) :
    actOn (Catalog.readFrom path given) s =
      (given.elim (Format.ofPath path) .ok >>= fun format =>
        (readAt s path).mapError .file >>= Catalog.ofBytes format, s) := by
  unfold Catalog.readFrom
  cases given.elim (Format.ofPath path) .ok with
  | error e => rfl
  | ok format =>
    dsimp only
    rw [actOn_bind, read_run]
    cases readAt s path with
    | error e => rfl
    | ok bytes => rfl

theorem readFrom_looks (path : String) (format : Option Format) :
    Looks (Catalog.readFrom path format : StateM σ _) :=
  fun s => congrArg Prod.snd (readFrom_run path format s)

theorem isDirectory_looks (path : String) : Looks (FileStore.isDirectory path : StateM σ _) :=
  Looks.bind (kind?_looks path) fun _ => Looks.pure _

theorem holdsText_looks (path text : String) :
    Looks (FileStore.holdsText path text : StateM σ _) := by
  unfold FileStore.holdsText
  apply Looks.bind (LawfulStore.read_looks path)
  intro found
  split
  · exact Looks.pure _
  · exact Looks.pure _
  · split
    · exact Looks.pure _
    · exact Looks.pure _

end

/-! ## Writing -/

section

variable [FileStore (StateM σ)]

theorem writeText_run (path text : String) (s : σ) :
    actOn (FileStore.writeText path text) s =
      match actOn (FileStore.ensureDirectories (Path.parents path)) s with
      | (.ok (), s₁) => actOn (FileStore.write path text.toUTF8) s₁
      | (.error e, s₁) => (.error e, s₁) := by
  unfold FileStore.writeText
  rw [actOn_bind]
  rcases actOn (FileStore.ensureDirectories (Path.parents path)) s
    with ⟨_ | ⟨⟨⟩⟩, s₁⟩
  · rfl
  · rfl

variable [LawfulStore σ]

open LawfulStore

/-- What makes directories where there was nothing, and changes nothing else. -/
def MakesDirectories (action : StateM σ α) : Prop :=
  ∀ s, (tree s).AddsDirectories (tree (actOn action s).2)

theorem Looks.makesDirectories {action : StateM σ α} (h : Looks action) :
    MakesDirectories action := by
  intro s
  rw [h s]
  exact .refl (tree s)

theorem MakesDirectories.bind {action : StateM σ α} {next : α → StateM σ β}
    (h : MakesDirectories action) (hnext : ∀ a, MakesDirectories (next a)) :
    MakesDirectories (action >>= next) :=
  fun s => (h s).trans (hnext (actOn action s).1 (actOn action s).2)

theorem makeDirectory_makesDirectories (path : String) :
    MakesDirectories (FileStore.makeDirectory path : StateM σ _) := by
  intro s
  rcases hrun : actOn (FileStore.makeDirectory path) s with ⟨e | ⟨⟨⟩⟩, s'⟩
  · obtain rfl := makeDirectory_error hrun
    exact .refl (tree s')
  · exact makeDirectory_ok hrun

theorem ensureDirectory_makesDirectories (path : String) :
    MakesDirectories (FileStore.ensureDirectory path : StateM σ _) := by
  unfold FileStore.ensureDirectory
  apply MakesDirectories.bind (makeDirectory_makesDirectories path)
  intro made
  apply Looks.makesDirectories
  split
  · exact Looks.pure _
  · exact Looks.bind (isDirectory_looks path) fun _ => Looks.pure _

theorem ensureDirectories_makesDirectories (paths : List String) :
    MakesDirectories (FileStore.ensureDirectories paths : StateM σ _) := by
  induction paths with
  | nil => exact (Looks.pure _).makesDirectories
  | cons path outer ih =>
    unfold FileStore.ensureDirectories
    apply MakesDirectories.bind (makeDirectory_makesDirectories path)
    intro made
    split
    · exact (Looks.pure _).makesDirectories
    · apply MakesDirectories.bind ih
      intro above
      split
      · exact ensureDirectory_makesDirectories path
      · exact (Looks.pure _).makesDirectories
    · apply Looks.makesDirectories
      exact Looks.bind (isDirectory_looks path) fun _ => Looks.pure _

/-- Writing a file that fails may have made directories. -/
theorem writeText_eq_error {path text : String} {e : FileError} {s s' : σ}
    (h : actOn (FileStore.writeText path text) s = (.error e, s')) :
    (tree s).AddsDirectories (tree s') := by
  have hmade := ensureDirectories_makesDirectories (Path.parents path) s
  rw [writeText_run] at h
  rcases hrun : actOn (FileStore.ensureDirectories (Path.parents path)) s
    with ⟨_ | ⟨⟨⟩⟩, s₁⟩
  · rw [hrun] at h hmade
    cases h
    exact hmade
  · rw [hrun] at h hmade
    obtain rfl := write_error h
    exact hmade

theorem writeText_eq_ok {path text : String} {s s' : σ}
    (h : actOn (FileStore.writeText path text) s = (.ok (), s')) :
    ∃ s₁, (tree s).AddsDirectories (tree s₁) ∧
      actOn (FileStore.write path text.toUTF8) s₁ = (.ok (), s') := by
  have hmade := ensureDirectories_makesDirectories (Path.parents path) s
  rw [writeText_run] at h
  rcases hrun : actOn (FileStore.ensureDirectories (Path.parents path)) s
    with ⟨_ | ⟨⟨⟩⟩, s₁⟩
  · rw [hrun] at h
    cases h
  · rw [hrun] at h hmade
    exact ⟨s₁, hmade, h⟩

end

end Phrasebook
