/-
  Disks that do what they document.

  A program sees the files of a disk through its operations only, and each of these may fail at any
  time.  What can be relied on is what the operations document.

  1. **Effects** — `Performs files run effect`: the run has this effect on the files if it
     succeeds, and none if it fails.
  2. **Documented disks** — on `files`, a view of the state, each operation performs what the
     operation of that name does to a `FileSystem`.  A write is the exception: it may fail after a
     part of the bytes has reached the file.  The disk of a `FileSystem` is one of these disks, with
     a limit on the size of files or without (`documented_disk`).
  3. **Making directories** — on any such disk, `makeDirectories` adds some of the directories it
     is asked for and changes nothing else, whether it succeeds or not.
  4. **Writing** — an open file accounts for the bytes that it takes (`accounts_file`).
-/
import Folio.Proofs.Accounts
import Folio.Proofs.FileSystems

namespace Folio

open FileSystem (AddsDirectories)

variable {m : Type → Type} [Monad m] {φ σ α ε : Type} [Stateful m σ] {files : σ → FileSystem}

/-! ## Effects -/

/-- The run has an effect on the files if it succeeds, and none if it fails. -/
structure Performs (files : σ → FileSystem) (run : ExceptT ε m α)
    (effect : FileSystem → α → FileSystem → Prop) : Prop where
  ok {value : α} {s s' : σ} :
    outcome run s = (.ok value, s') → effect (files s) value (files s')
  error {error : ε} {s s' : σ} : outcome run s = (.error error, s') → files s' = files s

/-! ## Documented disks -/

/-- Each operation of a disk does to its files what it says, and a message does nothing to them.
    A write adds the bytes at the end of the file that is open, or if it fails, those of them that
    were taken before.  An open file is told by its number. -/
structure Disk.Documented [Journal m] (disk : Disk φ m) (files : σ → FileSystem)
    (number : φ → Nat) : Prop where
  isDirectory (path : Path) (s : σ) : files (steps (disk.isDirectory path) s).2 = files s
  makeDirectory (path : Path) : Performs files (disk.makeDirectory path) fun old _ new =>
    old.makeDirectory path = .ok new
  create (path : Path) : Performs files (disk.create path) fun old file new =>
    old.create path = .ok (number file, new)
  write (file : φ) (bytes held : ByteArray) (s : σ) : (files s).contents[number file]? = some held →
    files (outcome (disk.write file bytes) s).2 = (files s).fill (number file)
      (held ++ taken bytes (outcome (disk.write file bytes) s).1)
  remove (path : Path) : Performs files (disk.remove path) fun old _ new =>
    old.remove path = .ok new
  note (message : Message) (s : σ) : files (steps (note message : m Unit) s).2 = files s

/-! ## The disk of a file system -/

/-- A run on a file system that either has its effect or leaves everything as it is. -/
theorem performs_of_outcome {run : ExceptT ε (StateM FileSystem) α}
    {effect : FileSystem → α → FileSystem → Prop}
    (h : ∀ old, (∃ value new, effect old value new ∧ outcome run old = (.ok value, new)) ∨
      ∃ error, outcome run old = (.error error, old)) : Performs id run effect where
  ok {value old new} hok := by
    rcases h old with ⟨value', new', heffect, hrun⟩ | ⟨error, hrun⟩
    · cases hok.symm.trans hrun
      exact heffect
    · cases hok.symm.trans hrun
  error {error old new} herror := by
    rcases h old with ⟨value, new', -, hrun⟩ | ⟨error', hrun⟩
    · cases herror.symm.trans hrun
    · cases herror.symm.trans hrun
      rfl

theorem outcome_changing (change : FileSystem → Except IoError FileSystem) (old : FileSystem) :
    outcome (FileSystem.changing change : ExceptT IoError (StateM FileSystem) Unit) old =
      match change old with
      | .ok new => (.ok (), new)
      | .error error => (.error error, old) := by
  have hrun : outcome (FileSystem.changing change : ExceptT IoError (StateM FileSystem) Unit) old =
      outcome (settle (change old) >>= fun new => set new :
        ExceptT IoError (StateM FileSystem) Unit) old := rfl
  rw [hrun, outcome_bind, outcome_settle]
  cases change old with
  | ok new => rfl
  | error error => rfl

theorem performs_changing (change : FileSystem → Except IoError FileSystem) :
    Performs id (FileSystem.changing change : ExceptT IoError (StateM FileSystem) Unit)
      fun old _ new => change old = .ok new := by
  refine performs_of_outcome fun old => ?_
  rw [outcome_changing]
  cases hchange : change old with
  | ok new => exact .inl ⟨(), new, rfl, rfl⟩
  | error error => exact .inr ⟨error, rfl⟩

theorem outcome_create (path : Path) (old : FileSystem) :
    outcome ((FileSystem.disk : Disk Nat (StateM FileSystem)).create path) old =
      match old.create path with
      | .ok (number, new) => (.ok number, new)
      | .error error => (.error error, old) := by
  have hrun : outcome ((FileSystem.disk : Disk Nat (StateM FileSystem)).create path) old =
      outcome (settle (old.create path) >>= fun created => do
        set created.2
        return created.1 : ExceptT IoError (StateM FileSystem) Nat) old := rfl
  rw [hrun, outcome_bind, outcome_settle]
  cases old.create path with
  | ok created => rfl
  | error error => rfl

theorem performs_create (path : Path) :
    Performs id ((FileSystem.disk : Disk Nat (StateM FileSystem)).create path)
      fun old number new => old.create path = .ok (number, new) := by
  refine performs_of_outcome fun old => ?_
  rw [outcome_create]
  cases hcreate : old.create path with
  | ok created => exact .inl ⟨created.1, created.2, rfl, rfl⟩
  | error error => exact .inr ⟨error, rfl⟩

/-- What is written is what was taken. -/
theorem write_eq_fill {old : FileSystem} {number : Nat} {bytes held : ByteArray}
    (h : old.contents[number]? = some held) :
    (old.write number bytes).2 =
      old.fill number (held ++ taken bytes (old.write number bytes).1) := by
  rw [FileSystem.write, h]
  simp only
  split
  · rfl
  · rfl

theorem outcome_write (number : Nat) (bytes : ByteArray) (old : FileSystem) :
    outcome ((FileSystem.disk : Disk Nat (StateM FileSystem)).write number bytes) old =
      old.write number bytes := rfl

/-- **The disk of a file system** does what it documents. -/
theorem documented_disk :
    (FileSystem.disk : Disk Nat (StateM FileSystem)).Documented id id where
  isDirectory _ _ := rfl
  makeDirectory path := performs_changing fun files => files.makeDirectory path
  create := performs_create
  write number bytes held old h := by
    rw [outcome_write]
    exact write_eq_fill h
  remove path := performs_changing fun files => files.remove path
  note _ _ := rfl

/-! ## Making directories -/

namespace Disk.Documented

variable [Journal m] {disk : Disk φ m} {number : φ → Nat} {path : Path} {paths : List Path}
  (h : disk.Documented files number)

include h

theorem addsDirectories_makeDirectory (hpath : path ∈ paths) (s : σ) :
    AddsDirectories paths (files s) (files (outcome (disk.makeDirectory path) s).2) := by
  rcases outcome_cases (disk.makeDirectory path) s with ⟨_, s', hmade⟩ | ⟨error, s', hmade⟩
  · have hnew := (h.makeDirectory path).ok hmade
    rw [hmade]
    exact .makeDirectory hnew hpath
  · have hsame := (h.makeDirectory path).error hmade
    rw [hmade, hsame]
    exact .refl paths (files s)

/-- Looking whether a directory is there, and failing if it is not, changes nothing. -/
theorem files_unlessDirectory (path : Path) (error : IoError) (s : σ) :
    files (outcome (do if ← disk.isDirectory path then return else throw error :
      ExceptT IoError m Unit) s).2 = files s := by
  have hdirectory := h.isDirectory path s
  rw [outcome_bind, outcome_liftM]
  simp only
  split
  · rw [outcome_pure]
    exact hdirectory
  · rw [outcome_throw]
    exact hdirectory

theorem addsDirectories_ensureDirectory (hpath : path ∈ paths) (s : σ) :
    AddsDirectories paths (files s) (files (outcome (disk.ensureDirectory path) s).2) := by
  have hmade := h.addsDirectories_makeDirectory hpath s
  unfold Disk.ensureDirectory
  rw [outcome_bind, outcome_observe]
  simp only
  cases (outcome (disk.makeDirectory path) s).1 with
  | ok _ =>
    rw [outcome_pure]
    exact hmade
  | error error =>
    rw [h.files_unlessDirectory]
    exact hmade

/-- **Making directories** adds some of those that are asked for. -/
theorem addsDirectories_makeDirectories (paths : List Path) : ∀ s : σ,
    AddsDirectories paths (files s) (files (outcome (disk.makeDirectories paths) s).2) := by
  induction paths with
  | nil =>
    intro s
    unfold Disk.makeDirectories
    rw [outcome_pure]
    exact .refl [] (files s)
  | cons path above ih =>
    intro s
    have hpath : path ∈ path :: above := List.mem_cons_self
    have hmade := h.addsDirectories_makeDirectory hpath s
    unfold Disk.makeDirectories
    rw [outcome_bind, outcome_observe]
    simp only
    cases (outcome (disk.makeDirectory path) s).1 with
    | ok _ =>
      rw [outcome_pure]
      exact hmade
    | error error =>
      cases error with
      | notFound =>
        -- the directory above was missing; it is made, and then this one
        have habove := hmade.trans ((ih (outcome (disk.makeDirectory path) s).2).mono
          fun _ hmem => List.mem_cons_of_mem path hmem)
        simp only
        rcases outcome_cases (disk.makeDirectories above) (outcome (disk.makeDirectory path) s).2
          with ⟨_, s', hanswer⟩ | ⟨error, s', hanswer⟩
        · rw [hanswer] at habove
          rw [outcome_bind_of_ok hanswer]
          exact habove.trans (h.addsDirectories_ensureDirectory hpath s')
        · rw [hanswer] at habove
          rw [outcome_bind_of_error hanswer]
          exact habove
      | _ =>
        rw [h.files_unlessDirectory]
        exact hmade

/-! ## Writing -/

/-- **An open file accounts for its bytes.** -/
theorem accounts_file {opened : FileSystem} {file : φ}
    (hopened : number file < opened.contents.length) :
    (Sink.file disk file).Accounts fun total s => files s = opened.fill (number file) total where
  write total bytes s htotal := by
    have hheld : (files s).contents[number file]? = some total := by
      rw [htotal]
      exact List.getElem?_set_self hopened
    have hwrite := h.write file bytes total s hheld
    rw [htotal, FileSystem.fill_fill] at hwrite
    exact hwrite
  flush total s htotal := by
    show files (outcome (pure () : ExceptT IoError m Unit) s).2 = _
    rw [outcome_pure, htotal]
  note total message s htotal := by rw [h.note, htotal]

end Disk.Documented

end Folio
