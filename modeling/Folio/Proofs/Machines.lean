/-
  A machine with a standard output and a file system.

  Its state is what was shown so far, and the files beside it (`Machine`).  A run that has nothing
  to do with the output does to the files what it does without one.

  1. **Disks** — the disk of a machine is that of its files, beside the output
     (`beside_disk`); so is making directories on it (`Disk.Beside.makeDirectories`).
  2. **Sinks** — what a sink accounts for and takes, it does beside another state as well.
  3. **Room** — standard output takes everything, and an open file what the size limit leaves
     room for (`takes_file`).
  4. **Compiling** — what is compiled without components is the same as computed purely, and
     changes nothing (`outcome_compile_none`).
-/
import Folio.Proofs.Delivery
import Folio.Proofs.Transparency

namespace Folio

/-- A machine: what was shown on standard output, and the files. -/
abbrev Machine := StateT ByteArray (StateM FileSystem)

variable {m : Type → Type} [Monad m] {φ σ β : Type} [Stateful m σ]

/-! ## Disks -/

/-- Each operation of the one disk does what that of the other does, beside another state. -/
structure Disk.Beside (disk' : Disk φ (StateT β m)) (disk : Disk φ m) : Prop where
  read (path : Path) : Folio.Beside (disk'.read path) (disk.read path)
  isDirectory (path : Path) : Folio.Beside
    (liftM (disk'.isDirectory path) : ExceptT IoError (StateT β m) Bool)
    (liftM (disk.isDirectory path) : ExceptT IoError m Bool)
  makeDirectory (path : Path) : Folio.Beside (disk'.makeDirectory path) (disk.makeDirectory path)
  create (path : Path) : Folio.Beside (disk'.create path) (disk.create path)
  write (file : φ) (bytes : ByteArray) : Folio.Beside (disk'.write file bytes)
    (disk.write file bytes)
  remove (path : Path) : Folio.Beside (disk'.remove path) (disk.remove path)

namespace Disk.Beside

variable {disk' : Disk φ (StateT β m)} {disk : Disk φ m} (h : disk'.Beside disk)

include h

theorem unlessDirectory (path : Path) (error : IoError) :
    Folio.Beside
      (do if ← disk'.isDirectory path then return else throw error :
        ExceptT IoError (StateT β m) Unit)
      (do if ← disk.isDirectory path then return else throw error : ExceptT IoError m Unit) := by
  refine beside_bind (h.isDirectory path) fun answer => ?_
  cases answer with
  | true => exact beside_pure ()
  | false => exact beside_throw error

theorem ensureDirectory (path : Path) :
    Folio.Beside (disk'.ensureDirectory path) (disk.ensureDirectory path) := by
  refine beside_bind (beside_observe (h.makeDirectory path)) fun answer => ?_
  cases answer with
  | ok _ => exact beside_pure ()
  | error error => exact h.unlessDirectory path error

theorem makeDirectories (paths : List Path) :
    Folio.Beside (disk'.makeDirectories paths) (disk.makeDirectories paths) := by
  induction paths with
  | nil => exact beside_pure ()
  | cons path above ih =>
    unfold Disk.makeDirectories
    refine beside_bind (beside_observe (h.makeDirectory path)) fun answer => ?_
    cases answer with
    | ok _ => exact beside_pure ()
    | error error =>
      cases error with
      | notFound => exact beside_bind ih fun _ => h.ensureDirectory path
      | _ => exact h.unlessDirectory path _

end Disk.Beside

section Files

variable {ε : Type}

theorem beside_getFiles :
    Beside (getThe FileSystem : ExceptT ε (StateT β (StateM FileSystem)) FileSystem)
      (getThe FileSystem : ExceptT ε (StateM FileSystem) FileSystem) :=
  fun _ _ => rfl

theorem beside_setFiles (files : FileSystem) :
    Beside (set files : ExceptT ε (StateT β (StateM FileSystem)) PUnit)
      (set files : ExceptT ε (StateM FileSystem) PUnit) :=
  fun _ _ => rfl

theorem beside_changing (change : FileSystem → Except IoError FileSystem) :
    Beside (FileSystem.changing change : ExceptT IoError (StateT β (StateM FileSystem)) Unit)
      (FileSystem.changing change : ExceptT IoError (StateM FileSystem) Unit) :=
  beside_bind beside_getFiles fun files =>
    beside_bind (beside_settle (change files)) beside_setFiles

/-- **The disk of a machine** is the disk of its files. -/
theorem beside_disk : (FileSystem.disk : Disk Nat (StateT β (StateM FileSystem))).Beside
    (FileSystem.disk : Disk Nat (StateM FileSystem)) where
  read path := beside_bind beside_getFiles fun files => beside_settle (files.read path)
  isDirectory _ := fun _ _ => rfl
  makeDirectory path := beside_changing fun files => files.makeDirectory path
  create path := beside_bind beside_getFiles fun files =>
    beside_bind (beside_settle (files.create path)) fun created =>
      beside_bind (beside_setFiles created.2) fun _ => beside_pure created.1
  write number bytes := beside_bind beside_getFiles fun files =>
    beside_bind (beside_setFiles (files.write number bytes).2) fun _ =>
      beside_settle (files.write number bytes).1
  remove path := beside_changing fun files => files.remove path

end Files

/-! ## Sinks -/

/-- The one sink does what the other does, beside another state. -/
structure Sink.Beside (sink' : Sink (StateT β m)) (sink : Sink m) : Prop where
  write (bytes : ByteArray) : Folio.Beside (sink'.write bytes) (sink.write bytes)
  flush : Folio.Beside sink'.flush sink.flush

theorem Disk.Beside.file {disk' : Disk φ (StateT β m)} {disk : Disk φ m} (h : disk'.Beside disk)
    (file : φ) : (Sink.file disk' file).Beside (Sink.file disk file) where
  write := h.write file
  flush := beside_pure ()

namespace Sink.Beside

variable {sink' : Sink (StateT β m)} {sink : Sink m} {took : ByteArray → σ → Prop} {limit : Nat}

/-- What a sink accounts for, it accounts for beside another state. -/
theorem accounts [Journal m] (h : sink'.Beside sink) (haccounts : sink.Accounts took) (own : β) :
    sink'.Accounts fun total s => s.1 = own ∧ took total s.2 where
  write total bytes s := by
    rintro ⟨rfl, htook⟩
    rw [h.write bytes s.1 s.2]
    exact ⟨rfl, haccounts.write total bytes s.2 htook⟩
  flush total s := by
    rintro ⟨rfl, htook⟩
    rw [h.flush s.1 s.2]
    exact ⟨rfl, haccounts.flush total s.2 htook⟩
  note total message s := by
    rintro ⟨rfl, htook⟩
    rw [steps_note]
    exact ⟨rfl, haccounts.note total message s.2 htook⟩

/-- What a sink takes, it takes beside another state. -/
theorem takes (h : sink'.Beside sink) (htakes : sink.Takes took limit) (own : β) :
    sink'.Takes (fun total s => s.1 = own ∧ took total s.2) limit where
  write total bytes s := by
    rintro ⟨rfl, htook⟩ hfits
    rw [h.write bytes s.1 s.2]
    exact htakes.write total bytes s.2 htook hfits
  flush total s := by
    rintro ⟨rfl, htook⟩ hfits
    rw [h.flush s.1 s.2]
    exact htakes.flush total s.2 htook hfits

end Sink.Beside

/-! ## Room -/

@[simp] theorem outcome_write_memory (bytes : ByteArray) (s : ByteArray × σ) :
    outcome ((Sink.memory : Sink (StateT ByteArray m)).write bytes) s =
      (.ok (), (s.1 ++ bytes, s.2)) := by
  unfold Sink.memory Sink.limited
  simp only
  rw [outcome_bind, outcome_get]
  exact outcome_set _ s

@[simp] theorem outcome_flush_memory (s : ByteArray × σ) :
    outcome (Sink.memory : Sink (StateT ByteArray m)).flush s = (.ok (), s) :=
  outcome_pure () s

/-- **Standard output** is extended by what it takes. -/
theorem accounts_memory (shown : ByteArray) (files : FileSystem) :
    (Sink.memory : Sink Machine).Accounts fun total state => state = (shown ++ total, files) where
  write total bytes state := by
    rintro rfl
    rw [outcome_write_memory, ByteArray.append_assoc]
    rfl
  flush total state := by
    rintro rfl
    rw [outcome_flush_memory]
  note total message state htotal := htotal

theorem takes_memory (took : ByteArray → ByteArray × FileSystem → Prop) (limit : Nat) :
    (Sink.memory : Sink Machine).Takes took limit where
  write total bytes state _ _ := by rw [outcome_write_memory]
  flush total state _ _ := by rw [outcome_flush_memory]

/-- **An open file** takes what the size limit leaves room for. -/
theorem takes_file {opened : FileSystem} {number limit : Nat}
    (hopened : number < opened.contents.length)
    (hlimit : (opened.sizeLimit.all fun most => limit ≤ most) = true) :
    (Sink.file (FileSystem.disk : Disk Nat (StateM FileSystem)) number).Takes
      (fun total files => files = opened.fill number total) limit where
  write total bytes files := by
    rintro rfl hfits
    have hheld : (opened.fill number total).contents[number]? = some total :=
      List.getElem?_set_self hopened
    have hroom : bytes.size ≤ (opened.fill number total).room total bytes := by
      show bytes.size ≤ opened.room total bytes
      rw [ByteArray.size_append] at hfits
      unfold FileSystem.room
      cases hmost : opened.sizeLimit with
      | none => exact le_rfl
      | some most =>
        rw [hmost] at hlimit
        have hbound : limit ≤ most := of_decide_eq_true hlimit
        simp only
        omega
    show (outcome ((FileSystem.disk : Disk Nat (StateM FileSystem)).write number bytes) _).1 =
      .ok ()
    rw [outcome_write, (FileSystem.write_eq_ok_iff hheld).2 ⟨hroom, rfl⟩]
  flush total files _ _ := rfl

/-! ## Compiling -/

/-- Compiling without components changes nothing. -/
theorem outcome_compile_none (options : Options) (context : Context) (root : Element Empty)
    (state : ByteArray × FileSystem) :
    outcome (compile (Library.none : Library Empty Machine) options context root) state =
      (compilePlain options root, state) := by
  rw [compile_none_silent fun _ => rfl]
  exact outcome_settle _ state

end Folio
