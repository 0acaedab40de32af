/-
  What a program needs of a file system.

  A `Disk` is a set of operations in some monad; `φ` is the type of its handles to files that are
  open for writing.  `Disk.makeDirectories` is the one operation built from the others.
-/
import Folio.Files.Path
import Folio.IoError

namespace Folio

/-- The operations on files and directories. -/
structure Disk (φ : Type) (m : Type → Type) where
  /-- The bytes of a file. -/
  read : Path → ExceptT IoError m ByteArray
  isDirectory : Path → m Bool
  /-- Makes one directory in an existing one. -/
  makeDirectory : Path → ExceptT IoError m Unit
  /-- Opens a file for writing; it is new or made empty. -/
  create : Path → ExceptT IoError m φ
  /-- Writes bytes behind those that were written before; a failure may come in the middle. -/
  write : φ → ByteArray → ExceptT WriteFailure m Unit
  /-- Removes a file, or a link in place of what it leads to. -/
  remove : Path → ExceptT IoError m Unit

variable {φ : Type} {m : Type → Type} [Monad m]

/-- Makes a directory that may be there already. -/
def Disk.ensureDirectory (disk : Disk φ m) (path : Path) : ExceptT IoError m Unit := do
  match ← observe (disk.makeDirectory path) with
  | .ok () => return
  | .error error => if ← disk.isDirectory path then return else throw error

/-- Makes the first of these directories.  Each of the others contains the one before it, and is
    made first where it is missing. -/
def Disk.makeDirectories (disk : Disk φ m) : List Path → ExceptT IoError m Unit
  | [] => return
  | path :: above => do
    match ← observe (disk.makeDirectory path) with
    | .ok () => return
    | .error .notFound => do
      disk.makeDirectories above
      disk.ensureDirectory path
    | .error error => if ← disk.isDirectory path then return else throw error

end Folio
