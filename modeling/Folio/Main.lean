/-
  The program: the command line over the real file system and standard output.
-/
import Folio.CommandLine.Run

namespace Folio.Main

/-- A system failure as an error of this library. -/
def ioError : IO.Error → IoError
  | .noFileOrDirectory .. | .noSuchThing .. => .notFound
  | .alreadyExists .. => .alreadyExists
  | .inappropriateType _ code _ => if code = 21 then .isADirectory else .notADirectory
  | error => .other (toString error)

/-- Runs an action, keeping its failure as a value. -/
def attempt (action : IO α) : ExceptT IoError IO α :=
  ExceptT.mk do
    match ← action.toBaseIO with
    | .ok value => return .ok value
    | .error error => return .error (ioError error)

/-- Runs a write.  The system does not say how much of it was done before a failure. -/
def attemptWrite (action : IO Unit) : ExceptT WriteFailure IO Unit :=
  (attempt action).adapt (⟨0, ·⟩)

/-- The file system that the program runs on. -/
def disk : Disk IO.FS.Handle IO where
  read path := attempt (IO.FS.readBinFile path.text)
  isDirectory path := do
    match ← (do (← IO.FS.realPath path.text).isDir : IO Bool).toBaseIO with
    | .ok answer => return answer
    | .error _ => return false
  makeDirectory path := attempt (IO.FS.createDir path.text)
  create path := attempt (IO.FS.Handle.mk path.text .write)
  write file bytes := attemptWrite (file.write bytes)
  remove path := attempt (IO.FS.removeFile path.text)

/-- Standard output. -/
def standardOutput : Sink IO where
  write bytes := attemptWrite do (← IO.getStdout).write bytes
  flush := attempt do (← IO.getStdout).flush

/-- The program keeps no log. -/
instance : Journal IO := ⟨fun _ => return⟩

end Folio.Main

open Folio Folio.Main in
/-- Carries out the command line and reports what went wrong on standard error. -/
def main (arguments : List String) : IO UInt32 := do
  let outcome ← CommandLine.run disk standardOutput arguments
  match outcome with
  | .success => pure ()
  | .failure error => IO.eprintln s!"Error: {error.message}"
  | .misuse => IO.eprint CommandLine.usage
  return outcome.exitCode.toUInt32
