/-
  Where output goes.

  A `Sink` takes bytes and can be flushed, and either can fail.  A write may fail in the middle, and
  then says how many bytes were taken before.  `Sink.limited` keeps the bytes in memory and refuses
  to hold more than a limit; `Sink.file` is an open file; `Sink.buffered` collects small writes
  before it passes them on.
-/
import Folio.Files.Disk

namespace Folio

/-- A receiver of bytes. -/
structure Sink (m : Type → Type) where
  write : ByteArray → ExceptT WriteFailure m Unit
  flush : ExceptT IoError m Unit

namespace Sink

variable {m : Type → Type} [Monad m]

/-- Writes bytes.  Whoever sends them is not told how many were taken before a failure. -/
def send (sink : Sink m) (bytes : ByteArray) : ExceptT IoError m Unit :=
  (sink.write bytes).adapt WriteFailure.cause

/-- A sink in memory that refuses to hold more bytes than the limit, if there is one, and that can
    fail when it is flushed. -/
def limited (limit : Option Nat) (flushFails : Bool) : Sink (StateT ByteArray m) where
  write bytes := do
    let held ← get
    if limit.all fun limit => held.size + bytes.size ≤ limit then set (held ++ bytes)
    else throw ⟨0, .other "limit reached"⟩
  flush := if flushFails then throw (.other "flush failed") else return

/-- A sink in memory without a limit. -/
def memory : Sink (StateT ByteArray m) := limited none false

/-- An open file.  There is nothing to flush. -/
def file (disk : Disk φ m) (handle : φ) : Sink m := ⟨disk.write handle, return⟩

/-- The size of the buffer before a file. -/
def bufferSize : Nat := 8192

/-- Passes on what a buffer holds.  If that fails, it keeps what was not taken. -/
def emptyBuffer (inner : Sink m) : ExceptT IoError (StateT ByteArray m) Unit := do
  let held ← get
  if held.size ≠ 0 then
    match ← observe (besideState (inner.write held)) with
    | .ok () => set ByteArray.empty
    | .error failure =>
      set (held.extract failure.taken held.size)
      throw failure.cause

/-- Adds bytes to a buffer.  What is larger than its capacity goes past it. -/
def store (capacity : Nat) (inner : Sink m) (bytes : ByteArray) :
    ExceptT WriteFailure (StateT ByteArray m) Unit :=
  if capacity ≤ bytes.size then besideState (inner.write bytes) else modify (· ++ bytes)

/-- A sink that collects bytes up to a capacity.  What is larger than the capacity is passed on
    directly, after what was collected before it.  If that cannot be passed on, nothing is taken. -/
def buffered (capacity : Nat) (inner : Sink m) : Sink (StateT ByteArray m) where
  write bytes := do
    if capacity < (← get).size + bytes.size then inner.emptyBuffer.adapt (⟨0, ·⟩)
    inner.store capacity bytes
  flush := do
    inner.emptyBuffer
    besideState inner.flush

/-- An open file behind a buffer. -/
def bufferedFile (disk : Disk φ m) (handle : φ) : Sink (StateT ByteArray m) :=
  (file disk handle).buffered bufferSize

end Sink

end Folio
