import RecordStream.Settings.Json
import RecordStream.Storage.Basic
import RecordStream.Text.Utf8

/-!
# Between buffers and files

Files are kept by a system that writes and opens them, or refuses to.  `Storage` is one,
and nothing here depends on which one it is.

A file holds the bytes that were written to a buffer and nothing else.  Loading
replaces the contents of a buffer as a whole or not at all, and it insists on
as many bytes as the file told before it was read.
-/

namespace RecordStream

/-- An open file: the size that it tells, and what reading it to its end gives. -/
structure File where
  size : Except StorageCause Nat
  contents : Except StorageCause Bytes

/-- A system that keeps files. -/
class FileSystem (σ : Type) where
  /-- Writes a file, in place of one that may be there. -/
  writeFile : σ → String → Bytes → Except StorageCause σ
  /-- Opens a file to be read. -/
  openFile : σ → String → Except StorageCause File

instance : FileSystem Storage where
  writeFile := Storage.put
  openFile s path := do
    let (size, contents) ← s.fetch path
    return ⟨.ok size, .ok contents⟩

/-- A refusal of the system, as a fault. -/
def onPath {m : Type → Type} [Monad m] [MonadExceptOf Fault m] {α : Type} (path : String) :
    Except StorageCause α → m α
  | .ok a => pure a
  | .error cause => throw (.storage path cause)

variable {σ : Type} [FileSystem σ]

namespace Stream

/-- Writes what was written to the buffer to a file. -/
def save (s : σ) (path : String) : Stream σ := do
  let b ← get
  onPath path (FileSystem.writeFile s path b.written)

/-- Replaces the contents of the buffer by those of a file. -/
def load (s : σ) (path : String) : Stream Unit := do
  let file ← onPath path (FileSystem.openFile s path)
  let expected ← onPath path file.size
  let bs ← onPath path file.contents
  if bs.length = expected then modify (·.load bs)
  else throw (.shortTransfer "read" path expected bs.length)

end Stream

/-- Reads valid settings from a file. -/
def Settings.ofFile (lib : JsonLibrary) (s : σ) (path : String) : Except Fault Settings := do
  let file ← onPath path (FileSystem.openFile s path)
  match Bytes.toText? (← onPath path file.contents) with
  | some text => ofJson lib text
  | none => throw (.storage path .notText)

end RecordStream
