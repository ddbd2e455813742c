import RecordStream.Text.Quoted
import RecordStream.Bytes

/-!
# Faults

Every cause for which an operation of the library fails, and what each is called
in words.  Faults name causes; wording is left to the `message` functions, so a
caller decides by matching and shows a text only at the end.

A caller can go on from a fault, but not from a `Misuse`: that ends the whole run in which
it happens.  `attempt` makes this difference for a run of calls.
-/

namespace RecordStream

/-- A breach of what the caller has promised.  It cannot be handled: the run in which it
happens ends there and has no result. -/
inductive Misuse
  /-- A literal name is longer than a name can be. -/
  | literalTooLong
  /-- A literal name has a NUL in it. -/
  | literalHasNul
  /-- A command was added without asking whether there is room. -/
  | compositeFull (capacity : Nat)
  /-- The end of a requested span of bytes is no 64-bit position. -/
  | positionOverflow
  /-- A record is nested deeper than its reader was allowed to follow. -/
  | nestingExceeded
  deriving DecidableEq

def Misuse.message : Misuse → String
  | .literalTooLong => "identifier too long"
  | .literalHasNul => "identifier contains NUL"
  | .compositeFull capacity =>
    s!"cannot add command: composite command capacity of {capacity} exceeded"
  | .positionOverflow => "attempt to add with overflow"
  | .nestingExceeded => "nesting allowance exceeded"

/-- Why bytes or a text stand for no value. -/
inductive Malformation
  | length (expected actual : Nat)
  | boolByte (byte : UInt8)
  /-- A name has other bytes than zeros after its first zero. -/
  | nameTail
  /-- A name is not UTF-8. -/
  | nameEncoding
  | nameNul (name : String)
  /-- A reason given by the author of a layout. -/
  | reported (reason : String)
  deriving DecidableEq

def Malformation.message : Malformation → String
  | .length expected actual => s!"expected {expected} bytes, got {actual}"
  | .boolByte byte => s!"bool byte {byte.toNat}"
  | .nameTail => "identifier has bytes after its terminator"
  | .nameEncoding => "identifier is not UTF-8"
  | .nameNul name => s!"identifier {Text.quote name} contains NUL"
  | .reported reason => reason

/-- Why storage refuses an operation on a path. -/
inductive StorageCause
  | notFound
  | isDirectory
  | notDirectory
  | alreadyExists
  /-- The path cannot be a path. -/
  | invalidPath
  /-- The path is too long, or a part of it is too long to be a name. -/
  | nameTooLong
  /-- The file can be read and not written. -/
  | permissionDenied
  /-- There is no room left for the contents. -/
  | noRoom
  /-- A file that should hold text is not UTF-8. -/
  | notText
  /-- A reason given by the storage itself. -/
  | reported (reason : String)
  deriving DecidableEq

def StorageCause.message : StorageCause → String
  | .notFound => "no such file or directory"
  | .isDirectory => "is a directory"
  | .notDirectory => "not a directory"
  | .alreadyExists => "file exists"
  | .invalidPath => "path contains NUL"
  | .nameTooLong => "file name too long"
  | .permissionDenied => "permission denied"
  | .noRoom => "no space left"
  | .notText => "file is not UTF-8"
  | .reported reason => reason

/-- Why settings are refused. -/
inductive SettingsCause
  | zeroStep
  | zeroCapacity
  /-- A reason given by the user of the settings. -/
  | reported (reason : String)
  deriving DecidableEq

def SettingsCause.message : SettingsCause → String
  | .zeroStep => "id_step must be non-zero"
  | .zeroCapacity => "composite_capacity must be non-zero"
  | .reported reason => reason

/-- What is wrong with a JSON text. -/
inductive JsonFlaw
  /-- The text stops too early. -/
  | truncated
  /-- The text is no JSON. -/
  | malformed
  /-- A value is well formed and not the one that is needed. -/
  | unsuitable
  deriving DecidableEq

def JsonFlaw.message : JsonFlaw → String
  | .truncated => "unexpected end"
  | .malformed => "malformed text"
  | .unsuitable => "unsuitable value"

/-- A failure of an operation on records. -/
inductive Fault
  /-- A read asks for more bytes than a buffer has left. -/
  | underflow (offset requested available : Nat)
  /-- A record starts with another descriptor than its reader expects. -/
  | typeMismatch (expected found : String)
  /-- No command type of this name is registered. -/
  | unknownType (name : String)
  /-- A composite has no room for that many commands. -/
  | capacityExceeded (capacity : Nat)
  /-- The action of a command failed. -/
  | commandFailed (command reason : String)
  | nameTooLong (name : String) (max : Nat)
  | duplicateType (name : String)
  | storage (path : String) (cause : StorageCause)
  /-- A file has not as many bytes as storage says. -/
  | shortTransfer (operation path : String) (expected actual : Nat)
  /-- A value does not fit in its window. -/
  | writeFailed (offset : Nat) (reason : String)
  /-- A window has too few bytes for a value. -/
  | readFailed (offset : Nat) (reason : String)
  | invalidData (malformation : Malformation)
  | settings (cause : SettingsCause)
  | json (flaw : JsonFlaw)
  | misuse (breach : Misuse)
  deriving DecidableEq

namespace Fault

def message : Fault → String
  | .underflow offset requested available =>
    s!"buffer underflow at offset {offset}: requested {requested} bytes, {available} available"
  | .typeMismatch expected found => s!"type mismatch: expected {expected}, found {found}"
  | .unknownType name => s!"unknown command type: {name}"
  | .capacityExceeded capacity => s!"composite command capacity of {capacity} exceeded"
  | .commandFailed command reason => s!"command {command} failed: {reason}"
  | .nameTooLong name max => s!"identifier `{name}` is longer than {max} bytes"
  | .duplicateType name => s!"command type already registered: {name}"
  | .storage path cause => s!"I/O error on {path}: {cause.message}"
  | .shortTransfer operation path expected actual =>
    s!"short {operation} on {path}: expected {expected} bytes, got {actual}"
  | .writeFailed offset reason => s!"write failed at offset {offset}: {reason}"
  | .readFailed offset reason => s!"read failed at offset {offset}: {reason}"
  | .invalidData malformation => s!"invalid data: {malformation.message}"
  | .settings cause => s!"configuration error: {cause.message}"
  | .json flaw => s!"JSON error: {flaw.message}"
  | .misuse breach => breach.message

/-- The text of the failure behind this one, if one is known. -/
def source? : Fault → Option String
  | .storage _ cause => some cause.message
  | .json flaw => some flaw.message
  | _ => none

end Fault

/-! ## Attempts -/

/-- Calls an operation in a run of calls.  A result or a fault is the answer, and the run
goes on from the state that is left.  A misuse is no answer: it ends the run, and there
is no state to go on from. -/
def attempt {σ β : Type} (m : EStateM Fault σ β) :
    StateT σ (Except Misuse) (Except Fault β) := fun s =>
  match m s with
  | .ok b t => .ok (.ok b, t)
  | .error (.misuse breach) _ => .error breach
  | .error fault t => .ok (.error fault, t)

end RecordStream
