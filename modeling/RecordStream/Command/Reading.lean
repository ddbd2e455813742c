import RecordStream.Command.Execution
import RecordStream.Command.Registry
import RecordStream.Command.Writing

/-!
# Reading commands

A command is read by its descriptor: the registry makes a fresh command of the
type, which is then filled from the body.  The children of a composite are read
in the same way, so reading follows the nesting of the record.  Every level of
nesting takes the head of a composite off the buffer, hence an allowance of
nesting that depends on the number of unread bytes is never used up.

Filling a composite is all or nothing; a leaf whose own fields cannot be read
keeps them and has the core that was read.
-/

namespace RecordStream

namespace Outcome

/-- An outcome whose subject is taken over only if there was no fault. -/
def ofResult {τ ε : Type} (old : τ) (f : ε → τ) :
    EStateM.Result Fault Buffer ε → Outcome τ Buffer
  | .ok a b => ⟨f a, b, none⟩
  | .error fault b => ⟨old, b, some fault⟩

/-- The subject as a result. -/
def toResult {τ σ : Type} (o : Outcome τ σ) : EStateM.Result Fault σ τ :=
  match o.fault? with
  | none => .ok o.subject o.world
  | some fault => .error fault o.world

end Outcome

namespace Command

variable {α : Type} [Recorded α]

/-- Reads `n` commands. -/
def readMany (child : Stream (Command α)) : Nat → Stream (List (Command α))
  | 0 => pure []
  | n + 1 => do
    let c ← child
    let cs ← readMany child n
    return c :: cs

/-- Reads core and children of a composite that has room for `capacity` of them. -/
def readComposite (child : Stream (Command α)) (capacity : Nat) :
    Stream (Core × List (Command α)) := do
  let core ← Core.read
  let count ← Stream.read countLayout
  if count.toNat > capacity then throw (.capacityExceeded capacity)
  let children ← readMany child count.toNat
  return (core, children)

/-- Reads a body into a command. -/
def fill (child : Stream (Command α)) (target : Command α) (b : Buffer) :
    Outcome (Command α) Buffer :=
  match target with
  | .null _ => .ofResult target .null (Core.read b)
  | .leaf _ action =>
    match Core.read b with
    | .ok core b =>
      .ofResult (.leaf core action) (.leaf core) (Stream.read (Recorded.fields action) b)
    | .error fault b => ⟨target, b, some fault⟩
  | .composite _ capacity _ =>
    .ofResult target (fun p => .composite p.1 capacity p.2) (readComposite child capacity b)

end Command

namespace Registry

variable {α : Type} [Recorded α]

/-- A fresh command of the type that a record was found to be of; it has to be of the
version that was found, too. -/
def instantiate (r : Registry α) (found : Descriptor) : Except Fault (Command α) :=
  match r.create? found with
  | none => .error (.unknownType found.fullName)
  | some c =>
    if c.descriptor = found then .ok c
    else .error (.typeMismatch c.descriptor.text found.text)

/-- Reads a command of any registered type that is nested at most `limit` deep. -/
def readWithin (r : Registry α) : Nat → Stream (Command α)
  | 0 => throw (.misuse .nestingExceeded)
  | limit + 1 => do
    let found ← Stream.readDescriptor
    match r.instantiate found with
    | .ok c => fun b => (c.fill (r.readWithin limit) b).toResult
    | .error fault => throw fault

/-- The number of bytes in front of the children of a composite. -/
def compositeHeadSize : Nat :=
  Descriptor.layout.size + Core.recordSize + Command.countLayout.size

/-- Reads a command of any registered type. -/
def readCommand (r : Registry α) : Stream (Command α) := fun b =>
  r.readWithin (b.remaining / compositeHeadSize + 1) b

/-- Reads the body of a command into it. -/
def fill (r : Registry α) (target : Command α) (b : Buffer) : Outcome (Command α) Buffer :=
  target.fill r.readCommand b

/-- Reads a record into a command of its type. -/
def readInto (r : Registry α) (target : Command α) (b : Buffer) : Outcome (Command α) Buffer :=
  match Stream.verify target.descriptor b with
  | .ok _ b => r.fill target b
  | .error fault b => ⟨target, b, some fault⟩

end Registry

end RecordStream
