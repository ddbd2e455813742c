import RecordStream.Command.Reading
import RecordStream.Sample

/-!
# Entities

Whatever has a descriptor, an id and a record: objects, generators, readings and
commands.
-/

namespace RecordStream

inductive Entity (α : Type) where
  | object (o : Object)
  | generator (g : Generator)
  | reading (r : Reading)
  | command (c : Command α)

namespace Entity

variable {α : Type}

def id : Entity α → EntityId
  | .object o => o.id
  | .generator g => g.id
  | .reading r => r.id
  | .command c => c.id

/-- Whether two entities are of one type and hold the same. -/
def equals [DecidableEq α] : Entity α → Entity α → Bool
  | .object a, .object b => a = b
  | .generator a, .generator b => a = b
  | .reading a, .reading b => a = b
  | .command a, .command b => a.equals b
  | _, _ => false

variable [Recorded α]

def descriptor : Entity α → Descriptor
  | .object _ => .object
  | .generator _ => .generator
  | .reading _ => Reading.descriptor
  | .command c => c.descriptor

/-- The number of bytes of the record. -/
def recordSize : Entity α → Nat
  | .object _ => Stream.recordSize Object.layout
  | .generator _ => Stream.recordSize Generator.layout
  | .reading _ => Stream.recordSize Reading.layout
  | .command c => c.recordSize

def write : Entity α → Stream Unit
  | .object o => o.write
  | .generator g => g.write
  | .reading r => r.write
  | .command c => c.write

/-- Reads a record into an entity of its type. -/
def readInto (r : Registry α) (target : Entity α) (b : Buffer) : Outcome (Entity α) Buffer :=
  match target with
  | .object _ => .ofResult target .object (Object.read b)
  | .generator _ => .ofResult target .generator (Generator.read b)
  | .reading _ => .ofResult target .reading (Reading.read b)
  | .command c => (r.readInto c b).map .command

end Entity

end RecordStream
