import RecordStream.Command.Basic

/-!
# Command records

The record of a command is the descriptor of its type and then its body:

| command | body |
|---|---|
| null | core record |
| leaf | core record, stored fields of the action |
| composite | core record, number of children (8 bytes), their records |

A core record is the descriptor of commands in general, the id and the ok mark.
Since every child starts with its own descriptor, a reader knows what it is.
-/

namespace RecordStream

namespace Command

variable {α : Type} [Recorded α]

/-- How the number of children is written. -/
def countLayout : Layout UInt64 :=
  .word .native

mutual

/-- The number of bytes of a body. -/
def bodySize : Command α → Nat
  | .null _ => Core.recordSize
  | .leaf _ action => Core.recordSize + (Recorded.fields action).size
  | .composite _ _ children => Core.recordSize + countLayout.size + sizeAll children

/-- The number of bytes of the records of some commands. -/
def sizeAll : List (Command α) → Nat
  | [] => 0
  | c :: cs => Descriptor.layout.size + bodySize c + sizeAll cs

end

/-- The number of bytes of a record. -/
def recordSize (c : Command α) : Nat :=
  Descriptor.layout.size + c.bodySize

theorem sizeAll_cons (c : Command α) (cs : List (Command α)) :
    sizeAll (c :: cs) = c.recordSize + sizeAll cs := by
  rw [sizeAll, recordSize]

mutual

def writeBody : Command α → Stream Unit
  | .null core => core.write
  | .leaf core action => do
    core.write
    Stream.write (Recorded.fields action) action
  | .composite core _ children => do
    core.write
    Stream.write countLayout (.ofNat children.length)
    writeAll children

/-- Writes the records of some commands one behind the other. -/
def writeAll : List (Command α) → Stream Unit
  | [] => pure ()
  | c :: cs => do
    Stream.writeDescriptor c.descriptor
    writeBody c
    writeAll cs

end

def write (c : Command α) : Stream Unit := do
  Stream.writeDescriptor c.descriptor
  c.writeBody

theorem writeAll_cons (c : Command α) (cs : List (Command α)) :
    writeAll (c :: cs) = (do c.write; writeAll cs) := by
  rw [writeAll, write, bind_assoc]

end Command

end RecordStream
