import RecordStream.Buffer
import RecordStream.Descriptor

/-!
# Records

A record is a descriptor and, right behind it, a value.  A reader looks at the
descriptor first.  If that is well formed it counts as read, whatever comes of
it; the value counts as read only if it is one.
-/

namespace RecordStream

/-- What an entity is known by among those of its type. -/
abbrev EntityId := UInt64

/-- The id of what has none. -/
def nullId : EntityId := 0

namespace Stream

variable {α : Type}

def writeDescriptor (d : Descriptor) : Stream Unit :=
  write Descriptor.layout d

def readDescriptor : Stream Descriptor :=
  read Descriptor.layout

/-- Reads a descriptor, which has to be `d`. -/
def verify (d : Descriptor) : Stream Unit := do
  let found ← readDescriptor
  if found = d then return ()
  else throw (.typeMismatch d.text found.text)

/-- The number of bytes of a record with a value of the given layout. -/
def recordSize (L : Layout α) : Nat :=
  Descriptor.layout.size + L.size

def writeRecord (d : Descriptor) (L : Layout α) (a : α) : Stream Unit := do
  writeDescriptor d
  write L a

def readRecord (d : Descriptor) (L : Layout α) : Stream α := do
  verify d
  read L

end Stream

end RecordStream
