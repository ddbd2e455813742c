import RecordStream.Generator

/-!
# Objects

The plainest entity: an id and nothing else.
-/

namespace RecordStream

structure Object where
  id : EntityId
  deriving DecidableEq

namespace Object

def layout : Layout Object :=
  (Layout.word .native).imap Object.mk Object.id

@[simp] theorem size_layout : layout.size = 8 := rfl

def isNull (o : Object) : Bool :=
  o.id = nullId

/-- A new object with the given id, or for `nullId` one that is drawn. -/
def create (id : EntityId) : StateM IdPool Object := do
  return ⟨← IdPool.resolve .object id⟩

def cloneWithId (_ : Object) (id : EntityId) : Object := ⟨id⟩

/-- A copy under an id that is drawn. -/
def duplicate (o : Object) : StateM IdPool Object := do
  return o.cloneWithId (← IdPool.nextId .object)

def text (o : Object) : String :=
  toString o.id.toNat

/-- The text with a name for what it shows. -/
def debugText (o : Object) : String :=
  s!"id = {o.text}"

def write (o : Object) : Stream Unit :=
  Stream.writeRecord .object layout o

def read : Stream Object :=
  Stream.readRecord .object layout

end Object

end RecordStream
