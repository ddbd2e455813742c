import RecordStream.Record

/-!
# Id generators

A generator hands out ids by counting in steps, modulo `2 ^ 64`; an id is the
value *after* the step.  An id pool keeps one generator for every descriptor,
made when it is first asked for, so ids are drawn for each type separately.
-/

namespace RecordStream

structure Generator where
  id : EntityId
  value : UInt64
  step : UInt64
  deriving DecidableEq

namespace Generator

/-- Counts `1, 2, 3, …`. -/
def initial : Generator := ⟨nullId, 0, 1⟩

/-- The id that is handed out next. -/
def next (g : Generator) : EntityId :=
  g.value + g.step

/-- Hands out the next id. -/
def draw : StateM Generator EntityId := fun g =>
  (g.next, { g with value := g.next })

/-- The id, the value and the step. -/
def layout : Layout Generator :=
  ((Layout.word .native).pair ((Layout.word .native).pair (Layout.word .native))).imap
    (fun p => ⟨p.1, p.2.1, p.2.2⟩)
    (fun g => (g.id, g.value, g.step))

@[simp] theorem size_layout : layout.size = 24 := rfl

def write (g : Generator) : Stream Unit :=
  Stream.writeRecord .generator layout g

def read : Stream Generator :=
  Stream.readRecord .generator layout

end Generator

structure IdPool where
  /-- Where the generators start to count. -/
  start : UInt64
  step : UInt64
  /-- The generators made so far. -/
  generators : List (Descriptor × Generator)

namespace IdPool

/-- The pool none of whose generators has been asked for. -/
def fresh (start step : UInt64) : IdPool := ⟨start, step, []⟩

/-- The pool whose generators count `1, 2, 3, …`. -/
def initial : IdPool := fresh 0 1

/-- The generator of a type. -/
def generator (p : IdPool) (d : Descriptor) : Generator :=
  (p.generators.lookup d).getD ⟨nullId, p.start, p.step⟩

/-- Replaces the generator of a type. -/
def setGenerator (p : IdPool) (d : Descriptor) (g : Generator) : IdPool :=
  { p with generators := (d, g) :: p.generators.filter (·.1 ≠ d) }

/-- Draws an id for a type. -/
def nextId (d : Descriptor) : StateM IdPool EntityId := fun p =>
  let (id, g) := (p.generator d).draw
  (id, p.setGenerator d g)

/-- The given id, or for `nullId` one that is drawn. -/
def resolve (d : Descriptor) (id : EntityId) : StateM IdPool EntityId :=
  if id = nullId then nextId d else pure id

/-- Draws `n` ids for a type. -/
def nextIds (d : Descriptor) : Nat → StateM IdPool (List EntityId)
  | 0 => pure []
  | n + 1 => do
    let id ← nextId d
    return id :: (← nextIds d n)

end IdPool

end RecordStream
