import RecordStream.Object

/-!
# Commands

A command is something that can be run and undone and that travels in a record.
It is the null command, a leaf with an action of its own, or a composite of
other commands, as many as its capacity allows.  The actions of leaves are a
parameter: a type of class `Recorded` says how its values are described and
stored.

Every command has a core, its id and whether it is ok, that is, has been run
without fault.
-/

namespace RecordStream

/-- What every command shares. -/
structure Core where
  id : EntityId
  ok : Bool
  deriving DecidableEq

namespace Core

/-- The core of a command that has not been run. -/
def fresh (id : EntityId) : Core := ⟨id, false⟩

def markOk (c : Core) : Core :=
  { c with ok := true }

def layout : Layout Core :=
  ((Layout.word .native).pair Layout.bool).imap (fun p => ⟨p.1, p.2⟩) (fun c => (c.id, c.ok))

@[simp] theorem size_layout : layout.size = 9 := rfl

def write (c : Core) : Stream Unit :=
  Stream.writeRecord .command layout c

def read : Stream Core :=
  Stream.readRecord .command layout

/-- The number of bytes of a core with its descriptor. -/
def recordSize : Nat :=
  Stream.recordSize layout

end Core

/-- Actions that can be stored: each has the descriptor of its type, and a layout for
what is stored behind the core.  Reading goes into a given action, and what is not
stored stays as it is there. -/
class Recorded (α : Type) where
  descriptor : α → Descriptor
  fields : α → Layout α

inductive Command (α : Type) where
  | null (core : Core)
  | leaf (core : Core) (action : α)
  | composite (core : Core) (capacity : Nat) (children : List (Command α))

namespace Command

variable {α : Type}

/-- How many commands a composite holds if nothing else is said. -/
def defaultCapacity : Nat := 10

/-- `2 ^ 59`, which is more children than any composite has room for.  The room is reserved
when a composite is made, at 16 bytes a child, and no allocation has `2 ^ 63` bytes: to make
a composite with this capacity or a larger one is a capacity overflow, and ends the program. -/
def capacityLimit : Nat := 1 <<< 59

/-- Room that there can be is counted in 64 bits. -/
theorem lt_size_of_lt_capacityLimit {capacity : Nat} (h : capacity < capacityLimit) :
    capacity < UInt64.size :=
  Nat.lt_trans h (by decide)

/-- A composite without children that has not been run.  The capacity has to be below
`capacityLimit`. -/
def emptyComposite (id : EntityId) (capacity : Nat) : Command α :=
  .composite (.fresh id) capacity []

def core : Command α → Core
  | .null core => core
  | .leaf core _ => core
  | .composite core _ _ => core

def mapCore (f : Core → Core) : Command α → Command α
  | .null core => .null (f core)
  | .leaf core action => .leaf (f core) action
  | .composite core capacity children => .composite (f core) capacity children

@[simp] theorem core_mapCore (f : Core → Core) (c : Command α) :
    (c.mapCore f).core = f c.core := by
  cases c <;> rfl

def id (c : Command α) : EntityId := c.core.id

def ok (c : Command α) : Bool := c.core.ok

def setId (c : Command α) (id : EntityId) : Command α :=
  c.mapCore ({ · with id })

@[simp] theorem id_setId (c : Command α) (id : EntityId) : (c.setId id).id = id := by
  rw [Command.id, setId, core_mapCore]

def descriptor [Recorded α] : Command α → Descriptor
  | .null _ => .nullCommand
  | .leaf _ action => Recorded.descriptor action
  | .composite .. => .compositeCommand

/-- A copy under another id. -/
def cloneWithId (c : Command α) (id : EntityId) : Command α := c.setId id

/-- A copy under an id that is drawn; the children keep theirs. -/
def duplicate [Recorded α] (c : Command α) : StateM IdPool (Command α) := do
  return c.cloneWithId (← IdPool.nextId c.descriptor)

/-- A command made from another with an id, or for `nullId` one that is drawn. -/
def create [Recorded α] (prototype : Command α) (id : EntityId) : StateM IdPool (Command α) := do
  return prototype.setId (← IdPool.resolve prototype.descriptor id)

/-! ## Children -/

/-- How many children there may be.  Only composites have any. -/
def capacity : Command α → Nat
  | .composite _ capacity _ => capacity
  | _ => 0

def children : Command α → List (Command α)
  | .composite _ _ children => children
  | _ => []

/-- Puts a command behind the children, if there is room for one more. -/
def tryAdd (parent child : Command α) : Except Fault (Command α) :=
  match parent with
  | .composite core capacity children =>
    if children.length < capacity then .ok (.composite core capacity (children ++ [child]))
    else .error (.capacityExceeded capacity)
  | _ => .error (.capacityExceeded 0)

theorem tryAdd_eq_ok_iff {parent child c : Command α} : parent.tryAdd child = .ok c ↔
    ∃ core capacity children, parent = .composite core capacity children ∧
      children.length < capacity ∧ c = .composite core capacity (children ++ [child]) := by
  constructor
  · intro h
    cases parent with
    | null core => cases h
    | leaf core action => cases h
    | composite core capacity children =>
      rw [tryAdd] at h
      split at h
      · rename_i hroom
        cases h
        exact ⟨core, capacity, children, rfl, hroom, rfl⟩
      · cases h
  · rintro ⟨core, capacity, children, rfl, hroom, rfl⟩
    exact if_pos hroom

/-- Puts a command behind the children, where there has to be room for one more. -/
def add (parent child : Command α) : Except Misuse (Command α) :=
  match parent.tryAdd child with
  | .ok c => .ok c
  | .error _ => .error (.compositeFull parent.capacity)

/-- Puts a command into a composite, that into another, and so on for the given number
of composites; their ids count up from the innermost. -/
def nest (c : Command α) (id : EntityId) (capacity : Nat) : Nat → Except Fault (Command α)
  | 0 => .ok c
  | depth + 1 => do
    let c ← (emptyComposite id capacity).tryAdd c
    c.nest (id + 1) capacity depth

mutual

/-- Whether two commands are of one type and hold the same.  Capacities do not count. -/
def equals [DecidableEq α] : Command α → Command α → Bool
  | .null c, .null d => c = d
  | .leaf c a, .leaf d b => c = d && a = b
  | .composite c _ cs, .composite d _ ds => c = d && equalsAll cs ds
  | _, _ => false

def equalsAll [DecidableEq α] : List (Command α) → List (Command α) → Bool
  | [], [] => true
  | c :: cs, d :: ds => equals c d && equalsAll cs ds
  | _, _ => false

end

end Command

end RecordStream
