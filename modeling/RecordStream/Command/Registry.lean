import RecordStream.Command.Basic

/-!
# Registries

A registry knows for the full names of some types how to make a fresh command of
each.  A name is registered once and for all, whatever the version it was
registered with.
-/

namespace RecordStream

namespace Registry

/-- What is known of a type: the descriptor it was registered with, and the command
that stands for a fresh one. -/
structure Entry (α : Type) where
  descriptor : Descriptor
  prototype : Command α

end Registry

/-- Registered types by full name. -/
structure Registry (α : Type) where
  entries : List (String × Registry.Entry α)

namespace Registry

variable {α : Type}

def empty : Registry α := ⟨[]⟩

def lookup? (r : Registry α) (d : Descriptor) : Option (Entry α) :=
  r.entries.lookup d.fullName

def contains (r : Registry α) (d : Descriptor) : Bool :=
  (r.lookup? d).isSome

/-- The descriptor that was registered under the name of this one. -/
def registered? (r : Registry α) (d : Descriptor) : Option Descriptor :=
  (r.lookup? d).map (·.descriptor)

/-- A fresh command of the type that was registered under the name of this one. -/
def create? (r : Registry α) (d : Descriptor) : Option (Command α) :=
  (r.lookup? d).map (·.prototype)

/-- Registers a type under the name of the descriptor, unless the name is taken. -/
def register (r : Registry α) (d : Descriptor) (prototype : Command α) :
    Except Fault (Registry α) :=
  if r.contains d then .error (.duplicateType d.fullName)
  else .ok ⟨(d.fullName, ⟨d, prototype⟩) :: r.entries⟩

/-- The null command and composites of the given capacity, which has to be below
`Command.capacityLimit`: a registry is made with any capacity, but it is the reader that
makes the composites, and it breaks down at the first one. -/
def withBuiltins (capacity : Nat) : Registry α where
  entries := [
    (Descriptor.nullCommand.fullName, ⟨.nullCommand, .null (.fresh nullId)⟩),
    (Descriptor.compositeCommand.fullName, ⟨.compositeCommand, .emptyComposite nullId capacity⟩)]

def size (r : Registry α) : Nat := r.entries.length

def isEmpty (r : Registry α) : Bool := r.entries.isEmpty

/-- The registered names in ascending order. -/
def names (r : Registry α) : List String :=
  (r.entries.map (·.1)).mergeSort fun a b => decide (a ≤ b)

/-- The names in quotes, for diagnostics. -/
def debugText (r : Registry α) : String :=
  "CommandRegistry \x7b types: [" ++ ", ".intercalate (r.names.map Text.quote) ++ "] \x7d"

end Registry

end RecordStream
