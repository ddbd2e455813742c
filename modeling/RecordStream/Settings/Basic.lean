import RecordStream.Command.Basic

/-!
# Settings

Four numbers that a context is made with.  Settings are put together by
assigning fields one after the other, to the defaults or in a draft, which gets
the defaults for the fields that are missing in the end; the last assignment of
a field counts.  They are valid if ids move on and composites can hold something.
-/

namespace RecordStream

structure Settings where
  /-- The bytes that new buffers reserve. -/
  bufferCapacity : UInt64
  /-- The children that composites hold. -/
  compositeCapacity : UInt64
  /-- Where generators start to count; the first id lies one step behind. -/
  idStart : UInt64
  idStep : UInt64
  deriving DecidableEq

namespace Settings

inductive Field
  | bufferCapacity
  | compositeCapacity
  | idStart
  | idStep
  deriving DecidableEq

namespace Field

/-- The name of the field in texts. -/
def key : Field → String
  | bufferCapacity => "buffer_capacity"
  | compositeCapacity => "composite_capacity"
  | idStart => "id_start"
  | idStep => "id_step"

/-- All fields, in the order in which they are written. -/
def all : List Field := [bufferCapacity, compositeCapacity, idStart, idStep]

theorem mem_all (f : Field) : f ∈ all := by
  cases f <;> decide

/-- The field with the given name. -/
def ofKey? (key : List Char) : Option Field :=
  all.find? fun f => f.key.toList = key

theorem ofKey?_key (f : Field) : ofKey? f.key.toList = some f := by
  cases f <;> decide

end Field

def default : Settings where
  bufferCapacity := .ofNat Buffer.defaultCapacity
  compositeCapacity := .ofNat Command.defaultCapacity
  idStart := 0
  idStep := 1

def get (s : Settings) : Field → UInt64
  | .bufferCapacity => s.bufferCapacity
  | .compositeCapacity => s.compositeCapacity
  | .idStart => s.idStart
  | .idStep => s.idStep

def set (s : Settings) (f : Field) (n : UInt64) : Settings :=
  match f with
  | .bufferCapacity => { s with bufferCapacity := n }
  | .compositeCapacity => { s with compositeCapacity := n }
  | .idStart => { s with idStart := n }
  | .idStep => { s with idStep := n }

theorem ext_get {s t : Settings} (h : ∀ f, s.get f = t.get f) : s = t := by
  cases s
  cases t
  simpa [get] using And.intro (h .bufferCapacity) (And.intro (h .compositeCapacity)
    (And.intro (h .idStart) (h .idStep)))

/-- All fields and their values. -/
def entries (s : Settings) : List (Field × UInt64) :=
  Field.all.map fun f => (f, s.get f)

/-- Refuses settings with which ids would not move on, and then those whose
composites could hold nothing. -/
def validate (s : Settings) : Except Fault Settings :=
  if s.idStep = 0 then .error (.settings .zeroStep)
  else if s.compositeCapacity = 0 then .error (.settings .zeroCapacity)
  else .ok s

theorem validate_eq_ok_iff {s t : Settings} :
    s.validate = .ok t ↔ (s.idStep ≠ 0 ∧ s.compositeCapacity ≠ 0) ∧ t = s := by
  unfold validate
  by_cases hstep : s.idStep = 0
  · simp [hstep]
  · by_cases hcapacity : s.compositeCapacity = 0
    · simp [hstep, hcapacity]
    · simp [hstep, hcapacity, eq_comm]

/-- The defaults, changed by assignments from first to last. -/
def assign (assignments : List (Field × UInt64)) : Settings :=
  assignments.foldl (fun s a => s.set a.1 a.2) default

/-- The settings in which each field has the value that is assigned to it, or its
default.  No field is to be assigned twice. -/
def ofAssignments (as : List (Field × UInt64)) : Settings :=
  let value (f : Field) := (as.lookup f).getD (default.get f)
  ⟨value .bufferCapacity, value .compositeCapacity, value .idStart, value .idStep⟩

/-- Settings that are being put together, in which fields may be missing. -/
structure Draft where
  bufferCapacity? : Option UInt64
  compositeCapacity? : Option UInt64
  idStart? : Option UInt64
  idStep? : Option UInt64
  deriving DecidableEq

namespace Draft

def empty : Draft := ⟨none, none, none, none⟩

def get? (d : Draft) : Field → Option UInt64
  | .bufferCapacity => d.bufferCapacity?
  | .compositeCapacity => d.compositeCapacity?
  | .idStart => d.idStart?
  | .idStep => d.idStep?

/-- Assigns a field, which may have been assigned before. -/
def put (d : Draft) (f : Field) (n : UInt64) : Draft :=
  match f with
  | .bufferCapacity => { d with bufferCapacity? := some n }
  | .compositeCapacity => { d with compositeCapacity? := some n }
  | .idStart => { d with idStart? := some n }
  | .idStep => { d with idStep? := some n }

/-- The settings with the fields of the draft, and the defaults for those that are missing. -/
def settings (d : Draft) : Settings where
  bufferCapacity := d.bufferCapacity?.getD default.bufferCapacity
  compositeCapacity := d.compositeCapacity?.getD default.compositeCapacity
  idStart := d.idStart?.getD default.idStart
  idStep := d.idStep?.getD default.idStep

theorem get?_empty (f : Field) : empty.get? f = none := by
  cases f <;> rfl

theorem get?_put (d : Draft) (f g : Field) (n : UInt64) :
    (d.put f n).get? g = if g = f then some n else d.get? g := by
  cases f <;> cases g <;> rfl

theorem get_settings (d : Draft) (f : Field) :
    d.settings.get f = (d.get? f).getD (default.get f) := by
  cases f <;> rfl

end Draft

/-- The draft that assignments make, from first to last. -/
def draft (assignments : List (Field × UInt64)) : Draft :=
  assignments.foldl (fun d a => d.put a.1 a.2) .empty

/-- Valid settings put together by assignments. -/
def build (assignments : List (Field × UInt64)) : Except Fault Settings :=
  (draft assignments).settings.validate

end Settings

end RecordStream
