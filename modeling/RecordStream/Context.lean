import RecordStream.Command.Registry
import RecordStream.Settings.Basic

/-!
# Contexts

A context is what records are made and read in: settings, an id pool and a
registry.  Contexts share nothing, so ids and registered types of one do not
show in another.
-/

namespace RecordStream

structure Context (α : Type) where
  settings : Settings
  ids : IdPool
  registry : Registry α

namespace Context

variable {α : Type}

/-- A context for settings that are known to be valid. -/
def ofSettings (s : Settings) : Context α where
  settings := s
  ids := .fresh s.idStart s.idStep
  registry := .withBuiltins s.compositeCapacity.toNat

def initial : Context α := ofSettings .default

/-- A context for settings that have to be valid. -/
def withSettings (s : Settings) : Except Fault (Context α) :=
  s.validate.map ofSettings

theorem withSettings_eq_ok_iff {s : Settings} {ctx : Context α} :
    withSettings s = .ok ctx ↔
      (s.idStep ≠ 0 ∧ s.compositeCapacity ≠ 0) ∧ ctx = ofSettings s := by
  have hmap : withSettings s = .ok ctx ↔ ∃ t, s.validate = .ok t ∧ ofSettings t = ctx := by
    unfold withSettings
    cases s.validate with
    | error fault => simp [Except.map]
    | ok t => simp [Except.map]
  rw [hmap]
  constructor
  · rintro ⟨t, ht, rfl⟩
    obtain ⟨hvalid, rfl⟩ := Settings.validate_eq_ok_iff.1 ht
    exact ⟨hvalid, rfl⟩
  · rintro ⟨hvalid, rfl⟩
    exact ⟨s, Settings.validate_eq_ok_iff.2 ⟨hvalid, rfl⟩, rfl⟩

/-- Draws from the id pool of the context. -/
def liftIds {β : Type} (m : StateM IdPool β) : StateM (Context α) β := fun ctx =>
  let (b, ids) := m ctx.ids
  (b, { ctx with ids })

/-- A new object. -/
def object : StateM (Context α) Object := do
  return ⟨← liftIds (IdPool.nextId .object)⟩

/-- A new composite without children, of the capacity in the settings.  Settings are valid
whatever the capacity is, but it has to be below `Command.capacityLimit` for this and for
the composites that the registry of the context makes. -/
def composite : StateM (Context α) (Command α) := do
  let id ← liftIds (IdPool.nextId .compositeCommand)
  return .emptyComposite id (← get).settings.compositeCapacity.toNat

/-- A copy of a command under a new id. -/
def command [Recorded α] (prototype : Command α) : StateM (Context α) (Command α) := do
  return prototype.setId (← liftIds (IdPool.nextId prototype.descriptor))

/-- An empty buffer of the capacity in the settings. -/
def buffer (ctx : Context α) : Buffer :=
  .withCapacity ctx.settings.bufferCapacity.toNat

end Context

end RecordStream
