import RecordStream.Command.Basic

/-!
# Running and undoing

`run` executes a command and marks it ok if that went without fault; `undo`
compensates a command that is ok, leaves others alone and changes no mark.  A
composite runs its children from first to last and undoes them in the same
order; at the first fault it stops, and what its children did stays done.
-/

namespace RecordStream

/-- What an operation leaves behind.  One that fails leaves traces as well, so its
subject and its world are given in any case. -/
structure Outcome (τ σ : Type) where
  subject : τ
  world : σ
  fault? : Option Fault

namespace Outcome

variable {τ υ σ : Type}

def map (f : τ → υ) (o : Outcome τ σ) : Outcome υ σ :=
  ⟨f o.subject, o.world, o.fault?⟩

/-- Applies the function if there was no fault. -/
def mapOk (f : τ → τ) (o : Outcome τ σ) : Outcome τ σ :=
  match o.fault? with
  | none => o.map f
  | some _ => o

end Outcome

/-- Actions that can be executed and compensated in a world of type `σ`. -/
class Action (α : Type) (σ : outParam Type) where
  execute : Core → α → σ → Outcome α σ
  compensate : Core → α → σ → Outcome α σ

namespace Command

variable {α σ : Type} [Action α σ]

mutual

/-- What running a command does, its own mark apart. -/
def execute : Command α → σ → Outcome (Command α) σ
  | .null core, w => ⟨.null core, w, none⟩
  | .leaf core action, w => (Action.execute core action w).map (.leaf core)
  | .composite core capacity children, w =>
    (runAll children w).map (.composite core capacity)

/-- Runs commands one after the other, up to the first fault. -/
def runAll : List (Command α) → σ → Outcome (List (Command α)) σ
  | [], w => ⟨[], w, none⟩
  | c :: cs, w =>
    let o := (execute c w).mapOk (mapCore .markOk)
    match o.fault? with
    | none => (runAll cs o.world).map (o.subject :: ·)
    | some _ => o.map (· :: cs)

end

/-- Executes a command and marks it ok if that went without fault. -/
def run (c : Command α) (w : σ) : Outcome (Command α) σ :=
  (execute c w).mapOk (mapCore .markOk)

mutual

/-- What undoing a command that is ok does. -/
def compensate : Command α → σ → Outcome (Command α) σ
  | .null core, w => ⟨.null core, w, none⟩
  | .leaf core action, w => (Action.compensate core action w).map (.leaf core)
  | .composite core capacity children, w =>
    (undoAll children w).map (.composite core capacity)

/-- Undoes commands one after the other, up to the first fault. -/
def undoAll : List (Command α) → σ → Outcome (List (Command α)) σ
  | [], w => ⟨[], w, none⟩
  | c :: cs, w =>
    let o := if c.ok then compensate c w else ⟨c, w, none⟩
    match o.fault? with
    | none => (undoAll cs o.world).map (o.subject :: ·)
    | some _ => o.map (· :: cs)

end

/-- Compensates a command that is ok. -/
def undo (c : Command α) (w : σ) : Outcome (Command α) σ :=
  if c.ok then compensate c w else ⟨c, w, none⟩

theorem runAll_cons (c : Command α) (cs : List (Command α)) (w : σ) :
    runAll (c :: cs) w =
      match (run c w).fault? with
      | none => (runAll cs (run c w).world).map ((run c w).subject :: ·)
      | some _ => (run c w).map (· :: cs) := by
  rw [runAll, run]

theorem undoAll_cons (c : Command α) (cs : List (Command α)) (w : σ) :
    undoAll (c :: cs) w =
      match (undo c w).fault? with
      | none => (undoAll cs (undo c w).world).map ((undo c w).subject :: ·)
      | some _ => (undo c w).map (· :: cs) := by
  rw [undoAll, undo]

end Command

end RecordStream
