import RecordStream.Command.Reading
import RecordStream.Sample

/-!
# Tally actions

Sample actions for the leaves of commands.  Most of them count: their world is a
`Ledger` with a 64-bit count that wraps around, in which every change is entered.
Two refuse, one to be executed and one to be compensated.  `counter` counts in
itself instead; its hits are not stored.  It stands for commands that say how they
are executed and not how they are compensated: the default compensation succeeds and
changes nothing, so the hits stay where a counter with one of its own takes a hit off.
-/

namespace RecordStream

inductive Tally
  | inc
  | dec
  /-- Cannot be executed. -/
  | incFail
  /-- Cannot be compensated. -/
  | undoFail
  /-- Counts in itself, and is not counted back. -/
  | counter (hits : Int32)
  | addN (amount : Int32)
  deriving DecidableEq

/-- A change of the count: whether by undoing, by which command, and to what. -/
structure Event where
  undone : Bool
  className : Name
  id : EntityId
  count : Int64
  deriving DecidableEq

/-- A count and the changes it has seen, oldest first. -/
structure Ledger where
  count : Int64
  events : List Event
  deriving DecidableEq

namespace Ledger

def empty : Ledger := ⟨0, []⟩

/-- Adds to the count and enters the change. -/
def change (l : Ledger) (undone : Bool) (className : Name) (id : EntityId) (amount : Int64) :
    Ledger :=
  let count := l.count + amount
  ⟨count, l.events ++ [⟨undone, className, id, count⟩]⟩

end Ledger

namespace Tally

def className : Tally → Name
  | .inc => ⟨"Inc", by decide, by decide⟩
  | .dec => ⟨"Dec", by decide, by decide⟩
  | .incFail => ⟨"IncFail", by decide, by decide⟩
  | .undoFail => ⟨"UndoFail", by decide, by decide⟩
  | .counter _ => ⟨"Counter", by decide, by decide⟩
  | .addN _ => ⟨"AddN", by decide, by decide⟩

def descriptor : Tally → Descriptor
  | .counter hits => ⟨Descriptor.libraryName, className (.counter hits), 1, 0, 0⟩
  | t => .ofSample t.className

/-- Only the amount of `addN` is stored. -/
def fields : Tally → Layout Tally
  | .addN amount =>
    (Layout.word .native).imap .addN fun
      | .addN amount => amount
      | _ => amount
  | t => .nothing t

instance : Recorded Tally where
  descriptor := descriptor
  fields := fields

/-- How much executing adds to the count. -/
def amount : Tally → Int64
  | .inc | .incFail | .undoFail => 1
  | .dec => -1
  | .counter _ => 0
  | .addN amount => amount.toInt64

/-- Adds to the count, in the name of a command. -/
def enter (undone : Bool) (core : Core) (t : Tally) (amount : Int64) (l : Ledger) :
    Outcome Tally Ledger :=
  ⟨t, l.change undone t.className core.id amount, none⟩

def execute (core : Core) (t : Tally) (l : Ledger) : Outcome Tally Ledger :=
  match t with
  | .incFail => ⟨t, l, some (.commandFailed "IncFail" "refused")⟩
  | .counter hits =>
    if hits < 0 then ⟨t, l, some (.commandFailed "Counter" "negative")⟩
    else ⟨.counter (hits + 1), l, none⟩
  | t => t.enter false core t.amount l

def compensate (core : Core) (t : Tally) (l : Ledger) : Outcome Tally Ledger :=
  match t with
  | .undoFail => ⟨t, l, some (.commandFailed "UndoFail" "cannot undo")⟩
  | .counter _ => ⟨t, l, none⟩
  | t => t.enter true core (-t.amount) l

instance : Action Tally Ledger where
  execute := execute
  compensate := compensate

end Tally

end RecordStream
