import RecordStream.Context
import RecordStream.Decimal.Binary
import RecordStream.Proofs.Buffer
import RecordStream.Proofs.Command.Canonical
import RecordStream.Proofs.Command.Exchange
import RecordStream.Proofs.Command.Refusal
import RecordStream.Proofs.Context.Composite
import RecordStream.Proofs.Context.Request
import RecordStream.Storage.Transfer
import RecordStream.Proofs.Command.Execution
import RecordStream.Proofs.Command.Filling
import RecordStream.Proofs.Command.Marks
import RecordStream.Proofs.Command.History
import RecordStream.Proofs.Command.Leaves
import RecordStream.Proofs.Command.Undoing
import RecordStream.Proofs.Command.Equality
import RecordStream.Proofs.Entity
import RecordStream.Proofs.Command.Acceptance
import RecordStream.Proofs.Command.Checkpoint
import RecordStream.Proofs.Command.Nesting
import RecordStream.Proofs.Command.Truncation
import RecordStream.Proofs.Text.Order
import RecordStream.Proofs.Registry.Registration
import RecordStream.Proofs.Registry.Extension
import RecordStream.Proofs.Descriptor
import RecordStream.Proofs.Registry.Interference
import RecordStream.Proofs.Command.Capacity
import RecordStream.Proofs.Layout.Canonical
import RecordStream.Proofs.Command.Target
import RecordStream.Proofs.Command.Cancellation
import RecordStream.Proofs.Command.Record
import RecordStream.Proofs.Command.Footprint
import RecordStream.Proofs.Record
import RecordStream.Proofs.Generator
import RecordStream.Proofs.Storage
import RecordStream.Proofs.Record.Writing
import RecordStream.Proofs.Name
import RecordStream.Proofs.Window
import RecordStream.Proofs.Json.Lexeme
import RecordStream.Proofs.Settings.Json
import RecordStream.Proofs.Settings.Assignment
import RecordStream.Proofs.Registry.Mismatch
import RecordStream.Proofs.Window.Bounds
import RecordStream.Proofs.Name.Literal
