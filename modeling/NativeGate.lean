import NativeGate.Address
import NativeGate.Binary.Format
import NativeGate.Binary.Number
import NativeGate.Call.Function
import NativeGate.Call.Gate
import NativeGate.Call.Machine
import NativeGate.Call.Recent
import NativeGate.Call.Recorder
import NativeGate.Call.Shared
import NativeGate.Call.Slot
import NativeGate.CommandLine.Arguments
import NativeGate.CommandLine.Run
import NativeGate.CommandLine.Words
import NativeGate.Config
import NativeGate.Convention
import NativeGate.Data.Fault
import NativeGate.Data.Record
import NativeGate.Data.Tree
import NativeGate.Decimal.Reader
import NativeGate.Decimal.Shortest
import NativeGate.Dict
import NativeGate.Error
import NativeGate.Event
import NativeGate.Files
import NativeGate.Hook.Bridge
import NativeGate.Hook.Detour
import NativeGate.Hook.Host
import NativeGate.Hook.Registry
import NativeGate.Hook.Table
import NativeGate.Integer
import NativeGate.Kind
import NativeGate.Layout.Instance
import NativeGate.Layout.Spec
import NativeGate.Layout.Types
import NativeGate.Layout.Written
import NativeGate.Ledger
import NativeGate.Library
import NativeGate.Library.Pattern
import NativeGate.Log.Filter
import NativeGate.Log.Level
import NativeGate.Log.Settings
import NativeGate.Main
import NativeGate.Memory
import NativeGate.Memory.Access
import NativeGate.Memory.Stored
import NativeGate.Pipe
import NativeGate.Sample.Images
import NativeGate.Sample.Names
import NativeGate.Sample.Natives
import NativeGate.Sample.Scenario
import NativeGate.Sample.Script
import NativeGate.Signature
import NativeGate.Text.Blank
import NativeGate.Text.Digits
import NativeGate.Text.Printable
import NativeGate.Text.Quoted
import NativeGate.Text.Utf8
import NativeGate.Toml.Document
import NativeGate.Toml.Node
import NativeGate.Toml.Printer
import NativeGate.Toml.Scalar
import NativeGate.Toml.Text
import NativeGate.Value
import NativeGate.World
import NativeGate.Proofs.Call.Dispatch
import NativeGate.Proofs.Binary.Datum
import NativeGate.Proofs.Binary.Widening
import NativeGate.Proofs.Call.Gate
import NativeGate.Proofs.Coercion
import NativeGate.Proofs.Hook.Crossing
import NativeGate.Proofs.Hook.Written
import NativeGate.Proofs.Hook.Transparency
import NativeGate.Proofs.Hook.Operations
import NativeGate.Proofs.Hook.Registry
import NativeGate.Proofs.Signature
import NativeGate.Proofs.Memory.Typed
import NativeGate.Proofs.Call.History
import NativeGate.Proofs.Call.Recency
import NativeGate.Proofs.Call.Typing
import NativeGate.Proofs.Call.Nesting
import NativeGate.Proofs.Hook.Interleaving
import NativeGate.Proofs.Hook.Shelf
import NativeGate.Proofs.Hook.Changes
import NativeGate.Proofs.Hook.Order
import NativeGate.Proofs.Hook.Serial
import NativeGate.Proofs.Config
import NativeGate.Proofs.Data.Omission
import NativeGate.Proofs.Layout.Written
import NativeGate.Proofs.Layout.Sharing
import NativeGate.Proofs.Hook.Counts
import NativeGate.Proofs.Coercion.Integers
import NativeGate.Proofs.Hook.Phases
import NativeGate.Proofs.Signature.Diagnosis
import NativeGate.Proofs.Text.Utf8
import NativeGate.Proofs.Memory.Strings
import NativeGate.Proofs.Hook.ReadBack
import NativeGate.Proofs.Layout.Methods
import NativeGate.Proofs.Hook.Handover
import NativeGate.Proofs.Hook.Observers
import NativeGate.Proofs.Text.Digits
import NativeGate.Proofs.CommandLine.Integers
import NativeGate.Proofs.CommandLine.ReadBack
import NativeGate.Proofs.Layout.Fields
import NativeGate.Proofs.Call.Failures
import NativeGate.Proofs.Library.Pattern
import NativeGate.Proofs.CommandLine.Overflow
import NativeGate.Proofs.CommandLine.Acceptance
import NativeGate.Proofs.Layout.Conversion
import NativeGate.Proofs.CommandLine.Order
import NativeGate.Proofs.CommandLine.Refusals
import NativeGate.Proofs.Pipe
import NativeGate.Proofs.Manifest
import NativeGate.Proofs.CommandLine.Agreement
import NativeGate.Proofs.Memory.Readers
import NativeGate.Proofs.Library.ReadBack
