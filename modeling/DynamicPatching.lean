import DynamicPatching.Text.Basic
import DynamicPatching.Single.Basic
import DynamicPatching.Single.Decimal
import DynamicPatching.Atom
import DynamicPatching.Error
import DynamicPatching.Contract
import DynamicPatching.Command.Basic
import DynamicPatching.Command.Grammar
import DynamicPatching.Script.Basic
import DynamicPatching.Engine.Basic
import DynamicPatching.Engine.Action
import DynamicPatching.Session.Basic
import DynamicPatching.Session.Edit
import DynamicPatching.Voice.Slots
import DynamicPatching.Voice.Pool
import DynamicPatching.Voice.Call
import DynamicPatching.Setting.Basic
import DynamicPatching.Synth.Basic
import DynamicPatching.Synth.Call
import DynamicPatching.Library.Call
import DynamicPatching.Proofs.Text.Bytes
import DynamicPatching.Proofs.Text.Cutting
import DynamicPatching.Proofs.Text.Decimal
import DynamicPatching.Proofs.Single.Nearest
import DynamicPatching.Proofs.Single.Interval
import DynamicPatching.Proofs.Single.Grammar
import DynamicPatching.Proofs.Single.Overflow
import DynamicPatching.Proofs.Single.Pattern
import DynamicPatching.Proofs.Single.ReadBack
import DynamicPatching.Proofs.Single.Whole
import DynamicPatching.Proofs.Single.Denotation
import DynamicPatching.Proofs.Single.Numeral
import DynamicPatching.Proofs.Atom.ReadBack
import DynamicPatching.Proofs.Command.Validation
import DynamicPatching.Proofs.Command.Layout
import DynamicPatching.Proofs.Command.ReadBack
import DynamicPatching.Proofs.Command.Connection
import DynamicPatching.Proofs.Command.Grammar
import DynamicPatching.Proofs.Command.Construction
import DynamicPatching.Proofs.Command.Replay
import DynamicPatching.Proofs.Command.Shapes
import DynamicPatching.Proofs.Script.Leading
import DynamicPatching.Proofs.Script.Segments
import DynamicPatching.Proofs.Script.ReadBack
import DynamicPatching.Proofs.Script.Stability
import DynamicPatching.Proofs.Engine.Delivering
import DynamicPatching.Proofs.Engine.Ledger
import DynamicPatching.Proofs.Engine.Truncation
import DynamicPatching.Proofs.Session.Direct
import DynamicPatching.Proofs.Session.Running
import DynamicPatching.Proofs.Session.Edits
import DynamicPatching.Proofs.Voice.Rows
import DynamicPatching.Proofs.Voice.Slots
import DynamicPatching.Proofs.Voice.Records
import DynamicPatching.Proofs.Voice.Histories
import DynamicPatching.Proofs.Voice.Resizing
import DynamicPatching.Proofs.Voice.Payloads
import DynamicPatching.Proofs.Voice.Rotation
import DynamicPatching.Proofs.Voice.Addresses
import DynamicPatching.Proofs.Setting.Declaration
import DynamicPatching.Proofs.Setting.History
import DynamicPatching.Proofs.Setting.ReadBack
import DynamicPatching.Proofs.Synth.Rows
import DynamicPatching.Proofs.Synth.Construction
import DynamicPatching.Proofs.Synth.Reachable
import DynamicPatching.Proofs.Synth.Truncation
import DynamicPatching.Proofs.Synth.Messages
import DynamicPatching.Proofs.Synth.Records
import DynamicPatching.Proofs.Synth.Mirror
import DynamicPatching.Proofs.Synth.Parameters
import DynamicPatching.Proofs.Synth.Numbers
import DynamicPatching.Proofs.Synth.Rotation
import DynamicPatching.Proofs.Library.Duties
import DynamicPatching.Proofs.Library.Interpreted
import DynamicPatching.Proofs.Library.Notes
import DynamicPatching.Proofs.Library.Handles
import DynamicPatching.Proofs.Library.Records
import DynamicPatching.Proofs.Library.Contracts
import DynamicPatching.Proofs.Library.Isolation
