import OpFusion.Buffer
import OpFusion.Cache.Basic
import OpFusion.Cache.Flight
import OpFusion.Cache.Recency
import OpFusion.Cache.Request
import OpFusion.Config
import OpFusion.DType
import OpFusion.Digest.Blake3
import OpFusion.Element
import OpFusion.Endian
import OpFusion.Engine.Attribution
import OpFusion.Engine.Basic
import OpFusion.Engine.Build
import OpFusion.Engine.Request
import OpFusion.Engine.Storage
import OpFusion.Error
import OpFusion.Exec.Call
import OpFusion.Exec.Entry
import OpFusion.Exec.Frame
import OpFusion.Exec.FreeCode
import OpFusion.Exec.Heap
import OpFusion.Exec.Init
import OpFusion.Exec.Interpreter
import OpFusion.Exec.Kernel
import OpFusion.Exec.Loaded
import OpFusion.Exec.Machine
import OpFusion.Exec.Routine
import OpFusion.Exec.Statement
import OpFusion.Exec.Strided
import OpFusion.Files
import OpFusion.Graph
import OpFusion.Graph.Calls
import OpFusion.Key
import OpFusion.Kind.Basic
import OpFusion.Kind.Context
import OpFusion.Kind.Extent
import OpFusion.Kind.Kernel
import OpFusion.Kind.Library
import OpFusion.Kind.Scripted
import OpFusion.Kind.Statement
import OpFusion.Link
import OpFusion.Log
import OpFusion.Module.Assembly
import OpFusion.Module.Key
import OpFusion.Module.Piece
import OpFusion.Module.Prelude
import OpFusion.Module.Signature
import OpFusion.Module.Slot
import OpFusion.Module.Text
import OpFusion.Path
import OpFusion.Source.Abbreviation
import OpFusion.Source.CType
import OpFusion.Source.Comment
import OpFusion.Source.Constant
import OpFusion.Source.Floating
import OpFusion.Source.Header
import OpFusion.Source.Integer
import OpFusion.Source.Line
import OpFusion.Source.Literal
import OpFusion.Source.Parser
import OpFusion.Source.Program
import OpFusion.Source.Reading
import OpFusion.Source.Token
import OpFusion.Source.Tree
import OpFusion.Source.Value
import OpFusion.Store.Basic
import OpFusion.Store.Disk
import OpFusion.Store.Memory
import OpFusion.Store.Record
import OpFusion.Support
import OpFusion.Symbol
import OpFusion.Table
import OpFusion.Text.Blank
import OpFusion.Text.Block
import OpFusion.Text.Number
import OpFusion.Text.Quoted
import OpFusion.Text.Search
import OpFusion.Text.Shown
import OpFusion.Text.Utf8
import OpFusion.Toolchain.Basic
import OpFusion.Toolchain.Compiler
import OpFusion.Toolchain.Job
import OpFusion.Toolchain.Library
import OpFusion.Toolchain.Program
import OpFusion.Toolchain.Wait
import OpFusion.Wire
import OpFusion.Proofs.Buffer.Address
import OpFusion.Proofs.Buffer.Dense
import OpFusion.Proofs.Graph.Building
import OpFusion.Proofs.Graph.Calls
import OpFusion.Proofs.Graph.Slots
import OpFusion.Proofs.Module.Plans
import OpFusion.Proofs.Support
import OpFusion.Proofs.Exec.Kernel
import OpFusion.Proofs.Exec.Ownership
import OpFusion.Proofs.Exec.Application
import OpFusion.Proofs.Exec.Fusion
import OpFusion.Proofs.Exec.Handover
import OpFusion.Proofs.Module.Plain
import OpFusion.Proofs.Text.Utf8
import OpFusion.Proofs.Wire
import OpFusion.Proofs.Module.Manifest
import OpFusion.Proofs.Module.Acceptance
import OpFusion.Proofs.Module.Determined
import OpFusion.Proofs.Key
import OpFusion.Proofs.Store.Record
import OpFusion.Proofs.Files
import OpFusion.Proofs.Store.Contents
import OpFusion.Proofs.Cache.Sequential
import OpFusion.Proofs.Engine.Building
import OpFusion.Proofs.Engine.Transparency
import OpFusion.Proofs.Cache.Step
import OpFusion.Proofs.Cache.Flights
import OpFusion.Proofs.Cache.SingleFlight
import OpFusion.Proofs.Cache.History
import OpFusion.Proofs.Cache.Agreement
import OpFusion.Proofs.Cache.Recency
import OpFusion.Proofs.Cache.Balance
import OpFusion.Proofs.Module.Globals
import OpFusion.Proofs.Symbol
import OpFusion.Proofs.Module.Header
import OpFusion.Proofs.Module.Identity
import OpFusion.Proofs.Module.Shown
import OpFusion.Proofs.Support.Order
import OpFusion.Proofs.Place
import OpFusion.Proofs.Store.Mapping
import OpFusion.Proofs.Store.Refinement
import OpFusion.Proofs.Engine.Stock
import OpFusion.Proofs.Engine.History
import OpFusion.Proofs.Engine.Recovery
import OpFusion.Proofs.Engine.Reuse
import OpFusion.Proofs.Engine.Ledger
import OpFusion.Proofs.Module.Slots
import OpFusion.Proofs.Buffer.Checked
import OpFusion.Proofs.Buffer.Storage
import OpFusion.Proofs.Exec.Addresses
import OpFusion.Proofs.Exec.Validation
import OpFusion.Proofs.Exec.Conduct
import OpFusion.Proofs.Exec.Outputs
import OpFusion.Proofs.Exec.FreeCode
import OpFusion.Proofs.Exec.Journal
import OpFusion.Proofs.Exec.Verdict
import OpFusion.Proofs.Text.Lines
import OpFusion.Proofs.Text.Numbered
import OpFusion.Proofs.Module.Blocks
import OpFusion.Proofs.Module.Comments
import OpFusion.Proofs.Module.Layout
import OpFusion.Proofs.Module.Spans
import OpFusion.Proofs.Engine.Complaints
import OpFusion.Proofs.Engine.Blame
import OpFusion.Proofs.Key.Spelling
import OpFusion.Proofs.Key.Order
import OpFusion.Proofs.Module.Linking
import OpFusion.Proofs.Symbol.Names
import OpFusion.Proofs.Text.Blocks
import OpFusion.Proofs.Module.Failures
import OpFusion.Proofs.Module.Indentation
