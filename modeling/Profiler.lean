import Profiler.Attr
import Profiler.Binary.Coff
import Profiler.Binary.Coff.Program
import Profiler.Binary.Contents
import Profiler.Binary.Elf.Image
import Profiler.Binary.Elf.Layout
import Profiler.Binary.Kind
import Profiler.Binary.Layout
import Profiler.Binary.MachO
import Profiler.Binary.Xcoff
import Profiler.BuildId
import Profiler.Bytes
import Profiler.Bytes.Cursor
import Profiler.Command.Arguments
import Profiler.Command.Basic
import Profiler.Command.Dump
import Profiler.Command.Program
import Profiler.Command.Record
import Profiler.Command.Registry
import Profiler.Command.Report
import Profiler.Decimal.Binary64
import Profiler.Decimal.Reading
import Profiler.Duration
import Profiler.Effect
import Profiler.Error
import Profiler.Event.Type
import Profiler.EventLoop.Basic
import Profiler.EventLoop.Script
import Profiler.EventLoop.Signal
import Profiler.File.Draft
import Profiler.File.Feature
import Profiler.File.Frame
import Profiler.File.Header
import Profiler.File.Opened
import Profiler.File.Payload
import Profiler.Machine.Basic
import Profiler.Machine.CpuList
import Profiler.Machine.Facts
import Profiler.Machine.FileTree
import Profiler.Machine.Kernel
import Profiler.Machine.Mapping
import Profiler.Machine.Ring
import Profiler.Main
import Profiler.OrderedMap
import Profiler.Process.MapSet
import Profiler.Process.ThreadTree
import Profiler.Proofs.Bytes
import Profiler.Proofs.FieldSteps
import Profiler.Proofs.File.ReadAll
import Profiler.Proofs.Format
import Profiler.Proofs.Record.Delimited
import Profiler.Proofs.Utf8
import Profiler.Record.Basic
import Profiler.Record.Decode
import Profiler.Record.Describe
import Profiler.Record.Encode
import Profiler.Record.EventId
import Profiler.Record.Reorder
import Profiler.Record.Trim
import Profiler.Recording.Buffers
import Profiler.Recording.Descriptors
import Profiler.Recording.Host
import Profiler.Recording.Hotplug
import Profiler.Recording.MemoryKernel
import Profiler.Recording.Recorder
import Profiler.Recording.Selection
import Profiler.Recording.Synthesis
import Profiler.Report.CallTree
import Profiler.Report.SampleTable
import Profiler.Report.Summary
import Profiler.Report.TextTable
import Profiler.Symbol.Basic
import Profiler.Symbol.Binary
import Profiler.Symbol.Demangle
import Profiler.Symbol.Demangle.Grammar
import Profiler.Symbol.Demangle.Segments
import Profiler.Symbol.Dso
import Profiler.Text.Blank
import Profiler.Text.CharSet
import Profiler.Text.Numeral
import Profiler.Text.Printable
import Profiler.Text.Punycode
import Profiler.Text.Quoted
import Profiler.Text.Timestamp
import Profiler.Text.Utf8
import Profiler.Text.Width
import Profiler.Text.Width.Sets
import Profiler.Proofs.Process.MapSet
import Profiler.Proofs.Process.MapHistory
import Profiler.Proofs.Report.CallTree
import Profiler.Proofs.Report.CallWeights
import Profiler.Proofs.File.Sections
import Profiler.Proofs.File.Disjoint
import Profiler.Proofs.File.DraftCalls
import Profiler.Proofs.File.Container
import Profiler.Proofs.Report.CallShape
import Profiler.Proofs.Record.Reorder
import Profiler.Proofs.Recording.Replay
import Profiler.Proofs.Recording.Counting
import Profiler.Proofs.Recording.Retry
import Profiler.Proofs.Recording.Delivery
import Profiler.Proofs.File.Payloads
import Profiler.Proofs.Machine.Ring
import Profiler.Proofs.Report.SampleRows
import Profiler.Proofs.File.Faults
import Profiler.Proofs.File.Sorted
import Profiler.Proofs.Record.Shape
import Profiler.Proofs.Recording.Configured
import Profiler.Proofs.Recording.OneDecoder
import Profiler.Proofs.EventLoop.Dispatch
import Profiler.Proofs.Process.Naming
import Profiler.Proofs.Process.Inheritance
import Profiler.Proofs.File.Repeated
import Profiler.Proofs.Recording.Snapshots
import Profiler.Proofs.Cut
import Profiler.Proofs.File.MetaPairs
import Profiler.Proofs.File.FeatureValues
import Profiler.Proofs.Record.Edits
import Profiler.Proofs.Event.Modifiers
import Profiler.Proofs.File.AttrSizes
import Profiler.Proofs.Sorting
import Profiler.Proofs.Symbol.Table
import Profiler.Proofs.Symbol.Kernel
import Profiler.Proofs.Report.CallOrder
import Profiler.Proofs.Process.Synthesis
import Profiler.Proofs.Text.Words
import Profiler.Proofs.Text.Numeral
import Profiler.Proofs.Machine.MapsLine
import Profiler.Proofs.Machine.CpuList
import Profiler.Proofs.Recording.MappedFiles
import Profiler.Proofs.File.AnyAttr
