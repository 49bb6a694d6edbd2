import SlotChain.Act
import SlotChain.Arena
import SlotChain.Assertion
import SlotChain.Chain.Audit
import SlotChain.Chain.Basic
import SlotChain.Chain.Bulk
import SlotChain.Chain.Drain
import SlotChain.Chain.Mutation
import SlotChain.Chain.Splice
import SlotChain.CommandError
import SlotChain.CommandLine.Basic
import SlotChain.CommandLine.Help
import SlotChain.CommandLine.Parser
import SlotChain.Cursor
import SlotChain.Display
import SlotChain.Event
import SlotChain.Fault
import SlotChain.Files
import SlotChain.Handles
import SlotChain.IoError
import SlotChain.Item
import SlotChain.Json.Basic
import SlotChain.Json.Number
import SlotChain.Json.Quoted
import SlotChain.Json.Skip
import SlotChain.ListConfig
import SlotChain.ListStep
import SlotChain.LogFilter.Basic
import SlotChain.LogFilter.Directive
import SlotChain.Main
import SlotChain.Op.Basic
import SlotChain.Op.Run
import SlotChain.Op.Verb
import SlotChain.Pattern.Atom
import SlotChain.Pattern.Basic
import SlotChain.Pattern.Bracket
import SlotChain.Pattern.Depth
import SlotChain.Pattern.Flags
import SlotChain.Program
import SlotChain.Proofs.AlignedOutput
import SlotChain.Proofs.ArgumentWords
import SlotChain.Proofs.AuditVerdict
import SlotChain.Proofs.Auditing
import SlotChain.Proofs.BrokenSections
import SlotChain.Proofs.Building
import SlotChain.Proofs.BulkMoves
import SlotChain.Proofs.ConfigRoundTrips
import SlotChain.Proofs.ConfigTexts
import SlotChain.Proofs.Cursors
import SlotChain.Proofs.DisplayText
import SlotChain.Proofs.Draining
import SlotChain.Proofs.Encoding
import SlotChain.Proofs.EventLog
import SlotChain.Proofs.InspectionText
import SlotChain.Proofs.Integers
import SlotChain.Proofs.Iteration
import SlotChain.Proofs.JsonMembers
import SlotChain.Proofs.JsonNumbers
import SlotChain.Proofs.JsonStrings
import SlotChain.Proofs.JsonValues
import SlotChain.Proofs.Layouts
import SlotChain.Proofs.Likeness
import SlotChain.Proofs.LimitedOutput
import SlotChain.Proofs.Lines
import SlotChain.Proofs.Linkage
import SlotChain.Proofs.Locality
import SlotChain.Proofs.Mirroring
import SlotChain.Proofs.Mutations
import SlotChain.Proofs.Numerals
import SlotChain.Proofs.Outcomes
import SlotChain.Proofs.Ownership
import SlotChain.Proofs.Quotation
import SlotChain.Proofs.Reachable
import SlotChain.Proofs.Readback
import SlotChain.Proofs.Readers
import SlotChain.Proofs.Reference
import SlotChain.Proofs.Refinement
import SlotChain.Proofs.Removal
import SlotChain.Proofs.Room
import SlotChain.Proofs.ScriptFiles
import SlotChain.Proofs.ScriptGrammar
import SlotChain.Proofs.ScriptLayout
import SlotChain.Proofs.ScriptParts
import SlotChain.Proofs.ScriptText
import SlotChain.Proofs.Sections
import SlotChain.Proofs.Serialization
import SlotChain.Proofs.Sessions
import SlotChain.Proofs.Splicing
import SlotChain.Proofs.Threads
import SlotChain.Proofs.Transfers
import SlotChain.Proofs.TwinCourses
import SlotChain.Proofs.TwoEndedCalls
import SlotChain.Proofs.WordCounting
import SlotChain.Proofs.WordGrammar
import SlotChain.Proofs.WordRuns
import SlotChain.Script
import SlotChain.Session
import SlotChain.Sink
import SlotChain.SlotMap
import SlotChain.Table
import SlotChain.Text.Alphabetic
import SlotChain.Text.Alphanumeric
import SlotChain.Text.Blank
import SlotChain.Text.CodeRange
import SlotChain.Text.ControlFree
import SlotChain.Text.Decimal
import SlotChain.Text.GraphemeExtend
import SlotChain.Text.Lines
import SlotChain.Text.Numeral
import SlotChain.Text.Quoted
import SlotChain.Text.Report
import SlotChain.Text.Shape
import SlotChain.Text.Shortest
import SlotChain.Text.Slice
import SlotChain.Text.Unprintable
import SlotChain.Text.Utf8
import SlotChain.Token
import SlotChain.TwoEnded
import SlotChain.Word
