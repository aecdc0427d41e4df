import GraphMarkup.Graph
import GraphMarkup.Text.Blank
import GraphMarkup.Text.WordChar
import GraphMarkup.Text.Lines
import GraphMarkup.Text.Quoted
import GraphMarkup.Text.Bytes
import GraphMarkup.Diagnostic
import GraphMarkup.Dot.Document
import GraphMarkup.ControlFlow.Extraction
import GraphMarkup.Json.Lexeme
import GraphMarkup.Json.Printer
import GraphMarkup.Json.Value
import GraphMarkup.Diagnostic.Json
import GraphMarkup.Output.Writer
import GraphMarkup.Markup.Escape
import GraphMarkup.Markup.ElementId
import GraphMarkup.Markup.Page
import GraphMarkup.CommandLine.Run
import GraphMarkup.Export
import GraphMarkup.Main
import GraphMarkup.Proofs.Dot.Moves
import GraphMarkup.Proofs.Graph.Places
import GraphMarkup.Proofs.Dot.Regular
import GraphMarkup.Proofs.Dot.Termination
import GraphMarkup.Proofs.Dot.FirstFault
import GraphMarkup.Proofs.Dot.Grammar
import GraphMarkup.Proofs.Dot.Acceptance
import GraphMarkup.Proofs.ControlFlow.Segments
import GraphMarkup.Proofs.Markup.Streaming
import GraphMarkup.Proofs.Graph.WellFormed
import GraphMarkup.Proofs.Markup.Emission
import GraphMarkup.Proofs.FrontEnds
import GraphMarkup.Proofs.Dot.Layout
import GraphMarkup.Proofs.Dot.Printing
import GraphMarkup.Proofs.Markup.Delivery
import GraphMarkup.Proofs.Markup.Unforgeable
import GraphMarkup.Proofs.Graph.History
import GraphMarkup.Proofs.Graph.Sameness
import GraphMarkup.Proofs.Dot.Reserved
import GraphMarkup.Proofs.Markup.Correspondence
import GraphMarkup.Proofs.CommandLine.Phases
import GraphMarkup.Proofs.CommandLine.Outcome
import GraphMarkup.Proofs.ControlFlow.Header
import GraphMarkup.Proofs.Dot.Beginning
import GraphMarkup.Proofs.Dot.Contract
import GraphMarkup.Proofs.Dot.Accounts
import GraphMarkup.Proofs.Dot.Effort
import GraphMarkup.Proofs.Dot.Sources
import GraphMarkup.Proofs.Dot.LeftOver
import GraphMarkup.Proofs.Dot.Reports
import GraphMarkup.Proofs.Dot.SingleLine
import GraphMarkup.Proofs.Dot.Chronology
import GraphMarkup.Proofs.Dot.Lockstep
import GraphMarkup.Proofs.Dot.Quoting
import GraphMarkup.Proofs.Text.Lines
import GraphMarkup.Proofs.ControlFlow.Patterns
import GraphMarkup.Proofs.ControlFlow.Outside
import GraphMarkup.Proofs.ControlFlow.Handover
import GraphMarkup.Proofs.ControlFlow.Unsupported
import GraphMarkup.Proofs.ControlFlow.Targets
import GraphMarkup.Proofs.Dot.Relabelling
import GraphMarkup.Proofs.Dot.Concatenation
import GraphMarkup.Proofs.LineEndings
import GraphMarkup.Proofs.Graph.Register
import GraphMarkup.Proofs.Text.Quoted
import GraphMarkup.Proofs.CommandLine.Listing
import GraphMarkup.Proofs.Json.Spelling
import GraphMarkup.Proofs.Json.Rows
import GraphMarkup.Proofs.Json.ReadBack
import GraphMarkup.Proofs.Export
import GraphMarkup.Proofs.Diagnostic
import GraphMarkup.Proofs.CommandLine.Quiet
import GraphMarkup.Proofs.Markup.References
