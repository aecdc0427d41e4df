import GraphMarkup.ControlFlow.Extraction
import GraphMarkup.Markup.Fragments
import GraphMarkup.Markup.Group

/-!
# Pages

A page is a header, what is to be shown, and a footer. It can be written from a graph, from
functions that have all been extracted, or from a listing, in which case each function is
written as soon as it is complete.

When a write fails while a listing is still being taken in, the rest of it is taken in all the
same, but nothing more is written.
-/

namespace GraphMarkup.Markup

open ControlFlow (Extraction FlowGraph)

namespace Page

variable {σ : Type}

open Writer

/-- Writes the markup of a function. -/
def writeFunction (sink : Sink σ) (f : FlowGraph) : Writer σ Unit :=
  writePieces? sink (functionPieces? f)

/-- Writes the page for a graph read from a document. -/
def writeGraph (sink : Sink σ) (around : Fragments) (g : Graph) : Writer σ Unit := do
  writeBytes sink around.header
  writePieces? sink (documentPieces? g)
  writeBytes sink around.footer
  flush sink

/-- Writes the page for functions, in order. -/
def writeFunctions (sink : Sink σ) (around : Fragments) (fs : List FlowGraph) :
    Writer σ Unit := do
  writeBytes sink around.header
  fs.forM (writeFunction sink)
  writeBytes sink around.footer
  flush sink

/-! ## Writing while a listing is taken in -/

/-- Writes a function, if one is complete and nothing has failed yet. -/
def writeCompleted (sink : Sink σ) (failed : Option Failure) (completed : Option FlowGraph) :
    Writer σ (Option Failure) :=
  match failed, completed with
  | none, some f => attempt (writeFunction sink f)
  | failed, _ => return failed

/-- Takes in the next line, and writes the function that it completes. -/
def takeLine (sink : Sink σ) (progress : Extraction × Option Failure) (line : String) :
    Writer σ (Extraction × Option Failure) := do
  let (x, completed) := progress.1.feed line
  return (x, ← writeCompleted sink progress.2 completed)

/-- Writes the page for a listing, and gives what was wrong with the listing. -/
def writeListing (sink : Sink σ) (around : Fragments) (source : String) :
    Writer σ (List Diagnostic) := do
  writeBytes sink around.header
  let (x, failed) ← (Text.lines source).foldlM (takeLine sink) ({}, none)
  let (last, diagnostics) := x.finish
  match ← writeCompleted sink failed last with
  | some failure => throw failure
  | none =>
    writeBytes sink around.footer
    flush sink
    return diagnostics

end Page

end GraphMarkup.Markup
