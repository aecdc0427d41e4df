import GraphMarkup.ControlFlow.Line
import GraphMarkup.Diagnostic
import GraphMarkup.Text.Lines

/-!
# Extracting flow graphs from a listing

An extraction takes a listing line by line. A header opens a function, which stays open until
the next header or the end; a label opens a block, and the block in front of the first label of
a function is called `0`. Branches and ends of blocks mark the open block, and each target of a
branch becomes an edge. When a function is complete it is handed over and forgotten.

`extract` hands over all functions of a listing at once; `Extraction.feed` is what a caller uses
who wants each function as soon as it is complete.
-/

namespace GraphMarkup.ControlFlow

/-- The name of the block in front of the first label of a function. -/
def entryBlock : String := "0"

/-- How far a listing has been taken in. -/
structure Extraction where
  /-- How many lines have been taken in, counted in thirty-two bits. -/
  line : UInt32 := 0
  /-- The function that is open. -/
  function : Option String := none
  /-- The block that is open. -/
  block : Option String := none
  graph : Graph := {}
  ends : BlockEnds := []
  diagnostics : Array Diagnostic := #[]
deriving DecidableEq, Repr, Inhabited

namespace Extraction

/-- The open function as it stands, if one is open. -/
def completed? (x : Extraction) : Option FlowGraph :=
  x.function.map fun name => ⟨name, x.graph, x.ends⟩

/-- Opens a function. Labels that were seen outside a function do not become part of it. -/
def openFunction (x : Extraction) (name : String) : Extraction :=
  { x with function := some name, block := some entryBlock, graph := {}, ends := [] }

/-- Opens a block. -/
def openBlock (x : Extraction) (name : String) : Extraction :=
  { x with block := some name, graph := (x.graph.intern name).2 }

/-- Marks a block with the instruction that ends it. -/
def markBlock (x : Extraction) (block : String) (t : Terminator) : Extraction :=
  { x with graph := (x.graph.intern block).2, ends := x.ends.mark block t }

/-- Records an instruction that ends a block where no block is open. -/
def report (x : Extraction) (t : Terminator) : Extraction :=
  let message := "'" ++ t.word ++ "' outside of a basic block"
  { x with diagnostics := x.diagnostics.push ⟨.extract, x.line, message⟩ }

end Extraction

/-- Adds an edge to the vertex with a given name, which is made on first mention. -/
def linkTo (src : VertexId) (g : Graph) (target : String) : Graph :=
  let (dst, g) := g.intern target
  g.addEdge src dst

namespace Extraction

/-- Adds the edges from a block to the targets of a branch. -/
def link (x : Extraction) (block : String) (names : List String) : Extraction :=
  let (src, graph) := x.graph.intern block
  { x with graph := names.foldl (linkTo src) graph }

/-- Takes in what a line says, and the function that it completes. -/
def take (x : Extraction) (names : List String) : Line → Extraction × Option FlowGraph
  | .define name => (x.openFunction name, x.completed?)
  | .block name => (x.openBlock name, none)
  | .branch t =>
    match x.block with
    | some block => ((x.markBlock block t).link block names, none)
    | none => (x.report t, none)
  | .terminator t =>
    match x.block with
    | some block => (x.markBlock block t, none)
    | none => (x.report t, none)

/-- Takes in the next line, and hands over the function that it completes. -/
def feed (x : Extraction) (line : String) : Extraction × Option FlowGraph :=
  let x := { x with line := x.line + 1 }
  match Line.ofText? line with
  | some said => x.take (targets line.toList) said
  | none => (x, none)

/-- Takes in lines one after another. -/
def feedAll (x : Extraction) : List String → Extraction × List FlowGraph
  | [] => (x, [])
  | line :: more =>
    let (x, completed) := x.feed line
    let (x, later) := x.feedAll more
    (x, completed.toList ++ later)

/-- What is left at the end: the open function, and all diagnostics. -/
def finish (x : Extraction) : Option FlowGraph × List Diagnostic :=
  (x.completed?, x.diagnostics.toList)

end Extraction

/-- The functions of a listing, and what was wrong with it. -/
structure Listing where
  functions : List FlowGraph
  diagnostics : List Diagnostic
deriving DecidableEq, Repr

/-- Extracts all functions of a listing. -/
def extract (source : String) : Listing :=
  let (x, functions) := ({} : Extraction).feedAll (Text.lines source)
  let (last, diagnostics) := x.finish
  ⟨functions ++ last.toList, diagnostics⟩

end GraphMarkup.ControlFlow
