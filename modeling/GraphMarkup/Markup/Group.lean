import GraphMarkup.ControlFlow.FlowGraph
import GraphMarkup.Markup.ElementId
import GraphMarkup.Markup.Escape

/-!
# Groups of elements

A graph is shown as one group: an element for each vertex, a blank line, and an element for each
edge that names the ids of its two ends. A vertex that is a block with a known ending is drawn as
a group of its own which shows the ending under the label. Where things are placed is left to
whatever draws the markup.

A group is data (`Group.ofGraph?`) before it is text (`Group.pieces`); every text that comes from
outside is escaped on the way.
-/

namespace GraphMarkup.Markup

open ControlFlow (Terminator FlowGraph)

/-- The element for a vertex. -/
inductive VertexElement where
  | plain (id label : String)
  /-- A block, shown with the instruction that ends it. -/
  | annotated (id label : String) (t : Terminator)
deriving DecidableEq, Repr, Inhabited

/-- The element for an edge, with the ids of its ends. -/
structure PathElement where
  src : String
  dst : String
deriving DecidableEq, Repr, Inhabited

/-- What is shown of a graph. -/
structure Group where
  vertices : List VertexElement
  paths : List PathElement
deriving DecidableEq, Repr, Inhabited

/-- The element for a vertex with a given id, by what is known of its ending. -/
def VertexElement.ofVertex (ending? : String → Option Terminator) (id : String) (v : Vertex) :
    VertexElement :=
  match ending? v.name with
  | some t => .annotated id v.label t
  | none => .plain id v.label

/-- The elements of a graph; none if an edge leads outside it. -/
def Group.ofGraph? (g : Graph) (style : IdStyle) (ending? : String → Option Terminator) :
    Option Group := do
  let paths ← g.edgeIds? style
  return {
    vertices := List.zipWith (VertexElement.ofVertex ending?) (g.ids style) g.vertices
    paths := paths.map fun (src, dst) => ⟨src, dst⟩ }

/-! ## Text -/

/-- The text of a vertex element, in the pieces in which it is written. -/
def VertexElement.pieces : VertexElement → List String
  | .plain id label => ["  <text id=\"", escape id, "\">", escape label, "</text>\n"]
  | .annotated id label t =>
    ["  <g id=\"", escape id, "\" class=\"vlayout\">\n",
      "    <text>", escape label, ":</text>\n",
      "    <text>&nbsp;&nbsp;", t.word, "</text>\n",
      "  </g>\n"]

/-- The text of a path element, in pieces. -/
def PathElement.pieces (p : PathElement) : List String :=
  ["  <path class=\"edge\" src=\"", escape p.src, "\" dst=\"", escape p.dst, "\"/>\n"]

/-- The text of a group, in pieces. -/
def Group.pieces (group : Group) : List String :=
  "<g class=\"layout\">\n" :: group.vertices.flatMap VertexElement.pieces
    ++ "\n" :: group.paths.flatMap PathElement.pieces
    ++ ["</g>\n"]

/-! ## What is shown -/

/-- The group for a graph read from a document: numbered ids, and no endings. -/
def Group.ofDocument? (g : Graph) : Option Group :=
  Group.ofGraph? g .sequential fun _ => none

/-- The group for the blocks of a function: their names as ids, and their endings. -/
def Group.ofFunction? (f : FlowGraph) : Option Group :=
  Group.ofGraph? f.graph .name f.terminator?

/-- The side of the square that each function is drawn in. -/
def surfaceSize : Nat := 800

/-- A function in pieces: a heading, the square it is drawn in, and the group of its blocks. -/
def functionPieces? (f : FlowGraph) : Option (List String) := do
  let group ← Group.ofFunction? f
  let side := toString surfaceSize
  return ["\n", "<h2>", escape f.name, "</h2>\n",
      "<svg width=\"", side, "\" height=\"", side, "\" viewBox=\"0 0 ", side, " ", side, "\">\n"]
    ++ group.pieces ++ ["</svg>\n"]

/-- A graph read from a document, in pieces. -/
def documentPieces? (g : Graph) : Option (List String) := (Group.ofDocument? g).map Group.pieces

/-- The markup of a graph read from a document. -/
def documentText? (g : Graph) : Option String := (documentPieces? g).map String.join

/-- The markup of a function. -/
def functionText? (f : FlowGraph) : Option String := (functionPieces? f).map String.join

end GraphMarkup.Markup
