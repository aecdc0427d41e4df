import GraphMarkup.ControlFlow.FlowGraph
import GraphMarkup.Json.Value
import GraphMarkup.Markup.ElementId

/-!
# Graphs as JSON

A graph is written with its vertices, each with its id, name and label, and with its edges by the
ids of their ends. A function adds its name and the endings of its blocks. There is no value for
a graph with an edge that leads outside it.
-/

namespace GraphMarkup

/-- A vertex with a given id. -/
def Vertex.toJson (id : String) (v : Vertex) : Json.Value :=
  .ofFields [("id", .text id), ("name", .text v.name), ("label", .text v.label)]

/-- An edge by the ids of its ends. -/
def edgeJson (ends : String × String) : Json.Value :=
  .ofFields [("src", .text ends.1), ("dst", .text ends.2)]

/-- The fields of a graph. -/
def Graph.toFields? (g : Graph) (style : IdStyle) : Option Json.Fields := do
  let edges ← g.edgeIds? style
  return [("vertices", .list (List.zipWith Vertex.toJson (g.ids style) g.vertices)),
    ("edges", .list (edges.map edgeJson))]

/-- A graph. -/
def Graph.toJson? (g : Graph) (style : IdStyle) : Option Json.Value :=
  (g.toFields? style).map .ofFields

/-- A graph under the name of its document, if it has one. -/
def Graph.toNamedJson? (g : Graph) (name : Option String) : Option Json.Value := do
  return .ofFields ((← g.toFields? .sequential) ++ [("name", .ofText? name)])

namespace ControlFlow

/-- The endings of blocks, by block. -/
def BlockEnds.toJson (ends : BlockEnds) : Json.Value :=
  .ofFields (ends.map fun (block, t) => (block, .text t.word))

/-- A function, with the names of its blocks as ids. -/
def FlowGraph.toJson? (f : FlowGraph) : Option Json.Value := do
  return .ofFields ((← f.graph.toFields? .name)
    ++ [("function", .text f.name), ("terminators", f.ends.toJson)])

end ControlFlow

end GraphMarkup
