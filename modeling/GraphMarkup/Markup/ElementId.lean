import GraphMarkup.Graph

/-!
# Element ids

Whatever shows a graph refers to its vertices by ids, which are texts: either numbered in order,
or the names of the vertices themselves. The ids are settled for the whole graph before anything
of it is shown.
-/

namespace GraphMarkup

/-- How ids are chosen. -/
inductive IdStyle where
  /-- `v0`, `v1` and so on, in order of first mention. -/
  | sequential
  /-- The names. -/
  | name
deriving DecidableEq, Repr, Inhabited

/-- The id of the vertex at a place. -/
def IdStyle.idOf (style : IdStyle) (place : VertexId) (v : Vertex) : String :=
  match style with
  | .sequential => "v" ++ toString place
  | .name => v.name

namespace Graph

/-- The ids of all vertices, in order. -/
def ids (g : Graph) (style : IdStyle) : List String := g.vertices.mapIdx style.idOf

@[simp] theorem length_ids (g : Graph) (style : IdStyle) :
    (g.ids style).length = g.vertexCount := by
  simp [ids, vertexCount]

/-- All edges by the ids at their ends, in order; none if one of them leads outside the graph. -/
def edgeIds? (g : Graph) (style : IdStyle) : Option (List (String × String)) :=
  g.edgesBy? (g.ids style)

end Graph

end GraphMarkup
