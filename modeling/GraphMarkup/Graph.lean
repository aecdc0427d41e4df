/-!
# Directed graphs of named vertices

A graph is what both front ends build and both back ends show: a document in the dot language
and a control-flow listing end up in the same type. Vertices are known by their names and stand
in the order in which the names were first mentioned; an edge refers to its ends by their places
in that order, so places never move while the graph only grows.

* `Graph.intern` finds the place of a name and makes a vertex for it on first mention.
* `Graph.names` is the view that the lemmas are stated in: what interning, linking and
  relabelling do to the list of names.
* `Graph.edgeNames?` reads the edges by name. It has no answer when an edge refers to a place
  that the graph does not have, which `Graph.EdgesInRange` excludes.
-/

namespace GraphMarkup

/-- The place of a vertex in its graph, counted from zero in order of first mention. -/
abbrev VertexId := Nat

/-- A vertex has the name it is known by and the label it is shown with. -/
structure Vertex where
  name : String
  label : String
deriving DecidableEq, Repr, Inhabited

/-- An edge leads from one place of its graph to another. -/
structure Edge where
  src : VertexId
  dst : VertexId
deriving DecidableEq, Repr, Inhabited

/-- The entries of a list at the two ends of an edge; none if an end lies outside the list. -/
def Edge.ends? {α : Type} (e : Edge) (xs : List α) : Option (α × α) := do
  return (← xs[e.src]?, ← xs[e.dst]?)

/-- An edge has entries at both ends exactly when both ends lie inside the list. -/
theorem Edge.isSome_ends? {α : Type} (e : Edge) (xs : List α) :
    (e.ends? xs).isSome ↔ e.src < xs.length ∧ e.dst < xs.length := by
  unfold Edge.ends?
  by_cases hSrc : e.src < xs.length
  · by_cases hDst : e.dst < xs.length
    · simp [hSrc, hDst]
    · simp [hSrc, hDst]
  · simp [hSrc]

/-- Vertices in order of first mention, edges in order of appearance. -/
structure Graph where
  vertices : List Vertex := []
  edges : List Edge := []
deriving DecidableEq, Repr, Inhabited

namespace Graph

/-- The graph without vertices and edges. -/
def empty : Graph := {}

/-! ## Looking things up -/

/-- The vertex names, in order. -/
def names (g : Graph) : List String := g.vertices.map (·.name)

/-- The place of the vertex called `name`. -/
def idOf? (g : Graph) (name : String) : Option VertexId :=
  g.vertices.findIdx? (·.name == name)

/-- The vertex called `name`. -/
def find? (g : Graph) (name : String) : Option Vertex :=
  g.vertices.find? (·.name == name)

/-- The vertex at a place, if the graph has that place. -/
def vertexAt? (g : Graph) (id : VertexId) : Option Vertex := g.vertices[id]?

def vertexCount (g : Graph) : Nat := g.vertices.length

def edgeCount (g : Graph) : Nat := g.edges.length

/-- A graph is empty when it has no vertices. Edges are not asked for. -/
def isEmpty (g : Graph) : Bool := g.vertices.isEmpty

/-- All edges by the entries of a list at their ends, in order; none if one of them leads
outside the list. -/
def edgesBy? {α : Type} (g : Graph) (xs : List α) : Option (List (α × α)) :=
  g.edges.mapM (·.ends? xs)

/-- All edges by name, in order; none if one of them leads outside the graph. -/
def edgeNames? (g : Graph) : Option (List (String × String)) := g.edgesBy? g.names

/-- Every edge leads from a vertex of the graph to a vertex of the graph. -/
def EdgesInRange (g : Graph) : Prop :=
  ∀ e ∈ g.edges, e.src < g.vertexCount ∧ e.dst < g.vertexCount

instance (g : Graph) : Decidable g.EdgesInRange :=
  inferInstanceAs (Decidable (∀ e ∈ g.edges, e.src < g.vertexCount ∧ e.dst < g.vertexCount))

/-! ## Building -/

/-- The place of `name`, with a vertex made for it at the end if there is none yet. A new
vertex is labelled with its name. -/
def intern (g : Graph) (name : String) : VertexId × Graph :=
  match g.idOf? name with
  | some id => (id, g)
  | none => (g.vertexCount, { g with vertices := g.vertices ++ [⟨name, name⟩] })

/-- Appends an edge. Edges that repeat are kept, and the ends are taken as they come. -/
def addEdge (g : Graph) (src dst : VertexId) : Graph :=
  { g with edges := g.edges ++ [⟨src, dst⟩] }

/-- Relabels the vertex at a place. A place outside the graph is passed over. -/
def setLabel (g : Graph) (id : VertexId) (label : String) : Graph :=
  { g with vertices := g.vertices.modify id fun v => { v with label := label } }

/-! ## Comparing -/

/-- Two graphs are the same when they hold the same vertices under the same names, in whatever
order, and the same edges by place and in order. -/
def sameAs (g h : Graph) : Bool :=
  g.vertexCount == h.vertexCount
    && g.vertices.all (fun v => h.find? v.name == some v)
    && g.edges == h.edges

/-! ## What building does to the view -/

@[simp] theorem length_names (g : Graph) : g.names.length = g.vertexCount := by
  simp [names, vertexCount]

@[simp] theorem edges_addEdge (g : Graph) (src dst : VertexId) :
    (g.addEdge src dst).edges = g.edges ++ [⟨src, dst⟩] := rfl

@[simp] theorem edges_setLabel (g : Graph) (id : VertexId) (label : String) :
    (g.setLabel id label).edges = g.edges := rfl

/-- Relabelling leaves every name where it was. -/
@[simp] theorem names_setLabel (g : Graph) (id : VertexId) (label : String) :
    (g.setLabel id label).names = g.names := by
  apply List.ext_getElem?
  intro i
  simp only [names, setLabel, List.getElem?_map, List.getElem?_modify]
  cases g.vertices[i]? with
  | none => rfl
  | some v =>
    show some (if id = i then { v with label := label } else v).name = some v.name
    split <;> rfl

@[simp] theorem edges_intern (g : Graph) (name : String) :
    (g.intern name).2.edges = g.edges := by
  unfold intern
  split <;> rfl

/-- A name has a place exactly when it is among the names. -/
theorem isSome_idOf? (g : Graph) (name : String) : (g.idOf? name).isSome ↔ name ∈ g.names := by
  simp [idOf?, names, List.findIdx?_isSome]

theorem idOf?_eq_none (g : Graph) (name : String) : g.idOf? name = none ↔ name ∉ g.names := by
  rw [← isSome_idOf?]
  simp

/-- Interning a known name changes nothing; a new name joins at the end. -/
theorem names_intern (g : Graph) (name : String) :
    (g.intern name).2.names = if name ∈ g.names then g.names else g.names ++ [name] := by
  unfold intern
  split
  next id hId =>
    have hMem : name ∈ g.names := by
      rw [← isSome_idOf?, hId]
      rfl
    rw [if_pos hMem]
  next hNone =>
    rw [if_neg ((idOf?_eq_none g name).1 hNone)]
    simp [names]

end Graph

end GraphMarkup
