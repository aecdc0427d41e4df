import GraphMarkup.Export
import GraphMarkup.Markup.Group
import GraphMarkup.Proofs.Graph.WellFormed
import Mathlib

/-!
# Showing a well-formed graph

Everything that shows a graph looks up the ends of its edges in a list with an entry for each
vertex: the names, or the ids in one style or the other. In a well-formed graph every such look-up
succeeds (`edgesBy?_eq_some`), so there is markup and JSON for it in both styles, and for a function
with its blocks (`Graph.WellFormed.shown`, `shown_of_graph`). Ids do not repeat in either style
(`Graph.nodup_ids`) and different ids are written differently, so a path element refers to one
vertex element at each end (`Group.Unambiguous`).
-/

namespace GraphMarkup

/-! ## Looking up the ends of edges -/

theorem Edge.ends?_eq_some {α : Type} {e : Edge} {xs : List α} (hSrc : e.src < xs.length)
    (hDst : e.dst < xs.length) : e.ends? xs = some (xs[e.src], xs[e.dst]) := by
  simp [ends?, hSrc, hDst]

/-- Where no edge leads outside a list, all have entries of it at their ends. -/
theorem Graph.edgesBy?_eq_some {α : Type} {g : Graph} {xs : List α}
    (hRange : ∀ e ∈ g.edges, e.src < xs.length ∧ e.dst < xs.length) :
    ∃ pairs, g.edgesBy? xs = some pairs ∧ ∀ p ∈ pairs, p.1 ∈ xs ∧ p.2 ∈ xs := by
  unfold edgesBy?
  generalize g.edges = edges at hRange
  induction edges with
  | nil => exact ⟨[], rfl, by simp⟩
  | cons e more ih =>
    obtain ⟨hSrc, hDst⟩ := hRange e List.mem_cons_self
    obtain ⟨pairs, hPairs, hIn⟩ := ih fun later hMem => hRange later (List.mem_cons_of_mem _ hMem)
    refine ⟨(xs[e.src], xs[e.dst]) :: pairs, ?_, ?_⟩
    · rw [List.mapM_cons, Edge.ends?_eq_some hSrc hDst, hPairs]
      rfl
    · intro p hp
      rcases List.mem_cons.1 hp with rfl | hLater
      · exact ⟨List.getElem_mem hSrc, List.getElem_mem hDst⟩
      · exact hIn p hLater

/-! ## Ids -/

namespace Graph

variable {g : Graph}

theorem ids_name (g : Graph) : g.ids .name = g.names := by
  apply List.ext_getElem?
  intro i
  simp only [ids, names, List.getElem?_mapIdx, List.getElem?_map]
  rfl

theorem nodup_ids_sequential (g : Graph) : (g.ids .sequential).Nodup := by
  rw [List.nodup_iff_getElem?_ne_getElem?]
  intro i j hLt hLen hEq
  rw [length_ids] at hLen
  have hLen' : i < g.vertices.length := hLt.trans hLen
  simp only [ids, List.getElem?_mapIdx, List.getElem?_eq_getElem hLen',
    List.getElem?_eq_getElem hLen, Option.map_some, Option.some.injEq, IdStyle.idOf] at hEq
  have hPlace : i = j := Nat.repr_inj.1 ((String.append_right_inj "v").1 hEq)
  omega

/-- No two vertices have the same id. -/
theorem nodup_ids (hDistinct : g.names.Nodup) (style : IdStyle) : (g.ids style).Nodup := by
  cases style with
  | sequential => exact nodup_ids_sequential g
  | name =>
    rw [ids_name]
    exact hDistinct

theorem edgeIds?_eq_some (hRange : g.EdgesInRange) (style : IdStyle) :
    ∃ pairs, g.edgeIds? style = some pairs ∧
      ∀ p ∈ pairs, p.1 ∈ g.ids style ∧ p.2 ∈ g.ids style := by
  refine edgesBy?_eq_some fun e hEdge => ?_
  rw [length_ids]
  exact hRange e hEdge

theorem toFields?_of_edgeIds? {style : IdStyle} {pairs : List (String × String)}
    (hPairs : g.edgeIds? style = some pairs) :
    g.toFields? style =
      some [("vertices", .list (List.zipWith Vertex.toJson (g.ids style) g.vertices)),
        ("edges", .list (pairs.map edgeJson))] := by
  rw [toFields?, hPairs]
  rfl

end Graph

/-! ## Groups -/

namespace Markup

open ControlFlow (Terminator FlowGraph)

/-- The id of a vertex element. -/
def VertexElement.id : VertexElement → String
  | .plain id _ => id
  | .annotated id _ _ => id

theorem VertexElement.id_ofVertex (ending? : String → Option Terminator) (id : String)
    (v : Vertex) : (VertexElement.ofVertex ending? id v).id = id := by
  unfold ofVertex
  cases ending? v.name <;> rfl

/-- Each end of a path element is, as it is written, the written id of exactly one vertex
element. -/
def Group.Unambiguous (group : Group) : Prop :=
  ∀ p ∈ group.paths,
    (group.vertices.map fun v => escape v.id).count (escape p.src) = 1 ∧
      (group.vertices.map fun v => escape v.id).count (escape p.dst) = 1

/-- There is an element for each vertex, with its id. -/
theorem map_id_zipWith (ending? : String → Option Terminator) (g : Graph) (style : IdStyle) :
    (List.zipWith (VertexElement.ofVertex ending?) (g.ids style) g.vertices).map VertexElement.id =
      g.ids style := by
  have hLength : (g.ids style).length = g.vertices.length := g.length_ids style
  apply List.ext_getElem
  · simp [hLength]
  · intro i hi hi'
    simp [VertexElement.id_ofVertex]

theorem Group.ofGraph?_eq_some {g : Graph} (hg : g.WellFormed) (style : IdStyle)
    (ending? : String → Option Terminator) :
    ∃ group, Group.ofGraph? g style ending? = some group ∧ group.Unambiguous := by
  obtain ⟨pairs, hPairs, hIn⟩ := Graph.edgeIds?_eq_some hg.inRange style
  let vertices := List.zipWith (VertexElement.ofVertex ending?) (g.ids style) g.vertices
  have hIds : (vertices.map fun v => escape v.id) = (g.ids style).map escape := by
    rw [← map_id_zipWith ending? g style, List.map_map]
    rfl
  have hOnce : ∀ id ∈ g.ids style, (vertices.map fun v => escape v.id).count (escape id) = 1 := by
    intro id hId
    rw [hIds, List.count_map_of_injective _ _ fun _ _ => escape_inj.1]
    exact List.count_eq_one_of_mem (Graph.nodup_ids hg.distinct style) hId
  refine ⟨_, by rw [Group.ofGraph?, hPairs]; rfl, fun p hp => ?_⟩
  obtain ⟨pair, hPair, rfl⟩ := List.mem_map.1 hp
  exact ⟨hOnce _ (hIn pair hPair).1, hOnce _ (hIn pair hPair).2⟩

end Markup

/-! ## What is shown -/

open Markup

/-- A graph can be shown in every way: its edges by name, its markup, its JSON in both styles and
under any name, and a group in both styles, whatever endings its vertices have, in which the paths
are unambiguous. -/
structure Graph.Shown (g : Graph) : Prop where
  edgeNames : g.edgeNames?.isSome
  markup : (documentPieces? g).isSome
  json : ∀ style, (g.toJson? style).isSome
  namedJson : ∀ name, (g.toNamedJson? name).isSome
  groups : ∀ style ending?, ∃ group,
    Group.ofGraph? g style ending? = some group ∧ group.Unambiguous

theorem Graph.WellFormed.shown {g : Graph} (hg : g.WellFormed) : g.Shown where
  edgeNames := by
    have hNames : ∀ e ∈ g.edges, e.src < g.names.length ∧ e.dst < g.names.length := by
      intro e hEdge
      rw [length_names]
      exact hg.inRange e hEdge
    obtain ⟨pairs, hPairs, -⟩ := edgesBy?_eq_some hNames
    rw [edgeNames?, hPairs]
    rfl
  markup := by
    obtain ⟨group, hGroup, -⟩ := Group.ofGraph?_eq_some hg .sequential fun _ => none
    rw [documentPieces?, Group.ofDocument?, hGroup]
    rfl
  json style := by
    obtain ⟨pairs, hPairs, -⟩ := edgeIds?_eq_some hg.inRange style
    rw [toJson?, toFields?_of_edgeIds? hPairs]
    rfl
  namedJson name := by
    obtain ⟨pairs, hPairs, -⟩ := edgeIds?_eq_some hg.inRange .sequential
    rw [toNamedJson?, toFields?_of_edgeIds? hPairs]
    rfl
  groups := Group.ofGraph?_eq_some hg

theorem Graph.Shown.exists_pieces {g : Graph} (hg : g.Shown) :
    ∃ pieces, documentPieces? g = some pieces ∧ documentText? g = some (String.join pieces) := by
  obtain ⟨pieces, hPieces⟩ := Option.isSome_iff_exists.1 hg.markup
  exact ⟨pieces, hPieces, congrArg (Option.map String.join) hPieces⟩

namespace ControlFlow.FlowGraph

/-- A function can be shown: its graph in every way, its markup with the endings of its blocks, and
its JSON. -/
structure Shown (f : FlowGraph) : Prop where
  graph : f.graph.Shown
  markup : (functionPieces? f).isSome
  json : f.toJson?.isSome

theorem shown_of_graph {f : FlowGraph} (hf : f.graph.WellFormed) : f.Shown where
  graph := hf.shown
  markup := by
    obtain ⟨group, hGroup, -⟩ := Group.ofGraph?_eq_some hf .name f.terminator?
    rw [functionPieces?, Group.ofFunction?, hGroup]
    rfl
  json := by
    obtain ⟨pairs, hPairs, -⟩ := Graph.edgeIds?_eq_some hf.inRange .name
    rw [toJson?, Graph.toFields?_of_edgeIds? hPairs]
    rfl

end ControlFlow.FlowGraph

end GraphMarkup
