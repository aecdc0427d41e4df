import GraphMarkup.Proofs.Graph.History
import GraphMarkup.Proofs.Markup.Unforgeable

/-!
# Graphs that are the same

Comparing two graphs (`Graph.sameAs`) goes by name for the vertices and by place for the edges. For
vertices of different names that comes to a permutation of the vertices and the same edges
(`sameAs_iff`), so an edge of one graph may lead between other names than the same edge of the
other: graphs that were built in another order can be the same without showing the same
(`not_shown_alike`).

Graphs that are the same have the same edges by name just if their edges have the same names at
their ends, and the same markup just if their labels come in the same order. If their names come in
the same order then they are equal (`Alike`, `sameAs_iff_and_alike`).
-/

namespace GraphMarkup

namespace Graph

variable {g h : Graph}

/-! ## What comparing looks at -/

theorem nodup_vertices (hDistinct : g.names.Nodup) : g.vertices.Nodup := .of_map _ hDistinct

theorem find?_of_mem (hDistinct : g.names.Nodup) {v : Vertex} (hv : v ∈ g.vertices) :
    g.find? v.name = some v := by
  obtain ⟨id, hAt⟩ := List.mem_iff_getElem?.1 hv
  exact find?_of_nodup hDistinct hAt

theorem map_find?_names (hDistinct : g.names.Nodup) :
    g.names.map g.find? = g.vertices.map some := by
  rw [names, List.map_map]
  exact List.map_congr_left fun v hv => find?_of_mem hDistinct hv

theorem sameAs_eq_true : g.sameAs h = true ↔
    g.vertexCount = h.vertexCount ∧ (∀ v ∈ g.vertices, h.find? v.name = some v) ∧
      g.edges = h.edges := by
  simp only [sameAs, Bool.and_eq_true, beq_iff_eq, List.all_eq_true, and_assoc]

/-- Graphs are the same when one has the vertices of the other, in whatever order, and their
edges. -/
theorem sameAs_iff (hg : g.names.Nodup) (hh : h.names.Nodup) :
    g.sameAs h = true ↔ g.vertices.Perm h.vertices ∧ g.edges = h.edges := by
  rw [sameAs_eq_true]
  constructor
  · rintro ⟨hCount, hFound, hEdges⟩
    have hSubset : g.vertices ⊆ h.vertices := fun v hv => List.mem_of_find?_eq_some (hFound v hv)
    have hSubperm := List.subperm_of_subset (nodup_vertices hg) hSubset
    exact ⟨hSubperm.perm_of_length_le hCount.ge, hEdges⟩
  · rintro ⟨hPerm, hEdges⟩
    exact ⟨hPerm.length_eq, fun v hv => find?_of_mem hh (hPerm.mem_iff.1 hv), hEdges⟩

/-- Graphs that are the same and have their names in the same order are equal. -/
theorem eq_of_sameAs (hh : h.names.Nodup) (hSame : g.sameAs h = true) (hNames : g.names = h.names) :
    g = h := by
  obtain ⟨-, hFound, hEdges⟩ := sameAs_eq_true.1 hSame
  -- Either list of vertices is what is found in `h` under the names.
  have hVertices : g.vertices.map some = h.vertices.map some := by
    rw [← map_find?_names hh, ← hNames, names, List.map_map]
    exact (List.map_congr_left hFound).symm
  cases g
  cases h
  rw [Graph.mk.injEq]
  exact ⟨List.map_injective_iff.2 (Option.some_injective Vertex) hVertices, hEdges⟩

/-! ## What is shown -/

/-- Where edges stay in range, they are read alike exactly if each has the same at its ends. -/
theorem edgesBy?_eq_iff {α : Type} {xs ys : List α} (hEdges : g.edges = h.edges)
    (hRange : ∀ e ∈ g.edges, e.src < xs.length ∧ e.dst < xs.length) :
    g.edgesBy? xs = h.edgesBy? ys ↔ ∀ e ∈ g.edges, e.ends? xs = e.ends? ys := by
  obtain ⟨pairs, hPairs, -⟩ := edgesBy?_eq_some hRange
  rw [hPairs, eq_comm, edgesBy?, ← hEdges, mapM_eq_some_iff, ← mapM_eq_some_iff.1 hPairs,
    List.map_inj_left]
  exact forall₂_congr fun e _ => eq_comm

theorem ids_sequential (g : Graph) :
    g.ids .sequential = (List.range g.vertexCount).map fun place => "v" ++ toString place := by
  apply List.ext_getElem
  · simp
  · intro i hi hi'
    simp [ids, IdStyle.idOf]

open Markup

/-- A document is shown by the labels of its vertices and by its edges. -/
theorem documentText?_congr (hLabels : g.vertices.map (·.label) = h.vertices.map (·.label))
    (hEdges : g.edges = h.edges) : documentText? g = documentText? h := by
  have hCount : g.vertexCount = h.vertexCount := by
    simpa [vertexCount] using congrArg List.length hLabels
  have hIds : g.ids .sequential = h.ids .sequential := by
    rw [ids_sequential, ids_sequential, hCount]
  -- Without endings nothing of a vertex is shown but its label, and ids are numbers.
  have hPlain : ∀ f : Graph, List.zipWith (VertexElement.ofVertex fun _ => none) (f.ids .sequential)
      f.vertices = List.zipWith VertexElement.plain (f.ids .sequential)
        (f.vertices.map (·.label)) := by
    intro f
    rw [List.zipWith_map_right]
    rfl
  have hVertices : List.zipWith (VertexElement.ofVertex fun _ => none) (g.ids .sequential)
      g.vertices = List.zipWith (VertexElement.ofVertex fun _ => none) (h.ids .sequential)
        h.vertices := by
    rw [hPlain, hPlain, hIds, hLabels]
  have hPaths : g.edgeIds? .sequential = h.edgeIds? .sequential := by
    rw [edgeIds?, edgeIds?, edgesBy?, edgesBy?, hIds, hEdges]
  have hGroup : Group.ofDocument? g = Group.ofDocument? h := by
    unfold Group.ofDocument? Group.ofGraph?
    rw [hVertices, hPaths]
  rw [documentText?, documentText?, documentPieces?, documentPieces?, hGroup]

/-- What two graphs with the same edges share of what they show: the edges by name just if the names
at the ends of each edge are the same, the markup just if the labels come in the same order, and
everything if the names do. -/
structure Alike (g h : Graph) : Prop where
  edgeNames : g.edgeNames? = h.edgeNames? ↔ ∀ e ∈ g.edges, e.ends? g.names = e.ends? h.names
  markup : documentText? g = documentText? h ↔
    g.vertices.map (·.label) = h.vertices.map (·.label)
  equal : g.names = h.names → g = h

theorem alike_of_sameAs (hg : g.WellFormed) (hh : h.WellFormed) (hSame : g.sameAs h = true) :
    g.Alike h where
  edgeNames := by
    have hRange : ∀ e ∈ g.edges, e.src < g.names.length ∧ e.dst < g.names.length := by
      rw [length_names]
      exact hg.inRange
    exact edgesBy?_eq_iff (sameAs_eq_true.1 hSame).2.2 hRange
  markup := by
    obtain ⟨-, -, hEdges⟩ := sameAs_eq_true.1 hSame
    refine ⟨fun hText => ?_, fun hLabels => documentText?_congr hLabels hEdges⟩
    obtain ⟨text, hShown⟩ : ∃ text, documentText? g = some text := by
      rw [← Option.isSome_iff_exists, documentText?, Option.isSome_map]
      exact hg.shown.markup
    exact (documentText?_inj hg.distinct hShown (hText ▸ hShown)).1
  equal := eq_of_sameAs hh.distinct hSame

/-! ## Graphs that are built -/

namespace Used

def run (u : Used) (calls : List Call) : Used := calls.foldl after u

/-- Every place that is passed in was told by the graph itself, since it was last cleared. -/
def Own (u : Used) (call : Call) : Prop := ∀ id ∈ call.passed, id ∈ u.told

instance (u : Used) : DecidablePred u.Own := fun call =>
  inferInstanceAs (Decidable (∀ id ∈ call.passed, id ∈ u.told))

theorem sound_run {calls : List Call} (hOwn : Along after Own {} calls) : (run {} calls).Sound :=
  hOwn.foldl (fun _ _ hu hPassed => hu.after fun id hId =>
    hPassed id (Call.mem_passed_of_mem_linked hId)) sound_new

/-- Built graphs are the same just if they have the same vertices, in whatever order, and the same
edges by place, and then they show alike as far as names and labels come in the same order. -/
theorem sameAs_iff_and_alike {calls calls' : List Call} (hOwn : Along after Own {} calls)
    (hOwn' : Along after Own {} calls') :
    ((run {} calls).graph.sameAs (run {} calls').graph = true ↔
        (run {} calls).graph.vertices.Perm (run {} calls').graph.vertices ∧
          (run {} calls).graph.edges = (run {} calls').graph.edges) ∧
      ((run {} calls).graph.sameAs (run {} calls').graph = true →
        (run {} calls).graph.Alike (run {} calls').graph) := by
  have hg := (sound_run hOwn).graph
  have hh := (sound_run hOwn').graph
  exact ⟨sameAs_iff hg.distinct hh.distinct, alike_of_sameAs hg hh⟩

/-- Two graphs are the same although they were labelled at different times. -/
theorem alike_relabelled :
    (run {} [.vertex "a", .vertex "b", .setLabel 0 "x", .addEdge 0 1]).graph.sameAs
        (run {} [.vertex "a", .setLabel 0 "x", .vertex "b", .addEdge 0 1]).graph = true ∧
      (run {} [.vertex "a", .vertex "b", .setLabel 0 "x", .addEdge 0 1]).graph =
        (run {} [.vertex "a", .setLabel 0 "x", .vertex "b", .addEdge 0 1]).graph := by
  have hSame : (run {} [.vertex "a", .vertex "b", .setLabel 0 "x", .addEdge 0 1]).graph.sameAs
      (run {} [.vertex "a", .setLabel 0 "x", .vertex "b", .addEdge 0 1]).graph = true := by
    decide
  exact ⟨hSame, ((sameAs_iff_and_alike (by decide) (by decide)).2 hSame).equal (by decide)⟩

/-- Two graphs that are the same, of which one leads from `a` to `b` and the other from `b` to `a`,
by name as well as by markup. -/
theorem not_shown_alike :
    Along after Own {} [.vertex "a", .vertex "b", .addEdge 0 1] ∧
      Along after Own {} [.vertex "b", .vertex "a", .addEdge 0 1] ∧
        (run {} [.vertex "a", .vertex "b", .addEdge 0 1]).graph.sameAs
            (run {} [.vertex "b", .vertex "a", .addEdge 0 1]).graph = true ∧
          (run {} [.vertex "a", .vertex "b", .addEdge 0 1]).graph.edgeNames? = some [("a", "b")] ∧
          (run {} [.vertex "b", .vertex "a", .addEdge 0 1]).graph.edgeNames? = some [("b", "a")] ∧
            documentText? (run {} [.vertex "a", .vertex "b", .addEdge 0 1]).graph ≠
              documentText? (run {} [.vertex "b", .vertex "a", .addEdge 0 1]).graph := by
  decide +kernel

end Used

end Graph

end GraphMarkup
