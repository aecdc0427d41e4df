import GraphMarkup.Proofs.Json.ReadBack
import GraphMarkup.Proofs.Markup.Correspondence

/-!
# What exported JSON tells

Nothing of a graph is lost in its JSON (`Graph.ToldBy.unique`): the items of the list of vertices
give ids, names and labels in order, and an edge is told by the ids at its ends, which no two
vertices share. It does not matter which ids were chosen, as these stand beside the names.

The JSON of a function has the fields of its graph and two more. Their names are fixed, so that no
name of a function or block can take the place of a field of the graph
(`FlowGraph.exists_toJson?`). The names of blocks do become names of fields, in the object of
endings, and there each block has but one (`BlockEnds.toJson_inj`).

What is written from two values is the same in a layout only if they are the same value, so all this
can be told from the texts as well.
-/

namespace GraphMarkup

open ControlFlow (BlockEnds FlowGraph Terminator extract)
open Dot (Document)

/-! ## Items -/

/-- The JSON of a vertex tells its id and the vertex. -/
theorem Vertex.toJson_inj {id id' : String} {v w : Vertex} (h : v.toJson id = w.toJson id') :
    id = id' ∧ v = w := by
  have hId : some (Json.Value.text id) = some (.text id') := congrArg (Json.Value.field? "id") h
  have hName : some (Json.Value.text v.name) = some (.text w.name) :=
    congrArg (Json.Value.field? "name") h
  have hLabel : some (Json.Value.text v.label) = some (.text w.label) :=
    congrArg (Json.Value.field? "label") h
  simp only [Option.some.injEq, Json.Value.text.injEq] at hId hName hLabel
  cases v
  cases w
  cases hName
  cases hLabel
  exact ⟨hId, rfl⟩

theorem edgeJson_inj {ends ends' : String × String} (h : edgeJson ends = edgeJson ends') :
    ends = ends' := by
  have hSrc : some (Json.Value.text ends.1) = some (.text ends'.1) :=
    congrArg (Json.Value.field? "src") h
  have hDst : some (Json.Value.text ends.2) = some (.text ends'.2) :=
    congrArg (Json.Value.field? "dst") h
  simp only [Option.some.injEq, Json.Value.text.injEq] at hSrc hDst
  exact Prod.ext hSrc hDst

theorem zipWith_inj {α β γ : Type} {f : α → β → γ}
    (hf : ∀ a b a' b', f a b = f a' b' → a = a' ∧ b = b') {as as' : List α} {bs bs' : List β}
    (hLength : as.length = bs.length) (hLength' : as'.length = bs'.length)
    (h : List.zipWith f as bs = List.zipWith f as' bs') : as = as' ∧ bs = bs' := by
  rw [← List.map_uncurry_zip_eq_zipWith, ← List.map_uncurry_zip_eq_zipWith] at h
  have hZip : as.zip bs = as'.zip bs' :=
    (List.map_inj_right fun p q hpq => Prod.ext_iff.2 (hf p.1 p.2 q.1 q.2 hpq)).1 h
  have hUnzip := congrArg List.unzip hZip
  rw [List.unzip_zip hLength, List.unzip_zip hLength'] at hUnzip
  exact Prod.mk.inj hUnzip

/-! ## Graphs -/

/-- A value with the vertices of a graph, each beside its id, and the edges by the ids of their
ends. -/
structure Graph.ToldBy (g : Graph) (style : IdStyle) (v : Json.Value) : Prop where
  vertices : v.field? "vertices" =
    some (.list (List.zipWith Vertex.toJson (g.ids style) g.vertices))
  edges : ∃ pairs, g.edgeIds? style = some pairs ∧
    v.field? "edges" = some (.list (pairs.map edgeJson))

namespace Graph

theorem ToldBy.unique {g h : Graph} {style style' : IdStyle} {v : Json.Value}
    (hDistinct : g.names.Nodup) (hg : g.ToldBy style v) (hh : h.ToldBy style' v) : g = h := by
  have hItems := hg.vertices.symm.trans hh.vertices
  obtain ⟨pairs, hPairs, hEdges⟩ := hg.edges
  obtain ⟨pairs', hPairs', hEdges'⟩ := hh.edges
  rw [hEdges] at hEdges'
  simp only [Option.some.injEq, Json.Value.list.injEq] at hItems hEdges'
  obtain ⟨hIds, hVertices⟩ := zipWith_inj (fun _ _ _ _ => Vertex.toJson_inj)
    (by rw [length_ids, vertexCount]) (by rw [length_ids, vertexCount]) hItems
  have hSame : pairs = pairs' := (List.map_inj_right fun _ _ => edgeJson_inj).1 hEdges'
  -- The ids are the same and do not repeat, so the ids at its ends tell which edge it is.
  have hNodup := nodup_ids hDistinct style
  rw [edgeIds?, ← hIds, ← hSame] at hPairs'
  have hSameEdges : g.edges = h.edges :=
    mapM_inj (fun _ _ _ => Edge.ends?_inj hNodup) hPairs hPairs'
  cases g
  cases h
  cases hVertices
  cases hSameEdges
  rfl

theorem exists_toJson? {g : Graph} (hRange : g.EdgesInRange) (style : IdStyle) :
    ∃ v, g.toJson? style = some v ∧ g.ToldBy style v := by
  obtain ⟨pairs, hPairs, -⟩ := edgeIds?_eq_some hRange style
  rw [toJson?, toFields?_of_edgeIds? hPairs]
  exact ⟨_, rfl, rfl, pairs, hPairs, rfl⟩

/-- A document adds its name, or null in its place. -/
theorem exists_toNamedJson? {g : Graph} (hRange : g.EdgesInRange) (name : Option String) :
    ∃ v, g.toNamedJson? name = some v ∧ g.ToldBy .sequential v ∧
      v.field? "name" = some (.ofText? name) := by
  obtain ⟨pairs, hPairs, -⟩ := edgeIds?_eq_some hRange .sequential
  rw [toNamedJson?, toFields?_of_edgeIds? hPairs]
  exact ⟨_, rfl, ⟨rfl, pairs, hPairs, rfl⟩, rfl⟩

end Graph

theorem Json.Value.ofText?_inj {s t : Option String} (h : ofText? s = ofText? t) : s = t := by
  cases s with
  | none =>
    cases t with
    | none => rfl
    | some t => cases h
  | some s =>
    cases t with
    | none => cases h
    | some t => rw [Json.Value.text.inj h]

/-! ## Functions -/

namespace ControlFlow

/-- The object of endings tells the ending of each block. -/
theorem BlockEnds.toJson_inj {ends others : BlockEnds} (hEnds : (ends.map (·.1)).Nodup)
    (hOthers : (others.map (·.1)).Nodup) (h : ends.toJson = others.toJson) :
    ends.Perm others := by
  refine perm_of_get?_eq hEnds hOthers fun block => ?_
  have hField := congrArg (Json.Value.field? block) h
  rw [field?_toJson hEnds, field?_toJson hOthers] at hField
  exact Option.map_injective (fun t u hText => Markup.word_inj (Json.Value.text.inj hText)) hField

/-- A value with the fields of a graph, and with a name and endings. -/
structure FlowGraph.ToldBy (f : FlowGraph) (v : Json.Value) : Prop where
  name : v.field? "function" = some (.text f.name)
  graph : f.graph.ToldBy .name v
  ends : v.field? "terminators" = some f.ends.toJson

namespace FlowGraph

theorem ToldBy.agrees {f f' : FlowGraph} {v : Json.Value} (hf : f.ToldBy v) (hf' : f'.ToldBy v)
    (hDistinct : f.graph.names.Nodup) (hEnds : (f.ends.map (·.1)).Nodup)
    (hEnds' : (f'.ends.map (·.1)).Nodup) : f.Agrees f' := by
  have hName := hf.name.symm.trans hf'.name
  have hGraph := hf.graph.unique hDistinct hf'.graph
  have hBlocks := hf.ends.symm.trans hf'.ends
  simp only [Option.some.injEq, Json.Value.text.injEq] at hName hBlocks
  exact ⟨hName, by rw [hGraph], by rw [hGraph], BlockEnds.toJson_inj hEnds hEnds' hBlocks⟩

/-- The fields of its graph are fields of a function. -/
theorem exists_toJson? {f : FlowGraph} (hRange : f.graph.EdgesInRange) :
    ∃ graph v, f.graph.toJson? .name = some graph ∧ f.toJson? = some v ∧ f.ToldBy v ∧
      ∀ key field, graph.field? key = some field → v.field? key = some field := by
  obtain ⟨pairs, hPairs, -⟩ := Graph.edgeIds?_eq_some hRange .name
  rw [Graph.toJson?, toJson?, Graph.toFields?_of_edgeIds? hPairs]
  refine ⟨_, _, rfl, rfl, ⟨rfl, ⟨rfl, pairs, hPairs, rfl⟩, rfl⟩, fun key field hField => ?_⟩
  have hKey : key = "vertices" ∨ key = "edges" := by
    by_contra hNot
    obtain ⟨hVertices, hEdges⟩ := not_or.1 hNot
    simp [Json.Value.field?_ofFields, Json.Fields.get?, List.lookup_cons,
      beq_eq_false_iff_ne.2 hVertices, beq_eq_false_iff_ne.2 hEdges] at hField
  rcases hKey with rfl | rfl
  · exact hField
  · exact hField

end FlowGraph

end ControlFlow

/-! ## Exported values and texts -/

/-- Two values that are the same, or that are written alike in one of the layouts. -/
def Json.Value.WrittenAlike (v w : Json.Value) : Prop :=
  v = w ∨ v.compact = w.compact ∨ v.pretty = w.pretty

theorem Json.Value.WrittenAlike.eq {v w : Json.Value} (h : v.WrittenAlike w) : v = w := by
  rcases h with h | h | h
  · exact h
  · exact compact_inj h
  · exact pretty_inj h

/-- The name and the graph of a document can be told from its JSON. -/
theorem Dot.Document.export_lossless {d d' : Document} (hd : d.graph.WellFormed)
    (hd' : d'.graph.WellFormed) :
    ∃ v w, d.graph.toNamedJson? d.name = some v ∧ d'.graph.toNamedJson? d'.name = some w ∧
      (v.WrittenAlike w → d.name = d'.name ∧ d.graph = d'.graph) := by
  obtain ⟨v, hv, hTold, hName⟩ := Graph.exists_toNamedJson? hd.inRange d.name
  obtain ⟨w, hw, hTold', hName'⟩ := Graph.exists_toNamedJson? hd'.inRange d'.name
  refine ⟨v, w, hv, hw, fun hAlike => ?_⟩
  obtain rfl := hAlike.eq
  rw [hName, Option.some.injEq] at hName'
  exact ⟨Json.Value.ofText?_inj hName', hTold.unique hd.distinct hTold'⟩

/-- Graphs and functions can be told from their JSON, as a value and as a text, whatever ids were
chosen. Of two graphs it is enough that one has distinct names, as the other has the same. -/
theorem exports_lossless :
    (∀ (g h : Graph) (style style' : IdStyle), g.names.Nodup → g.EdgesInRange → h.EdgesInRange →
        ∃ v w, g.toJson? style = some v ∧ h.toJson? style' = some w ∧
          (v.WrittenAlike w → g.vertices = h.vertices ∧ g.edges = h.edges)) ∧
      (∀ source source' : String, ∀ f ∈ (extract source).functions,
        ∀ f' ∈ (extract source').functions, ∃ v w, f.toJson? = some v ∧ f'.toJson? = some w ∧
          (v.WrittenAlike w → f.Agrees f')) ∧
      ∀ source : String, ∀ f ∈ (extract source).functions, ∃ graph v,
        f.graph.toJson? .name = some graph ∧ f.toJson? = some v ∧
          ∀ key field, graph.field? key = some field → v.field? key = some field := by
  refine ⟨fun g h style style' hDistinct hRange hRange' => ?graphs,
    fun source source' f hf f' hf' => ?functions, fun source f hf => ?fields⟩
  case graphs =>
    obtain ⟨v, hv, hTold⟩ := Graph.exists_toJson? hRange style
    obtain ⟨w, hw, hTold'⟩ := Graph.exists_toJson? hRange' style'
    refine ⟨v, w, hv, hw, fun hAlike => ?_⟩
    obtain rfl := hAlike.eq
    rw [hTold.unique hDistinct hTold']
    exact ⟨rfl, rfl⟩
  case functions =>
    have hGraph := (FlowGraph.wellFormed_of_mem_extract hf).graph
    have hGraph' := (FlowGraph.wellFormed_of_mem_extract hf').graph
    obtain ⟨-, v, -, hv, hTold, -⟩ := FlowGraph.exists_toJson? hGraph.inRange
    obtain ⟨-, w, -, hw, hTold', -⟩ := FlowGraph.exists_toJson? hGraph'.inRange
    refine ⟨v, w, hv, hw, fun hAlike => ?_⟩
    obtain rfl := hAlike.eq
    exact hTold.agrees hTold' hGraph.distinct
      (FlowGraph.nodup_ends_of_mem_extract hf) (FlowGraph.nodup_ends_of_mem_extract hf')
  case fields =>
    have hRange := (FlowGraph.wellFormed_of_mem_extract hf).graph.inRange
    obtain ⟨graph, v, hGraph, hv, -, hFields⟩ := FlowGraph.exists_toJson? hRange
    exact ⟨graph, v, hGraph, hv, hFields⟩

/-- Two graphs that differ in the order of their edges, and a function with the names of fields. -/
theorem exports_lossless_apart :
    (∃ v w, (Graph.mk [⟨"a", "a"⟩, ⟨"b", "b"⟩] [⟨0, 1⟩, ⟨1, 0⟩]).toJson? .name = some v ∧
        (Graph.mk [⟨"a", "a"⟩, ⟨"b", "b"⟩] [⟨1, 0⟩, ⟨0, 1⟩]).toJson? .name = some w ∧
          v.pretty ≠ w.pretty) ∧
      ∃ f ∈ (extract "define @vertices()\nedges:\n br label %function").functions, ∃ graph v,
        f.graph.toJson? .name = some graph ∧ f.toJson? = some v ∧
          ∀ key field, graph.field? key = some field → v.field? key = some field := by
  refine ⟨?_, ?_⟩
  · obtain ⟨v, w, hv, hw, hTold⟩ := exports_lossless.1
      ⟨[⟨"a", "a"⟩, ⟨"b", "b"⟩], [⟨0, 1⟩, ⟨1, 0⟩]⟩ ⟨[⟨"a", "a"⟩, ⟨"b", "b"⟩], [⟨1, 0⟩, ⟨0, 1⟩]⟩
      .name .name (by decide) (by decide) (by decide)
    refine ⟨v, w, hv, hw, fun hSame => ?_⟩
    exact absurd (hTold (Or.inr (Or.inr hSame))).2 (by decide)
  · have hf : (⟨"vertices", ⟨[⟨"edges", "edges"⟩, ⟨"function", "function"⟩], [⟨0, 1⟩]⟩,
        [("edges", .br)]⟩ : FlowGraph) ∈
          (extract "define @vertices()\nedges:\n br label %function").functions := by
      decide +kernel
    exact ⟨_, hf, exports_lossless.2.2 _ _ hf⟩

end GraphMarkup
