import GraphMarkup.Proofs.ControlFlow.Segments
import GraphMarkup.Proofs.Dot.FirstFault
import GraphMarkup.Proofs.Markup.Emission

/-!
# What leaves the front ends

A graph is read from a document or extracted from a listing. Both ways give well-formed graphs, so
whatever they give can be shown (`front_ends_wellFormed`).

* A reading of a document makes moves, and each move keeps the graph well formed
  (`Move.wellFormed`), in either mode and wherever the reading stops.
* The graph of a function is the one of its segment. What a segment marks it mentions, and where it
  links from a block it marks that block on the same line (`FlowGraph.wellFormed_ofSegment`).
-/

namespace GraphMarkup

/-! ## Documents -/

namespace Dot

variable {r r' : Reading}

theorem Move.wellFormed (h : Move r r') (hr : r.graph.WellFormed) : r'.graph.WellFormed := by
  cases h with
  | advance => rwa [r.graph_advance]
  | record | count => exact hr
  | intern name => exact hr.intern name
  | addEdge hSrc hDst => exact hr.addEdge hSrc hDst
  | setLabel id label => exact hr.setLabel id label

theorem Moves.wellFormed (h : Moves r r') (hr : r.graph.WellFormed) : r'.graph.WellFormed := by
  induction h with
  | refl => exact hr
  | tail _ move ih => exact move.wellFormed ih

open Reader in
/-- The name of a document is set between two runs of moves, and does not touch the graph. -/
theorem wellFormed_readDocument (hr : r.graph.WellFormed) :
    (final (readDocument r)).graph.WellFormed := by
  have hTitle := (regular_readTitle.outcome_nil r).moves.wellFormed hr
  cases hRun : readTitle r with
  | error stop r' =>
    rw [readDocument_eq, bind_of_error hRun]
    rw [hRun] at hTitle
    exact hTitle
  | ok name r' =>
    rw [readDocument_of_title hRun]
    rw [hRun] at hTitle
    exact (regular_readBody.outcome_nil { r' with name := some name }).moves.wellFormed hTitle

theorem Document.wellFormed_ofTokens (mode : Mode) (tokens : TokenStream) :
    (ofTokens mode tokens).graph.WellFormed := by
  have hFinal := wellFormed_readDocument (r := { mode := mode, rest := tokens })
    Graph.wellFormed_empty
  obtain ⟨stopped, hDocument⟩ := ofTokens_eq_final mode tokens
  rw [hDocument]
  exact hFinal

end Dot

/-! ## Functions -/

namespace ControlFlow

variable {segment : List String}

theorem mem_mentions_of_mem_marks {block : String} (hMark : block ∈ (marks segment).map (·.1)) :
    block ∈ mentions segment := by
  obtain ⟨mark, hMem, rfl⟩ := List.mem_map.1 hMark
  obtain ⟨⟨current, line⟩, hLine, hMarked⟩ := List.mem_filterMap.1 hMem
  refine List.mem_flatMap.2 ⟨(current, line), hLine, ?_⟩
  cases hSaid : Line.ofText? line with
  | none => simp [marked?, hSaid] at hMarked
  | some said =>
    cases said with
    | define | block => simp [marked?, hSaid] at hMarked
    | branch | terminator =>
      simp only [marked?, hSaid, Option.some.injEq] at hMarked
      simp [mentioned, hSaid, ← hMarked]

/-- A line that links from a block marks it. -/
theorem mem_marks_of_mem_links {link : String × String} (hLink : link ∈ links segment) :
    link.1 ∈ (marks segment).map (·.1) := by
  obtain ⟨⟨block, line⟩, hLine, hLinked⟩ := List.mem_flatMap.1 hLink
  obtain ⟨t, hSaid, target, -, rfl⟩ := branch_of_mem_linked hLinked
  refine List.mem_map.2 ⟨(block, t), List.mem_filterMap.2 ⟨(block, line), hLine, ?_⟩, rfl⟩
  simp [marked?, hSaid]

namespace FlowGraph

/-- The graph is well formed, every block with an ending is one of its vertices, and every edge
comes from a block with an ending. -/
structure WellFormed (f : FlowGraph) : Prop where
  graph : f.graph.WellFormed
  blocks : ∀ block ∈ f.ends.map (·.1), block ∈ f.graph.names
  sources : ∀ e ∈ f.graph.edges, ∃ v,
    f.graph.vertexAt? e.src = some v ∧ (f.terminator? v.name).isSome

theorem wellFormed_ofSegment (name : String) (segment : List String) :
    (ofSegment name segment).WellFormed where
  graph := Graph.wellFormed_ofMentions (linksAmong_mentions segment)
  blocks block hBlock := by
    have hNames : (ofSegment name segment).graph.names = (mentions segment).eraseDups :=
      Graph.names_ofMentions _ _
    have hBlocks : (ofSegment name segment).ends.map (·.1) =
        ((marks segment).map (·.1)).eraseDups := BlockEnds.names_ofMarks _
    rw [hBlocks, List.mem_eraseDups] at hBlock
    rw [hNames, List.mem_eraseDups]
    exact mem_mentions_of_mem_marks hBlock
  sources e hEdge := by
    obtain ⟨link, hLink, rfl⟩ := List.mem_map.1 hEdge
    have hMem : link.1 ∈ (Graph.ofMentions (mentions segment) (links segment)).names := by
      rw [Graph.names_ofMentions, List.mem_eraseDups]
      exact (linksAmong_mentions segment link hLink).1
    obtain ⟨v, hAt, hName⟩ := Graph.exists_vertexAt?_idxOf hMem
    rw [Graph.names_ofMentions] at hAt
    refine ⟨v, hAt, ?_⟩
    have hEnding : (ofSegment name segment).terminator? v.name = lastSaid? (marks segment) v.name :=
      BlockEnds.get?_ofMarks _ _
    rw [hEnding, hName, Option.isSome_iff_ne_none, ne_eq, lastSaid?_eq_none, not_not]
    exact mem_marks_of_mem_links hLink

theorem wellFormed_of_mem_extract {source : String} {f : FlowGraph}
    (hf : f ∈ (extract source).functions) : f.WellFormed := by
  rw [functions_eq_segments] at hf
  obtain ⟨s, -, rfl⟩ := List.mem_map.1 hf
  exact wellFormed_ofSegment s.1 s.2

end FlowGraph

end ControlFlow

/-! ## Both -/

open Dot (Mode TokenStream Document)
open ControlFlow (FlowGraph extract)

/-- Every graph that is read from a document or extracted from a listing is well formed and can be
shown in every way, with paths that refer to one vertex element at each end. -/
theorem front_ends_wellFormed :
    (∀ (mode : Mode) (tokens : TokenStream),
      (Document.ofTokens mode tokens).graph.WellFormed ∧
        (Document.ofTokens mode tokens).graph.Shown) ∧
      ∀ (source : String), ∀ f ∈ (extract source).functions, f.WellFormed ∧ f.Shown := by
  refine ⟨fun mode tokens => ?_, fun source f hf => ?_⟩
  · have hg := Document.wellFormed_ofTokens mode tokens
    exact ⟨hg, hg.shown⟩
  · have hf := FlowGraph.wellFormed_of_mem_extract hf
    exact ⟨hf, FlowGraph.shown_of_graph hf.graph⟩

end GraphMarkup
