import GraphMarkup.Proofs.Graph.Mentions

/-!
# Well-formed graphs

In a well-formed graph no two vertices have the same name, a vertex is found under its name and at
its place, and no edge leads outside. The empty graph is well formed, and interning, linking places
that the graph has, and relabelling keep a graph so (`WellFormed.intern`, `WellFormed.addEdge`,
`WellFormed.setLabel`). Since a vertex is found by its name as soon as names do not repeat, only the
other two facts are carried through the steps (`wellFormed_iff`).
-/

namespace GraphMarkup.Graph

/-- Distinct names, each vertex under its own, and edges from vertices to vertices. -/
structure WellFormed (g : Graph) : Prop where
  distinct : g.names.Nodup
  found : ∀ id v, g.vertexAt? id = some v → g.idOf? v.name = some id ∧ g.find? v.name = some v
  inRange : g.EdgesInRange

section Found

variable {g : Graph} {id : VertexId} {v : Vertex}

theorem getElem?_names (hAt : g.vertexAt? id = some v) : g.names[id]? = some v.name := by
  rw [names, List.getElem?_map, ← vertexAt?, hAt]
  rfl

theorem idOf?_of_nodup (hDistinct : g.names.Nodup) (hAt : g.vertexAt? id = some v) :
    g.idOf? v.name = some id := by
  obtain ⟨hLt, hName⟩ := List.getElem?_eq_some_iff.1 (getElem?_names hAt)
  refine idOf?_eq_some_iff.2 ⟨hName ▸ List.getElem_mem hLt, ?_⟩
  rw [← hName]
  exact hDistinct.idxOf_getElem id hLt

/-- A search by name stops at the vertex whose place the name has. -/
theorem find?_of_idOf? {name : String} (hId : g.idOf? name = some id) :
    g.find? name = g.vertexAt? id := by
  obtain ⟨hLt, hFirst, hBefore⟩ := List.findIdx?_eq_some_iff_getElem.1 hId
  rw [vertexAt?, List.getElem?_eq_getElem hLt, find?, List.find?_eq_some_iff_getElem]
  exact ⟨hFirst, id, hLt, rfl, fun j hj => by simpa using hBefore j hj⟩

theorem find?_of_nodup (hDistinct : g.names.Nodup) (hAt : g.vertexAt? id = some v) :
    g.find? v.name = some v := by
  rw [find?_of_idOf? (idOf?_of_nodup hDistinct hAt), hAt]

theorem exists_vertexAt?_idxOf {name : String} (hMem : name ∈ g.names) :
    ∃ v, g.vertexAt? (g.names.idxOf name) = some v ∧ v.name = name := by
  have hName : g.names[g.names.idxOf name]? = some name := List.getElem?_idxOf hMem
  generalize g.names.idxOf name = place at hName ⊢
  rw [names, List.getElem?_map, Option.map_eq_some_iff] at hName
  exact hName

end Found

theorem wellFormed_iff {g : Graph} : g.WellFormed ↔ g.names.Nodup ∧ g.EdgesInRange := by
  constructor
  · exact fun h => ⟨h.distinct, h.inRange⟩
  · rintro ⟨hDistinct, hRange⟩
    exact ⟨hDistinct, fun id v hAt =>
      ⟨idOf?_of_nodup hDistinct hAt, find?_of_nodup hDistinct hAt⟩, hRange⟩

/-! ## What building keeps -/

/-- Edges stay in range while vertices are only added. -/
theorem EdgesInRange.mono {g h : Graph} (hRange : g.EdgesInRange) (hEdges : h.edges = g.edges)
    (hCount : g.vertexCount ≤ h.vertexCount) : h.EdgesInRange := by
  intro e hEdge
  rw [hEdges] at hEdge
  obtain ⟨hSrc, hDst⟩ := hRange e hEdge
  exact ⟨hSrc.trans_le hCount, hDst.trans_le hCount⟩

theorem wellFormed_empty : empty.WellFormed :=
  wellFormed_iff.2 ⟨List.nodup_nil, fun e hEdge => by cases hEdge⟩

namespace WellFormed

variable {g : Graph} (h : g.WellFormed)

include h

theorem intern (name : String) : (g.intern name).2.WellFormed := by
  have hRange := h.inRange.mono (edges_intern g name) (vertexCount_le_intern g name)
  refine wellFormed_iff.2 ⟨?_, hRange⟩
  rw [names_intern]
  split_ifs with hMem
  · exact h.distinct
  · refine List.nodup_append.2 ⟨h.distinct, List.nodup_singleton name, fun a hA b hB hEq => hMem ?_⟩
    rw [List.mem_singleton.1 hB] at hEq
    exact hEq ▸ hA

theorem addEdge {src dst : VertexId} (hSrc : src < g.vertexCount) (hDst : dst < g.vertexCount) :
    (g.addEdge src dst).WellFormed := by
  refine wellFormed_iff.2 ⟨h.distinct, fun e hEdge => ?_⟩
  rw [edges_addEdge] at hEdge
  rcases List.mem_append.1 hEdge with hOld | hNew
  · exact h.inRange e hOld
  · rw [List.mem_singleton.1 hNew]
    exact ⟨hSrc, hDst⟩

theorem setLabel (id : VertexId) (label : String) : (g.setLabel id label).WellFormed := by
  have hNames := names_setLabel g id label
  have hCount : g.vertexCount ≤ (g.setLabel id label).vertexCount := by
    rw [← length_names, ← length_names, hNames]
  exact wellFormed_iff.2 ⟨by rw [hNames]; exact h.distinct,
    h.inRange.mono (edges_setLabel g id label) hCount⟩

end WellFormed

theorem wellFormed_ofMentions {names : List String} {links : List (String × String)}
    (hAmong : LinksAmong names links) : (ofMentions names links).WellFormed := by
  refine wellFormed_iff.2 ⟨?_, fun e hEdge => ?_⟩
  · rw [names_ofMentions]
    exact nodup_eraseDups names
  · obtain ⟨link, hLink, rfl⟩ := List.mem_map.1 hEdge
    obtain ⟨hSrc, hDst⟩ := hAmong link hLink
    rw [← length_names, names_ofMentions]
    exact ⟨List.idxOf_lt_length_iff.2 (List.mem_eraseDups.2 hSrc),
      List.idxOf_lt_length_iff.2 (List.mem_eraseDups.2 hDst)⟩

end GraphMarkup.Graph
