import GraphMarkup.Graph
import Mathlib.Data.List.Basic
import Mathlib.Data.List.Infix
import Mathlib.Data.List.Nodup

/-!
# Places of names

The place of a vertex is the index of its name in the list of names. Interning only ever adds
names at the end of that list, so a place once given stays right while the graph grows, no name is
ever listed twice, and an edge keeps its ends.
-/

namespace GraphMarkup

theorem mapM_eq_some_iff {α β : Type} {f : α → Option β} {as : List α} {bs : List β} :
    as.mapM f = some bs ↔ as.map f = bs.map some := by
  induction as generalizing bs with
  | nil =>
    rw [List.mapM_nil, List.map_nil, eq_comm (b := bs.map some), List.map_eq_nil_iff]
    exact Option.some_inj.trans eq_comm
  | cons a as ih =>
    simp only [List.mapM_cons, Option.bind_eq_bind, Option.bind_eq_some_iff, Option.pure_def,
      Option.some.injEq, ih, List.map_cons]
    constructor
    · rintro ⟨b, ha, later, hLater, rfl⟩
      rw [ha, hLater, List.map_cons]
    · intro h
      obtain ⟨b, later, rfl, hb, hLater⟩ := List.map_eq_cons_iff.1 h.symm
      exact ⟨b, hb.symm, later, hLater.symm, rfl⟩

/-- An edge keeps its ends when entries are added to the list. -/
theorem Edge.ends?_of_prefix {α : Type} {xs ys : List α} (hPrefix : xs <+: ys) {e : Edge}
    {pair : α × α} (h : e.ends? xs = some pair) : e.ends? ys = some pair := by
  obtain ⟨src, hSrc, hPair⟩ := Option.bind_eq_some_iff.1 h
  obtain ⟨dst, hDst, -⟩ := Option.bind_eq_some_iff.1 hPair
  obtain ⟨more, rfl⟩ := hPrefix
  rw [Edge.ends?, List.getElem?_append_left (List.getElem?_eq_some_iff.1 hSrc).1,
    List.getElem?_append_left (List.getElem?_eq_some_iff.1 hDst).1]
  exact h

namespace Graph

/-- A name has the place of its first occurrence among the names. -/
theorem idOf?_eq_some_iff {g : Graph} {name : String} {id : VertexId} :
    g.idOf? name = some id ↔ name ∈ g.names ∧ g.names.idxOf name = id := by
  have hIdx : g.names.idxOf name = g.vertices.findIdx (·.name == name) := by
    simp only [names, List.idxOf, List.findIdx_map, Function.comp_def]
  rw [idOf?, List.findIdx?_eq_some_iff_findIdx_eq, hIdx]
  constructor
  · rintro ⟨hLt, hEq⟩
    refine ⟨?_, hEq⟩
    rw [← List.idxOf_lt_length_iff, hIdx, hEq, length_names]
    exact hLt
  · rintro ⟨hMem, hEq⟩
    refine ⟨?_, hEq⟩
    rw [← List.idxOf_lt_length_iff, hIdx, hEq, length_names] at hMem
    exact hMem

theorem intern_of_mem {g : Graph} {name : String} (h : name ∈ g.names) :
    g.intern name = (g.names.idxOf name, g) := by
  rw [intern, idOf?_eq_some_iff.2 ⟨h, rfl⟩]

/-- The place that interning gives is the index of the name afterwards. -/
theorem intern_fst (g : Graph) (name : String) :
    (g.intern name).1 = (g.intern name).2.names.idxOf name := by
  unfold intern
  split
  next id hId => exact (idOf?_eq_some_iff.1 hId).2.symm
  next hNone =>
    have hNot : name ∉ g.names := (idOf?_eq_none g name).1 hNone
    simp only [names, List.map_append, List.map_cons, List.map_nil]
    rw [← names, List.idxOf_append_of_notMem hNot]
    simp

theorem mem_names_intern (g : Graph) (name : String) : name ∈ (g.intern name).2.names := by
  rw [names_intern]
  split
  next hMem => exact hMem
  next => simp

/-- Interning gives a place that the graph has afterwards. -/
theorem intern_fst_lt (g : Graph) (name : String) :
    (g.intern name).1 < (g.intern name).2.vertexCount := by
  rw [intern_fst, ← length_names, List.idxOf_lt_length_iff]
  exact mem_names_intern g name

theorem names_prefix_intern (g : Graph) (name : String) :
    g.names <+: (g.intern name).2.names := by
  rw [names_intern]
  split
  · exact List.prefix_rfl
  · exact List.prefix_append _ _

/-- A graph whose names only grew has no fewer vertices. -/
theorem vertexCount_le_of_prefix {g h : Graph} (hNames : g.names <+: h.names) :
    g.vertexCount ≤ h.vertexCount := by
  rw [← length_names, ← length_names]
  exact hNames.length_le

theorem vertexCount_le_intern (g : Graph) (name : String) :
    g.vertexCount ≤ (g.intern name).2.vertexCount :=
  vertexCount_le_of_prefix (names_prefix_intern g name)

/-- The place that interning gives and all places given before are places of the graph then. -/
theorem places_lt_intern {g : Graph} {places : List VertexId}
    (h : ∀ id ∈ places, id < g.vertexCount) (name : String) :
    ∀ id ∈ (g.intern name).1 :: places, id < (g.intern name).2.vertexCount :=
  List.forall_mem_cons.2
    ⟨intern_fst_lt g name, fun id hId => (h id hId).trans_le (vertexCount_le_intern g name)⟩

end Graph

end GraphMarkup
