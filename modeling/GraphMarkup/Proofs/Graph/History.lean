import GraphMarkup.Proofs.Markup.Emission

/-!
# Graphs in use

Graphs are built by calls, and several may be in use at once. A call that asks for a name is told a
place (`Bench.told`), and calls that draw edges or set labels pass places in.

That every place passed in was told by some call does not keep edges inside their graphs: a place
may have been told by another graph, or by the same graph before it was cleared
(`dangling_of_told`). What keeps them inside is that the two places of an edge were told by the very
graph that the edge is drawn in, since it was last cleared (`Owned`). A copy of a graph counts as
having told what the graph has told. Every step keeps a graph well formed and the places that it has
told in it (`Used.Sound`), so under that rule all graphs can be read in every way, whatever the
places that labels are set at (`shown_of_owned`).
-/

namespace GraphMarkup

/-! ## Rules along a run -/

section Along

variable {σ α : Type} (after : σ → α → σ) (rule : σ → α → Prop)

/-- Each step of a run keeps a rule when its turn comes. -/
def Along (s : σ) : List α → Prop
  | [] => True
  | a :: more => rule s a ∧ Along (after s a) more

instance Along.decidable [∀ s, DecidablePred (rule s)] (s : σ) :
    ∀ steps, Decidable (Along after rule s steps)
  | [] => inferInstanceAs (Decidable True)
  | a :: more =>
    have : Decidable (Along after rule (after s a) more) := Along.decidable (after s a) more
    inferInstanceAs (Decidable (rule s a ∧ Along after rule (after s a) more))

variable {after rule}

/-- What every step keeps that keeps the rule, a run keeps. -/
theorem Along.foldl {Inv : σ → Prop} (hStep : ∀ s a, Inv s → rule s a → Inv (after s a))
    {s : σ} {steps : List α} (hRule : Along after rule s steps) (hs : Inv s) :
    Inv (steps.foldl after s) := by
  induction steps generalizing s with
  | nil => exact hs
  | cons a more ih =>
    obtain ⟨hFirst, hMore⟩ := hRule
    exact ih hMore (hStep s a hs hFirst)

end Along

/-! ## Calls on one graph -/

namespace Graph

inductive Call where
  | vertex (name : String)
  | idOf (name : String)
  | addEdge (src dst : VertexId)
  | setLabel (id : VertexId) (label : String)
  | clear
deriving DecidableEq, Repr

namespace Call

/-- The place that a call tells, if it tells one, and the graph after it. -/
def apply (g : Graph) : Call → Option VertexId × Graph
  | vertex name =>
    let (id, g) := g.intern name
    (some id, g)
  | idOf name => (g.idOf? name, g)
  | addEdge src dst => (none, g.addEdge src dst)
  | setLabel id label => (none, g.setLabel id label)
  | clear => (none, empty)

def passed : Call → List VertexId
  | addEdge src dst => [src, dst]
  | setLabel id _ => [id]
  | _ => []

/-- The places between which a call draws an edge. -/
def linked : Call → List VertexId
  | addEdge src dst => [src, dst]
  | _ => []

theorem mem_passed_of_mem_linked {call : Call} {id : VertexId} (h : id ∈ call.linked) :
    id ∈ call.passed := by
  cases call with
  | addEdge src dst => exact h
  | vertex | idOf | setLabel | clear => cases h

end Call

theorem isSome_vertexAt? (g : Graph) (id : VertexId) :
    (g.vertexAt? id).isSome ↔ id < g.vertexCount := by
  simp [vertexAt?, vertexCount]

/-- A graph with the places that it has told since it was last cleared. -/
structure Used where
  graph : Graph := {}
  told : List VertexId := []
deriving DecidableEq, Repr

namespace Used

/-- A graph after a call, and what it has told by then. -/
def after (u : Used) (call : Call) : Used where
  graph := (call.apply u.graph).2
  told := match call with
    | .clear => []
    | _ => (call.apply u.graph).1.toList ++ u.told

/-- The graph is well formed, and the places that it has told are in it. -/
structure Sound (u : Used) : Prop where
  graph : u.graph.WellFormed
  told : ∀ id ∈ u.told, id < u.graph.vertexCount

theorem sound_new : Sound {} where
  graph := wellFormed_empty
  told id hId := by cases hId

/-- A call keeps a graph sound if it draws its edge between places that the graph has told. -/
theorem Sound.after {u : Used} (h : u.Sound) {call : Call}
    (hLinked : ∀ id ∈ call.linked, id ∈ u.told) : (u.after call).Sound := by
  cases call with
  | vertex name => exact ⟨h.graph.intern name, places_lt_intern h.told name⟩
  | idOf name =>
    refine ⟨h.graph, fun id hId => ?_⟩
    rcases List.mem_append.1 hId with hNew | hOld
    · obtain ⟨hMem, rfl⟩ := idOf?_eq_some_iff.1 (Option.mem_toList.1 hNew)
      show u.graph.names.idxOf name < u.graph.vertexCount
      rw [← length_names]
      exact List.idxOf_lt_length_iff.2 hMem
    · exact h.told id hOld
  | addEdge src dst =>
    have hSrc := h.told src (hLinked src List.mem_cons_self)
    have hDst := h.told dst (hLinked dst (List.mem_cons_of_mem _ List.mem_cons_self))
    exact ⟨h.graph.addEdge hSrc hDst, h.told⟩
  | setLabel id label =>
    refine ⟨h.graph.setLabel id label, fun other hOther => ?_⟩
    show other < (u.graph.setLabel id label).vertexCount
    rw [← length_names, names_setLabel, length_names]
    exact h.told other hOther
  | clear => exact sound_new

end Used

end Graph

/-! ## Calls on several graphs -/

/-- Several graphs in use, and all places that any of them has ever told. -/
structure Bench where
  graphs : List Graph.Used := []
  told : List VertexId := []
deriving DecidableEq, Repr

namespace Bench

inductive Call where
  | new
  | clone (i : Nat)
  | on (i : Nat) (call : Graph.Call)
deriving DecidableEq, Repr

/-- The graphs after a call. One that is meant for a graph which is not there does nothing. -/
def after (b : Bench) : Call → Bench
  | .new => { b with graphs := b.graphs ++ [{}] }
  | .clone i => { b with graphs := b.graphs ++ b.graphs[i]?.toList }
  | .on i call =>
    match b.graphs[i]? with
    | none => b
    | some u =>
      { graphs := b.graphs.set i (u.after call), told := (call.apply u.graph).1.toList ++ b.told }

def run (b : Bench) (calls : List Call) : Bench := calls.foldl after b

/-! ### Rules for passing places in -/

/-- Every place passed in was told by an earlier call, on whatever graph. -/
def Told (b : Bench) : Call → Prop
  | .on _ call => ∀ id ∈ call.passed, id ∈ b.told
  | _ => True

/-- Edges are drawn between places that the graph itself has told. -/
def Owned (b : Bench) : Call → Prop
  | .on i call => ∀ u ∈ b.graphs[i]?, ∀ id ∈ call.linked, id ∈ u.told
  | _ => True

instance (b : Bench) : DecidablePred b.Told
  | .new | .clone _ => inferInstanceAs (Decidable True)
  | .on _ call => inferInstanceAs (Decidable (∀ id ∈ call.passed, id ∈ b.told))

instance (b : Bench) : DecidablePred b.Owned
  | .new | .clone _ => inferInstanceAs (Decidable True)
  | .on i call =>
    inferInstanceAs (Decidable (∀ u ∈ b.graphs[i]?, ∀ id ∈ call.linked, id ∈ u.told))

/-! ### Edges stay inside -/

def Sound (b : Bench) : Prop := ∀ u ∈ b.graphs, u.Sound

/-- What is there after a call was there before, is new, or is what a call left of a graph. -/
theorem mem_graphs_after {b : Bench} {call : Call} {u : Graph.Used}
    (hu : u ∈ (b.after call).graphs) : u ∈ b.graphs ∨ u = {} ∨
      ∃ i v c, call = .on i c ∧ b.graphs[i]? = some v ∧ u = v.after c := by
  cases call with
  | new =>
    rcases List.mem_append.1 hu with hOld | hNew
    · exact Or.inl hOld
    · exact Or.inr (Or.inl (List.mem_singleton.1 hNew))
  | clone i =>
    rcases List.mem_append.1 hu with hOld | hCopy
    · exact Or.inl hOld
    · exact Or.inl (List.mem_of_getElem? (Option.mem_toList.1 hCopy))
  | on i c =>
    rw [after] at hu
    cases hAt : b.graphs[i]? with
    | none =>
      rw [hAt] at hu
      exact Or.inl hu
    | some v =>
      rw [hAt] at hu
      rcases List.mem_or_eq_of_mem_set hu with hOld | rfl
      · exact Or.inl hOld
      · exact Or.inr (Or.inr ⟨i, v, c, rfl, hAt, rfl⟩)

theorem Sound.after {b : Bench} (h : b.Sound) {call : Call} (hOwned : b.Owned call) :
    (b.after call).Sound := by
  intro u hu
  rcases mem_graphs_after hu with hOld | rfl | ⟨i, v, c, rfl, hAt, rfl⟩
  · exact h u hOld
  · exact Graph.Used.sound_new
  · exact (h v (List.mem_of_getElem? hAt)).after (hOwned v hAt)

/-- Where edges are drawn between places that their own graph has told, every edge has a vertex at
both ends, and every graph can be read by name, as markup and as JSON. -/
theorem shown_of_owned {calls : List Call} (hOwned : Along after Owned {} calls) :
    ∀ u ∈ (run {} calls).graphs, u.graph.EdgesInRange ∧ u.graph.Shown ∧
      ∀ e ∈ u.graph.edges,
        (u.graph.vertexAt? e.src).isSome ∧ (u.graph.vertexAt? e.dst).isSome := by
  intro u hu
  have hNone : Sound {} := fun u hu => by cases hu
  have hAll : (run {} calls).Sound := hOwned.foldl (fun b call hb => hb.after) hNone
  have hg := (hAll u hu).graph
  refine ⟨hg.inRange, hg.shown, fun e he => ?_⟩
  rw [Graph.isSome_vertexAt?, Graph.isSome_vertexAt?]
  exact hg.inRange e he

/-- A copy of a graph is used with the places that the graph told, and the graph itself is cleared
and used again. -/
def copied : List Call :=
  [.new, .on 0 (.vertex "a"), .on 0 (.vertex "b"), .clone 0, .on 0 .clear, .on 1 (.addEdge 0 1),
    .on 1 (.setLabel 7 "nowhere"), .on 0 (.vertex "c"), .on 0 (.addEdge 0 0)]

theorem shown_copied : Along after Owned {} copied ∧
    ∀ u ∈ (run {} copied).graphs, u.graph.edgeNames?.isSome := by
  have hOwned : Along after Owned {} copied := by decide
  exact ⟨hOwned, fun u hu => (shown_of_owned hOwned u hu).2.1.edgeNames⟩

/-- Places that were told earlier lead outside: in a graph that has been cleared since, and in a
graph that did not tell them. -/
theorem dangling_of_told :
    (Along after Told {} [.new, .on 0 (.vertex "a"), .on 0 .clear, .on 0 (.addEdge 0 0)] ∧
      ∃ u ∈ (run {} [.new, .on 0 (.vertex "a"), .on 0 .clear, .on 0 (.addEdge 0 0)]).graphs,
        ¬ u.graph.EdgesInRange ∧ u.graph.edgeNames? = none) ∧
      Along after Told {} [.new, .new, .on 0 (.vertex "a"), .on 1 (.addEdge 0 0)] ∧
        ∃ u ∈ (run {} [.new, .new, .on 0 (.vertex "a"), .on 1 (.addEdge 0 0)]).graphs,
          ¬ u.graph.EdgesInRange ∧ u.graph.edgeNames? = none := by
  decide

end Bench

end GraphMarkup
