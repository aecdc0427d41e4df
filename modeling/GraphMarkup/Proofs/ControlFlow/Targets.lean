import GraphMarkup.Proofs.ControlFlow.Patterns
import GraphMarkup.Proofs.ControlFlow.Segments

/-!
# The targets on a line

A branch is written as some text and then its targets, each behind `label %` and with the text up to
the next one behind it (`branchLine`). If none of these texts refers to a target and every name ends
where the text behind it starts (`Legible`), the targets on the line are those that were written
(`targets_branchLine`). The last character of `label %` stands in it nowhere else, so it does not
start in the text in front of it (`prefix_of_prefix_append`); and it does not start in a name, since
a name is taken with all that it can go on with.

`Graph.Linked` says what becomes of a graph when a block is linked to some targets, whatever graph
it is. The main result is `feed_branchLine`: that is what a branch does, and nothing else.
-/

namespace GraphMarkup

namespace ControlFlow

/-- A target as it is written on a line, with the text behind it. -/
structure Way where
  name : String
  behind : String
deriving DecidableEq, Repr

/-- How a target is written. -/
def Way.text (w : Way) : String := "label %" ++ w.name ++ w.behind

/-- A line with some targets, and the text in front of them. -/
def branchLine (front : String) (ways : List Way) : String :=
  front ++ String.join (ways.map Way.text)

/-- The texts around the targets do not refer to any, and each name ends where its text does. -/
structure Legible (front : String) (ways : List Way) : Prop where
  front : ¬ "label %".toList <:+: front.toList
  names : ∀ w ∈ ways, w.name ≠ "" ∧ ∀ c ∈ w.name.toList, isNameChar c
  behind : ∀ w ∈ ways, ¬ "label %".toList <:+: w.behind.toList ∧
    ∀ c ∈ w.behind.toList.head?, ¬ isNameChar c
  apart : ∀ w ∈ ways.dropLast, w.behind ≠ ""

/-! ## Reading the targets of a line -/

section Targets

variable {start front rest name cs : List Char} {c : Char}

theorem targets_of_some (h : leadingTarget? cs = some (name, rest)) :
    targets cs = String.ofList name :: targets rest := by
  rw [targets]
  split
  next h' =>
    rw [h] at h'
    cases h'
    rfl
  next h' => rw [h] at h'; cases h'

theorem targets_cons (h : leadingTarget? (c :: cs) = none) : targets (c :: cs) = targets cs := by
  rw [targets]
  split
  next h' => rw [h] at h'; cases h'
  next => rfl

theorem leadingTarget?_eq_none (h : ¬ "label %".toList <+: cs) : leadingTarget? cs = none := by
  rw [leadingTarget?, after?, if_neg (mt List.isPrefixOf_iff_prefix.1 h)]
  rfl

theorem leadingTarget?_append (hSome : name ≠ []) (hName : ∀ c ∈ name, isNameChar c)
    (hNext : ∀ c ∈ rest.head?, ¬ isNameChar c) :
    leadingTarget? ("label %".toList ++ (name ++ rest)) = some (name, rest) := by
  rw [leadingTarget?, after?_append]
  exact leadingName?_append hSome hName hNext

/-- A text that has its last character only at its end does not start in front of itself, unless in
what stands there. -/
theorem prefix_of_prefix_append {last : Char} (hLast : last ∉ start) (hFront : front ≠ [])
    (h : start ++ [last] <+: front ++ (start ++ [last] ++ rest)) : start ++ [last] <+: front := by
  have hSelf : front <+: front ++ (start ++ [last] ++ rest) := List.prefix_append _ _
  rcases List.prefix_or_prefix_of_prefix h hSelf with hIn | hShort
  · exact hIn
  rcases List.prefix_concat_iff.1 hShort with hWhole | hPart
  · rw [hWhole]
  · obtain ⟨more, rfl⟩ := hPart
    -- The rest of the text would start where the text does, and would end in it.
    rw [List.append_assoc front more, List.prefix_append_right_inj] at h
    have hFits : (more ++ [last]).length ≤ (front ++ more).length := by
      have hPos := List.length_pos_iff.2 hFront
      simp only [List.length_append, List.length_singleton]
      omega
    have hInner : front ++ more <+: front ++ (more ++ [last]) ++ rest := by
      rw [← List.append_assoc front, List.append_assoc]
      exact List.prefix_append _ _
    have hOnly := List.prefix_of_prefix_length_le h hInner hFits
    exact absurd (hOnly.subset (by simp)) hLast

theorem targets_append (h : ¬ "label %".toList <:+: front) (rest : List Char) :
    targets (front ++ ("label %".toList ++ rest)) = targets ("label %".toList ++ rest) := by
  induction front with
  | nil => rfl
  | cons c more ih =>
    rw [List.infix_cons_iff, not_or] at h
    have hSplit : "label %".toList = "label ".toList ++ ['%'] := by decide
    have hNone : ¬ "label %".toList <+: c :: more ++ ("label %".toList ++ rest) := by
      intro hStarts
      rw [hSplit] at h hStarts
      exact h.1 (prefix_of_prefix_append (by decide) (List.cons_ne_nil c more) hStarts)
    rw [List.cons_append] at hNone ⊢
    rw [targets_cons (leadingTarget?_eq_none hNone), ih h.2]

theorem targets_eq_nil (h : ¬ "label %".toList <:+: cs) : targets cs = [] := by
  induction cs with
  | nil => rw [targets]; rfl
  | cons c more ih =>
    rw [List.infix_cons_iff, not_or] at h
    rw [targets_cons (leadingTarget?_eq_none h.1), ih h.2]

end Targets

section Ways

variable {front : String} {w : Way} {ways : List Way}

theorem Legible.tail (h : Legible front (w :: ways)) : Legible w.behind ways where
  front := (h.behind w List.mem_cons_self).1
  names v hv := h.names v (List.mem_cons_of_mem _ hv)
  behind v hv := h.behind v (List.mem_cons_of_mem _ hv)
  apart v hv := by
    cases ways with
    | nil => cases hv
    | cons next more => exact h.apart v (List.mem_cons_of_mem w hv)

theorem toList_branchLine_cons (front : String) (w : Way) (ways : List Way) :
    (branchLine front (w :: ways)).toList = front.toList ++
      ("label %".toList ++ (w.name.toList ++ (branchLine w.behind ways).toList)) := by
  simp [branchLine, Way.text, String.toList_append]

/-- A name ends in front of the text behind it, and where that is empty the line does. -/
theorem Legible.ends (h : Legible front (w :: ways)) :
    ∀ c ∈ (branchLine w.behind ways).toList.head?, ¬ isNameChar c := by
  have hNext := (h.behind w List.mem_cons_self).2
  cases ways with
  | nil => simpa [branchLine] using hNext
  | cons v more =>
    have hSome : w.behind.toList ≠ [] := by
      simpa using h.apart w List.mem_cons_self
    rw [toList_branchLine_cons, List.head?_append_of_ne_nil _ hSome]
    exact hNext

/-- The targets on a line are those that were written on it. -/
theorem targets_branchLine (h : Legible front ways) :
    targets (branchLine front ways).toList = ways.map (·.name) := by
  induction ways generalizing front with
  | nil =>
    have hLine : (branchLine front []).toList = front.toList := by simp [branchLine]
    rw [hLine, targets_eq_nil h.front]
    rfl
  | cons w more ih =>
    obtain ⟨hSome, hName⟩ := h.names w List.mem_cons_self
    have hTarget := leadingTarget?_append (by simpa using hSome) hName h.ends
    rw [toList_branchLine_cons, targets_append h.front, targets_of_some hTarget, ih h.tail,
      String.ofList_toList]
    rfl

end Ways

end ControlFlow

/-! ## Linking from a block -/

namespace Graph

/-- The names that are not known yet, in order of first mention. -/
def newcomers (known names : List String) : List String := (names.removeAll known).eraseDups

theorem newcomers_cons (known : List String) (name : String) (more : List String) :
    newcomers known (name :: more) =
      newcomers known [name] ++ newcomers (known ++ newcomers known [name]) more := by
  unfold newcomers
  by_cases hMem : name ∈ known
  · simp [List.removeAll, hMem]
  · simp [List.removeAll, hMem, List.eraseDups_cons, List.filter_filter, Bool.and_comm,
      Bool.beq_eq_decide_eq]

theorem mem_append_newcomers {known names : List String} {name : String} (h : name ∈ names) :
    name ∈ known ++ newcomers known names := by
  by_cases hMem : name ∈ known
  · exact List.mem_append_left _ hMem
  · simp [newcomers, List.mem_eraseDups, List.removeAll, hMem, h]

variable (g : Graph)

theorem vertices_intern (name : String) :
    (g.intern name).2.vertices =
      g.vertices ++ (newcomers g.names [name]).map fun n => ⟨n, n⟩ := by
  unfold intern
  split
  next id hId =>
    have hMem := (idOf?_eq_some_iff.1 hId).1
    simp [newcomers, List.removeAll, hMem]
  next hNone =>
    have hNew := (idOf?_eq_none g name).1 hNone
    simp [newcomers, List.removeAll, hNew, List.eraseDups_cons]

theorem names_intern_newcomers (name : String) :
    (g.intern name).2.names = g.names ++ newcomers g.names [name] := by
  rw [names, vertices_intern, List.map_append, List.map_map]
  simp [names, Function.comp_def]

open ControlFlow (linkTo linkTo_eq)

/-- Targets join as vertices where they are new. -/
theorem vertices_foldl_linkTo (src : VertexId) (targets : List String) :
    (targets.foldl (linkTo src) g).vertices =
      g.vertices ++ (newcomers g.names targets).map fun n => ⟨n, n⟩ := by
  induction targets generalizing g with
  | nil => simp [newcomers, List.removeAll]
  | cons target more ih =>
    have hNames : (linkTo src g target).names = g.names ++ newcomers g.names [target] :=
      g.names_intern_newcomers target
    have hVertices : (linkTo src g target).vertices =
        g.vertices ++ (newcomers g.names [target]).map fun n => ⟨n, n⟩ := g.vertices_intern target
    rw [List.foldl_cons, ih, hNames, hVertices, newcomers_cons g.names target more, List.map_append,
      List.append_assoc]

theorem names_prefix_foldl_linkTo (src : VertexId) (targets : List String) :
    g.names <+: (targets.foldl (linkTo src) g).names := by
  rw [names, names, vertices_foldl_linkTo, List.map_append]
  exact List.prefix_append _ _

/-- Each target gets an edge, to the place that it has in the end. -/
theorem edges_foldl_linkTo (src : VertexId) (targets : List String) :
    (targets.foldl (linkTo src) g).edges =
      g.edges ++ targets.map fun target =>
        ⟨src, (targets.foldl (linkTo src) g).names.idxOf target⟩ := by
  induction targets generalizing g with
  | nil => simp
  | cons target more ih =>
    have hPrefix := names_prefix_foldl_linkTo (linkTo src g target) src more
    have hPlace : (g.intern target).1 = (more.foldl (linkTo src) (linkTo src g target)).names.idxOf
        target := by
      rw [intern_fst]
      exact hPrefix.idxOf_eq_of_mem (mem_names_intern g target)
    have hFirst : (linkTo src g target).edges = g.edges ++ [⟨src, (g.intern target).1⟩] := by
      rw [linkTo_eq, edges_addEdge, edges_intern]
    rw [List.foldl_cons, ih, hFirst, hPlace, List.map_cons, List.append_assoc]
    rfl

variable {g}

/-- Links from a block to some targets are read by name behind the earlier ones. -/
theorem edgeNames?_append {g h : Graph} {block : String} {targets : List String}
    {links : List (String × String)} (hLinks : g.edgeNames? = some links)
    (hPrefix : g.names <+: h.names) (hIn : ∀ name ∈ block :: targets, name ∈ h.names)
    (hEdges : h.edges = g.edges ++ targets.map fun target =>
      ⟨h.names.idxOf block, h.names.idxOf target⟩) :
    h.edgeNames? = some (links ++ targets.map (block, ·)) := by
  have hOld : ∀ e ∈ g.edges, e.ends? h.names = e.ends? g.names := by
    intro e hEdge
    have hSome := List.mem_map_of_mem (f := fun e : Edge => e.ends? g.names) hEdge
    rw [mapM_eq_some_iff.1 hLinks] at hSome
    obtain ⟨pair, -, hPair⟩ := List.mem_map.1 hSome
    rw [← hPair]
    exact Edge.ends?_of_prefix hPrefix hPair.symm
  have hNew : ∀ target ∈ targets,
      Edge.ends? ⟨h.names.idxOf block, h.names.idxOf target⟩ h.names = some (block, target) := by
    intro target hTarget
    have hSrc := hIn block List.mem_cons_self
    have hDst := hIn target (List.mem_cons_of_mem _ hTarget)
    simp [Edge.ends?, List.getElem?_idxOf, hSrc, hDst]
  rw [edgeNames?, edgesBy?, mapM_eq_some_iff, hEdges, List.map_append, List.map_append,
    List.map_congr_left hOld, mapM_eq_some_iff.1 hLinks, List.map_map, List.map_map]
  exact congrArg _ (List.map_congr_left hNew)

/-- One graph comes from another by edges from a block to some targets. The block and the targets
join in order of first mention, labelled with themselves, where they are new, and there is one more
edge for each target. -/
structure Linked (g h : Graph) (block : String) (targets : List String) : Prop where
  vertices : h.vertices = g.vertices ++ (newcomers g.names (block :: targets)).map fun n => ⟨n, n⟩
  edges : h.edges = g.edges ++ targets.map fun target =>
    ⟨h.names.idxOf block, h.names.idxOf target⟩
  edgeNames : ∀ links, g.edgeNames? = some links →
    h.edgeNames? = some (links ++ targets.map (block, ·))

theorem linked_foldl_linkTo (g : Graph) (block : String) (targets : List String) :
    g.Linked (targets.foldl (linkTo (g.intern block).1) (g.intern block).2) block targets := by
  generalize hGraph : targets.foldl (linkTo (g.intern block).1) (g.intern block).2 = h
  have hLater : (g.intern block).2.names <+: h.names := by
    rw [← hGraph]
    exact names_prefix_foldl_linkTo _ _ _
  have hVertices : h.vertices =
      g.vertices ++ (newcomers g.names (block :: targets)).map fun n => ⟨n, n⟩ := by
    rw [← hGraph, vertices_foldl_linkTo, vertices_intern, names_intern_newcomers,
      newcomers_cons g.names block targets, List.map_append, List.append_assoc]
  have hBlock : (g.intern block).1 = h.names.idxOf block := by
    rw [intern_fst]
    exact hLater.idxOf_eq_of_mem (mem_names_intern g block)
  have hEdges : h.edges = g.edges ++ targets.map fun target =>
      ⟨h.names.idxOf block, h.names.idxOf target⟩ := by
    rw [← hBlock, ← hGraph, edges_foldl_linkTo, edges_intern]
  have hNames : h.names = g.names ++ newcomers g.names (block :: targets) := by
    simp [names, hVertices, Function.comp_def]
  refine ⟨hVertices, hEdges, fun links hLinks => edgeNames?_append hLinks ?_ ?_ hEdges⟩
  · rw [hNames]
    exact List.prefix_append _ _
  · intro name hName
    rw [hNames]
    exact mem_append_newcomers hName

end Graph

namespace ControlFlow

open GraphMarkup.Graph (linked_foldl_linkTo intern_of_mem intern_fst mem_names_intern)

/-- A branch links the open block to the targets that are written on it, in their order, and marks
the block. It hands over nothing. -/
theorem feed_branchLine {x : Extraction} {block front : String} {ways : List Way} {t : Terminator}
    (hLegible : Legible front ways)
    (hSaid : Line.ofText? (branchLine front ways) = some (.branch t))
    (hBlock : x.block = some block) :
    ∃ graph : Graph, x.graph.Linked graph block (ways.map (·.name)) ∧
      x.feed (branchLine front ways) =
        ({ x with line := x.line + 1, graph := graph, ends := x.ends.mark block t }, none) := by
  refine ⟨_, linked_foldl_linkTo x.graph block (ways.map (·.name)), ?_⟩
  have hAgain := intern_of_mem (mem_names_intern x.graph block)
  rw [Extraction.feed_of_some hSaid, Extraction.take_branch (by exact hBlock),
    targets_branchLine hLegible, Extraction.markBlock, Extraction.link, hAgain, ← intern_fst]

/-- A loop with a second way to its own block, and a text that almost refers to a third one. -/
def loopWays : List Way := [⟨"b", ", "⟩, ⟨"label", " ; label% "⟩, ⟨"b", ""⟩]

theorem legible_loopWays : Legible "  br i1 %c, " loopWays where
  front := by decide
  names := by
    have hAll : loopWays.all fun w => w.name != "" && w.name.toList.all isNameChar := by decide
    simpa using hAll
  behind := by
    have hAll : ∀ w ∈ loopWays, ¬ "label %".toList <:+: w.behind.toList ∧
        w.behind.toList.head?.all fun c => !isNameChar c := by decide
    simpa [Option.all_eq_true] using hAll
  apart := by decide

theorem feed_branchLine_loop :
    let x := (({} : Extraction).feedAll ["define void @f() \x7b", "label:"]).1
    let line := branchLine "  br i1 %c, " loopWays
    line = "  br i1 %c, label %b, label %label ; label% label %b" ∧
      Legible "  br i1 %c, " loopWays ∧ Line.ofText? line = some (.branch .br) ∧
        x.block = some "label" ∧
          (x.feed line).1.graph.edgeNames? =
            some [("label", "b"), ("label", "label"), ("label", "b")] := by
  intro x line
  have hSaid : Line.ofText? line = some (.branch .br) := by decide +kernel
  have hBlock : x.block = some "label" := by decide +kernel
  have hNone : x.graph.edgeNames? = some [] := by decide +kernel
  obtain ⟨graph, hLinked, hFeed⟩ := feed_branchLine legible_loopWays hSaid hBlock
  refine ⟨by decide, legible_loopWays, hSaid, hBlock, ?_⟩
  rw [hFeed]
  exact hLinked.edgeNames [] hNone

end ControlFlow

end GraphMarkup
