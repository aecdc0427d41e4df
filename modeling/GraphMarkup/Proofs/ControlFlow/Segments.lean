import GraphMarkup.ControlFlow.Extraction
import GraphMarkup.Proofs.Graph.Mentions

/-!
# The functions of a listing, read off its lines

A header and the lines after it, up to the next header, are the segment of a function. Which flow
graph the function has is said here of its segment alone: which block a line stands in is the name
on the last label in front of it (`blockAfter`), and from the block and the line comes what the line
mentions, links and marks (`FlowGraph.ofSegment`).

An extraction inside a function holds what its segment says so far (`Within`). A line keeps that
(`within_feed`), and so a run over all lines hands over the functions of the segments, one for
each header (`functions_extract`).
-/

namespace GraphMarkup.ControlFlow

/-! ## What a segment says -/

/-- The name in the header of a function, if the line is one. -/
def header? (line : String) : Option String :=
  match Line.ofText? line with
  | some (.define name) => some name
  | _ => none

/-- The name on the label of a block, if the line is one. -/
def label? (line : String) : Option String :=
  match Line.ofText? line with
  | some (.block name) => some name
  | _ => none

/-- The headers among some lines, each with the lines up to the next one. -/
def segments : List String → List (String × List String)
  | [] => []
  | line :: more =>
    match header? line with
    | some name => (name, more.takeWhile fun line => (header? line).isNone) :: segments more
    | none => segments more

/-- The block that is open after some lines of a segment. -/
def blockAfter (before : List String) : String :=
  (before.filterMap label?).getLast?.getD entryBlock

/-- The lines of a segment, each with the block that it stands in. -/
def inBlocks (segment : List String) : List (String × String) :=
  segment.zipIdx.map fun (line, i) => (blockAfter (segment.take i), line)

/-- The names that a line mentions. -/
def mentioned (block line : String) : List String :=
  match Line.ofText? line with
  | some (.block name) => [name]
  | some (.branch _) => block :: targets line.toList
  | some (.terminator _) => [block]
  | _ => []

/-- The edges that a line makes, by name. -/
def linked (block line : String) : List (String × String) :=
  match Line.ofText? line with
  | some (.branch _) => (targets line.toList).map (block, ·)
  | _ => []

/-- The block that a line marks, with the instruction. -/
def marked? (block line : String) : Option (String × Terminator) :=
  match Line.ofText? line with
  | some (.branch t) => some (block, t)
  | some (.terminator t) => some (block, t)
  | _ => none

def mentions (segment : List String) : List String :=
  (inBlocks segment).flatMap fun (block, line) => mentioned block line

def links (segment : List String) : List (String × String) :=
  (inBlocks segment).flatMap fun (block, line) => linked block line

def marks (segment : List String) : List (String × Terminator) :=
  (inBlocks segment).filterMap fun (block, line) => marked? block line

/-- Each block that was marked with its last mark, in order of the first ones. -/
def BlockEnds.ofMarks (marks : List (String × Terminator)) : BlockEnds :=
  (marks.map (·.1)).eraseDups.filterMap fun block => (lastSaid? marks block).map (block, ·)

/-- The flow graph of a function with a given name and segment. -/
def FlowGraph.ofSegment (name : String) (segment : List String) : FlowGraph where
  name := name
  graph := .ofMentions (mentions segment) (links segment)
  ends := .ofMarks (marks segment)

/-! ## Marks -/

namespace BlockEnds

theorem lookup_filterMap {β : Type} (names : List String) (f : String → Option β) (b : String) :
    (names.filterMap fun name => (f name).map (name, ·)).lookup b =
      if b ∈ names then f b else none := by
  induction names with
  | nil => rfl
  | cons name more ih =>
    cases hValue : f name with
    | none =>
      rw [List.filterMap_cons_none (by rw [hValue]; rfl), ih]
      by_cases hName : b = name
      · simp [hName, hValue]
      · simp [hName]
    | some value =>
      rw [List.filterMap_cons_some (by rw [hValue]; rfl), List.lookup_cons, ih]
      by_cases hName : b = name
      · simp [hName, hValue]
      · simp [hName, beq_eq_false_iff_ne.2 hName]

theorem get?_ofMarks (marks : List (String × Terminator)) (b : String) :
    (ofMarks marks).get? b = lastSaid? marks b := by
  rw [get?, ofMarks, lookup_filterMap]
  split_ifs with hMem
  · rfl
  · exact (lastSaid?_eq_none.2 fun hMarked => hMem (List.mem_eraseDups.2 hMarked)).symm

theorem names_ofMarks (marks : List (String × Terminator)) :
    (ofMarks marks).map (·.1) = (marks.map (·.1)).eraseDups := by
  rw [ofMarks, List.map_filterMap]
  have hAll : ∀ name ∈ (marks.map (·.1)).eraseDups,
      (((lastSaid? marks name).map (name, ·)).map (·.1)) = some name := by
    intro name hMem
    cases hLast : lastSaid? marks name with
    | none => exact absurd (List.mem_eraseDups.1 hMem) (lastSaid?_eq_none.1 hLast)
    | some t => rfl
  rw [List.filterMap_congr hAll]
  exact List.filterMap_some

theorem get?_eq_none {ends : BlockEnds} {b : String} (hNot : b ∉ ends.map (·.1)) :
    ends.get? b = none := by
  rw [get?, List.lookup_eq_none_iff]
  intro entry hEntry
  exact bne_iff_ne.2 fun hEq => hNot (List.mem_map.2 ⟨entry, hEntry, hEq.symm⟩)

/-- Marks are known from the blocks in order and from the instruction of each. -/
theorem ext_get? {ends others : BlockEnds} (hNodup : (ends.map (·.1)).Nodup)
    (hNames : ends.map (·.1) = others.map (·.1)) (hGet : ∀ b, ends.get? b = others.get? b) :
    ends = others := by
  induction ends generalizing others with
  | nil => exact (List.map_eq_nil_iff.1 hNames.symm).symm
  | cons first more ih =>
    obtain ⟨block, t⟩ := first
    cases others with
    | nil => cases hNames
    | cons other rest =>
      obtain ⟨block', u⟩ := other
      obtain ⟨rfl, hRest⟩ := List.cons.inj hNames
      obtain ⟨hNew, hNodup⟩ := List.nodup_cons.1 hNodup
      have hFirst := hGet block
      simp only [get?, List.lookup_cons_self, Option.some.injEq] at hFirst
      refine congrArg₂ _ (by rw [hFirst]) (ih hNodup hRest fun b => ?_)
      have hLater := hGet b
      by_cases hBlock : b = block
      · subst hBlock
        rw [get?_eq_none hNew, get?_eq_none (hRest ▸ hNew)]
      · simpa [get?, List.lookup_cons, beq_eq_false_iff_ne.2 hBlock] using hLater

/-- To mark a block is one more mark. -/
theorem mark_ofMarks (marks : List (String × Terminator)) (block : String) (t : Terminator) :
    mark block t (ofMarks marks) = ofMarks (marks ++ [(block, t)]) := by
  have hNames : (mark block t (ofMarks marks)).map (·.1) =
      (ofMarks (marks ++ [(block, t)])).map (·.1) := by
    rw [names_mark, names_ofMarks, names_ofMarks, List.map_append, List.map_singleton,
      eraseDups_concat]
    simp only [List.mem_eraseDups]
  refine ext_get? ?_ hNames fun b => ?_
  · rw [hNames, names_ofMarks]
    exact nodup_eraseDups _
  · rw [get?_mark, get?_ofMarks, get?_ofMarks, lastSaid?_concat]

end BlockEnds

/-! ## One more line -/

section Concat

variable (segment : List String) (line : String)

theorem blockAfter_concat :
    blockAfter (segment ++ [line]) = (label? line).getD (blockAfter segment) := by
  unfold blockAfter
  rw [List.filterMap_append]
  cases hLabel : label? line with
  | none => simp [hLabel]
  | some name => simp [hLabel]

/-- A line stands in the block that is open in front of it, whatever follows. -/
theorem inBlocks_concat :
    inBlocks (segment ++ [line]) = inBlocks segment ++ [(blockAfter segment, line)] := by
  unfold inBlocks
  rw [List.zipIdx_append, List.map_append]
  have hEarlier : ∀ entry ∈ segment.zipIdx,
      (blockAfter ((segment ++ [line]).take entry.2), entry.1) =
        (blockAfter (segment.take entry.2), entry.1) := by
    intro entry hEntry
    have hLt := (List.mem_zipIdx hEntry).2.1
    rw [List.take_append_of_le_length (by omega)]
  rw [List.map_congr_left hEarlier]
  simp

theorem mentions_concat :
    mentions (segment ++ [line]) = mentions segment ++ mentioned (blockAfter segment) line := by
  simp [mentions, inBlocks_concat]

theorem links_concat :
    links (segment ++ [line]) = links segment ++ linked (blockAfter segment) line := by
  simp [links, inBlocks_concat]

theorem marks_concat :
    marks (segment ++ [line]) = marks segment ++ (marked? (blockAfter segment) line).toList := by
  rw [marks, inBlocks_concat, List.filterMap_append]
  cases hMarked : marked? (blockAfter segment) line with
  | none => simp [marks, hMarked]
  | some mark => simp [marks, hMarked]

end Concat

/-- Only a branch makes edges, from its block to its targets. -/
theorem branch_of_mem_linked {block line : String} {link : String × String}
    (hLinked : link ∈ linked block line) :
    ∃ t, Line.ofText? line = some (.branch t) ∧
      ∃ target ∈ targets line.toList, link = (block, target) := by
  cases hSaid : Line.ofText? line with
  | none => simp [linked, hSaid] at hLinked
  | some said =>
    cases said with
    | define | block | terminator => simp [linked, hSaid] at hLinked
    | branch t =>
      simp only [linked, hSaid, List.mem_map] at hLinked
      obtain ⟨target, hTarget, rfl⟩ := hLinked
      exact ⟨t, rfl, target, hTarget, rfl⟩

/-- The ends of an edge are mentioned by the line that makes it. -/
theorem linksAmong_mentions (segment : List String) :
    Graph.LinksAmong (mentions segment) (links segment) := by
  intro link hLink
  obtain ⟨⟨block, line⟩, hLine, hLinked⟩ := List.mem_flatMap.1 hLink
  have hMentioned : ∀ name ∈ mentioned block line, name ∈ mentions segment := fun name hName =>
    List.mem_flatMap.2 ⟨(block, line), hLine, hName⟩
  obtain ⟨t, hSaid, target, hTarget, rfl⟩ := branch_of_mem_linked hLinked
  simp only [mentioned, hSaid] at hMentioned
  exact ⟨hMentioned _ List.mem_cons_self, hMentioned _ (List.mem_cons_of_mem _ hTarget)⟩

/-! ## The run -/

theorem linkTo_eq (src : VertexId) (g : Graph) (target : String) :
    linkTo src g target = (g.intern target).2.addEdge src (g.intern target).1 := rfl

/-- Links from a block are made one after another, each with a mention of its target. -/
theorem foldl_linkTo {names : List String} {links : List (String × String)} {block : String}
    (hAmong : Graph.LinksAmong names links) (hBlock : block ∈ names) (targets : List String) :
    targets.foldl (linkTo (names.eraseDups.idxOf block)) (.ofMentions names links) =
      .ofMentions (names ++ targets) (links ++ targets.map (block, ·)) := by
  induction targets generalizing names links with
  | nil => simp
  | cons target more ih =>
    have hLink : linkTo (names.eraseDups.idxOf block) (.ofMentions names links) target =
        .ofMentions (names ++ [target]) (links ++ [(block, target)]) := by
      rw [linkTo_eq, Graph.intern_fst_ofMentions hAmong, Graph.intern_snd_ofMentions hAmong,
        ← idxOf_eraseDups_concat hBlock, Graph.addEdge_ofMentions]
    have hBlock' : block ∈ names ++ [target] := List.mem_append_left _ hBlock
    have hAmong' : Graph.LinksAmong (names ++ [target]) (links ++ [(block, target)]) := by
      intro link hLink
      rcases List.mem_append.1 hLink with hOld | hNew
      · exact ⟨List.mem_append_left _ (hAmong link hOld).1,
          List.mem_append_left _ (hAmong link hOld).2⟩
      · rw [List.mem_singleton.1 hNew]
        exact ⟨hBlock', List.mem_append_right _ List.mem_cons_self⟩
    rw [List.foldl_cons, hLink, ← idxOf_eraseDups_concat hBlock, ih hAmong' hBlock']
    simp

namespace Extraction

/-- The extraction is inside a function, after some lines of its segment. -/
structure Within (x : Extraction) (name : String) (segment : List String) : Prop where
  function : x.function = some name
  block : x.block = some (blockAfter segment)
  graph : x.graph = .ofMentions (mentions segment) (links segment)
  ends : x.ends = .ofMarks (marks segment)

theorem Within.completed? {x : Extraction} {name : String} {segment : List String}
    (h : x.Within name segment) : x.completed? = some (.ofSegment name segment) := by
  rw [Extraction.completed?, h.function, h.graph, h.ends]
  rfl

theorem feed_of_none {line : String} (hSaid : Line.ofText? line = none) (x : Extraction) :
    x.feed line = ({ x with line := x.line + 1 }, none) := by
  simp only [feed, hSaid]

theorem feed_of_some {line : String} {said : Line} (hSaid : Line.ofText? line = some said)
    (x : Extraction) :
    x.feed line = ({ x with line := x.line + 1 } : Extraction).take (targets line.toList) said := by
  simp only [feed, hSaid]

theorem feed_header {line name : String} (hHeader : header? line = some name) (x : Extraction) :
    (x.feed line).2 = x.completed? ∧ (x.feed line).1.Within name [] := by
  unfold header? at hHeader
  split at hHeader
  next name' hSaid =>
    cases hHeader
    rw [feed_of_some hSaid]
    exact ⟨rfl, ⟨rfl, rfl, rfl, rfl⟩⟩
  next => cases hHeader

/-- A line that is no header completes nothing and leaves the function open that is. -/
theorem feed_of_no_header {line : String} (hHeader : header? line = none) (x : Extraction) :
    (x.feed line).2 = none ∧ (x.feed line).1.function = x.function := by
  unfold header? at hHeader
  cases hSaid : Line.ofText? line with
  | none =>
    rw [feed_of_none hSaid]
    exact ⟨rfl, rfl⟩
  | some said =>
    rw [feed_of_some hSaid]
    cases said with
    | define name => simp [hSaid] at hHeader
    | block name => exact ⟨rfl, rfl⟩
    | branch t => cases x.block <;> simp [take, markBlock, link, report]
    | terminator t => cases x.block <;> simp [take, markBlock, report]

/-- The graph of a marked block is the one with one more mention of it. -/
theorem graph_markBlock {x : Extraction} {names : List String} {links : List (String × String)}
    (hGraph : x.graph = .ofMentions names links) (hAmong : Graph.LinksAmong names links)
    (block : String) (t : Terminator) :
    (x.markBlock block t).graph = .ofMentions (names ++ [block]) links := by
  rw [markBlock, hGraph, Graph.intern_snd_ofMentions hAmong]

/-- Linking mentions the block too, which its mark has mentioned already. -/
theorem graph_link {x : Extraction} {names : List String} {links : List (String × String)}
    {block : String} (hGraph : x.graph = .ofMentions names links)
    (hAmong : Graph.LinksAmong names links) (hBlock : block ∈ names) (targets : List String) :
    (x.link block targets).graph =
      .ofMentions (names ++ targets) (links ++ targets.map (block, ·)) := by
  show targets.foldl (linkTo (x.graph.intern block).1) (x.graph.intern block).2 = _
  rw [hGraph, Graph.intern_fst_ofMentions hAmong, Graph.intern_snd_ofMentions hAmong,
    Graph.ofMentions_again hBlock, idxOf_eraseDups_concat hBlock, foldl_linkTo hAmong hBlock]

theorem take_branch {x : Extraction} {block : String} (hBlock : x.block = some block)
    (names : List String) (t : Terminator) :
    x.take names (.branch t) = ((x.markBlock block t).link block names, none) := by
  rw [take, hBlock]

theorem take_terminator {x : Extraction} {block : String} (hBlock : x.block = some block)
    (names : List String) (t : Terminator) :
    x.take names (.terminator t) = (x.markBlock block t, none) := by
  rw [take, hBlock]

section Within

variable {x : Extraction} {name line : String} {segment : List String}
  (h : x.Within name segment)

include h

theorem Within.count (count : UInt32) :
    ({ x with line := count } : Extraction).Within name segment :=
  ⟨h.function, h.block, h.graph, h.ends⟩

theorem Within.pass (hSaid : Line.ofText? line = none) : x.Within name (segment ++ [line]) where
  function := h.function
  block := by simpa [blockAfter_concat, label?, hSaid] using h.block
  graph := by simpa [mentions_concat, links_concat, mentioned, linked, hSaid] using h.graph
  ends := by simpa [marks_concat, marked?, hSaid] using h.ends

theorem Within.openBlock {label : String} (hSaid : Line.ofText? line = some (.block label)) :
    (x.openBlock label).Within name (segment ++ [line]) where
  function := h.function
  block := by simp [Extraction.openBlock, blockAfter_concat, label?, hSaid]
  graph := by
    have hAmong := linksAmong_mentions segment
    rw [Extraction.openBlock, h.graph, Graph.intern_snd_ofMentions hAmong]
    simp [mentions_concat, links_concat, mentioned, linked, hSaid]
  ends := by
    show x.ends = _
    simpa [marks_concat, marked?, hSaid] using h.ends

theorem Within.ends_mark {t : Terminator}
    (hMarked : marked? (blockAfter segment) line = some (blockAfter segment, t)) :
    x.ends.mark (blockAfter segment) t = .ofMarks (marks (segment ++ [line])) := by
  rw [h.ends, BlockEnds.mark_ofMarks, marks_concat, hMarked]
  rfl

theorem Within.markBlock {t : Terminator} (hSaid : Line.ofText? line = some (.terminator t)) :
    (x.markBlock (blockAfter segment) t).Within name (segment ++ [line]) where
  function := h.function
  block := by
    show x.block = _
    simpa [blockAfter_concat, label?, hSaid] using h.block
  graph := by
    rw [graph_markBlock h.graph (linksAmong_mentions segment)]
    simp [mentions_concat, links_concat, mentioned, linked, hSaid]
  ends := h.ends_mark (by simp [marked?, hSaid])

theorem Within.link {t : Terminator} (hSaid : Line.ofText? line = some (.branch t)) :
    ((x.markBlock (blockAfter segment) t).link (blockAfter segment)
      (targets line.toList)).Within name (segment ++ [line]) where
  function := h.function
  block := by
    show x.block = _
    simpa [blockAfter_concat, label?, hSaid] using h.block
  graph := by
    have hAmong := linksAmong_mentions segment
    have hMarked := graph_markBlock h.graph hAmong (blockAfter segment) t
    have hStill : Graph.LinksAmong (mentions segment ++ [blockAfter segment]) (links segment) :=
      fun link hLink => ⟨List.mem_append_left _ (hAmong link hLink).1,
        List.mem_append_left _ (hAmong link hLink).2⟩
    rw [graph_link hMarked hStill (by simp)]
    simp [mentions_concat, links_concat, mentioned, linked, hSaid]
  ends := h.ends_mark (by simp [marked?, hSaid])

/-- What a segment says so far is held after one more line too. -/
theorem within_feed (hHeader : header? line = none) :
    (x.feed line).1.Within name (segment ++ [line]) := by
  have hCount := h.count (x.line + 1)
  unfold header? at hHeader
  cases hSaid : Line.ofText? line with
  | none =>
    rw [feed_of_none hSaid]
    exact hCount.pass hSaid
  | some said =>
    rw [feed_of_some hSaid]
    cases said with
    | define name => simp [hSaid] at hHeader
    | block label => exact hCount.openBlock hSaid
    | branch t =>
      rw [take_branch hCount.block]
      exact hCount.link hSaid
    | terminator t =>
      rw [take_terminator hCount.block]
      exact hCount.markBlock hSaid

end Within

theorem feedAll_nil (x : Extraction) : x.feedAll [] = (x, []) := rfl

theorem feedAll_cons (x : Extraction) (line : String) (more : List String) :
    x.feedAll (line :: more) =
      (((x.feed line).1.feedAll more).1,
        (x.feed line).2.toList ++ ((x.feed line).1.feedAll more).2) := rfl

theorem feedAll_append (x : Extraction) (before after : List String) :
    x.feedAll (before ++ after) =
      (((x.feedAll before).1.feedAll after).1,
        (x.feedAll before).2 ++ ((x.feedAll before).1.feedAll after).2) := by
  induction before generalizing x with
  | nil => rfl
  | cons line more ih => rw [List.cons_append, feedAll_cons, feedAll_cons, ih, List.append_assoc]

/-- What is handed over of some lines and at their end. -/
def handedOver (x : Extraction) (lines : List String) : List FlowGraph :=
  (x.feedAll lines).2 ++ (x.feedAll lines).1.completed?.toList

theorem handedOver_nil (x : Extraction) : x.handedOver [] = x.completed?.toList := rfl

theorem handedOver_cons (x : Extraction) (line : String) (more : List String) :
    x.handedOver (line :: more) =
      (x.feed line).2.toList ++ (x.feed line).1.handedOver more := by
  simp [handedOver, feedAll_cons]

theorem handedOver_append (x : Extraction) (before after : List String) :
    x.handedOver (before ++ after) =
      (x.feedAll before).2 ++ (x.feedAll before).1.handedOver after := by
  rw [handedOver, feedAll_append, handedOver, List.append_assoc]

theorem handedOver_of_within {x : Extraction} {name : String} {segment : List String}
    (h : x.Within name segment) (lines : List String) :
    x.handedOver lines =
      .ofSegment name (segment ++ lines.takeWhile fun line => (header? line).isNone) ::
        (segments lines).map fun s => .ofSegment s.1 s.2 := by
  induction lines generalizing x name segment with
  | nil => simp [handedOver_nil, h.completed?, segments]
  | cons line more ih =>
    rw [handedOver_cons]
    cases hHeader : header? line with
    | none =>
      rw [(feed_of_no_header hHeader x).1, ih (within_feed h hHeader)]
      simp [segments, hHeader]
    | some later =>
      obtain ⟨hDone, hWithin⟩ := feed_header hHeader x
      rw [hDone, h.completed?, ih hWithin]
      simp [segments, hHeader]

theorem handedOver_of_closed {x : Extraction} (h : x.function = none) (lines : List String) :
    x.handedOver lines = (segments lines).map fun s => .ofSegment s.1 s.2 := by
  induction lines generalizing x with
  | nil => simp [handedOver_nil, completed?, h, segments]
  | cons line more ih =>
    rw [handedOver_cons]
    cases hHeader : header? line with
    | none =>
      obtain ⟨hDone, hFunction⟩ := feed_of_no_header hHeader x
      rw [hDone, ih (hFunction.trans h)]
      simp [segments, hHeader]
    | some name =>
      obtain ⟨hDone, hWithin⟩ := feed_header hHeader x
      rw [hDone, handedOver_of_within hWithin]
      simp [segments, hHeader, completed?, h]

end Extraction

/-- Every header has a segment, and no other line has one. -/
theorem map_segments (lines : List String) :
    (segments lines).map (·.1) = lines.filterMap header? := by
  induction lines with
  | nil => rfl
  | cons line more ih =>
    rw [segments]
    cases hHeader : header? line with
    | none => rw [List.filterMap_cons_none hHeader, ih]
    | some name => rw [List.filterMap_cons_some hHeader, List.map_cons, ih]

/-- A flow graph shows what a segment says: the names that it mentions, labelled with themselves,
its links in order, and for each block that it marks the last mark. -/
structure FlowGraph.Shows (f : FlowGraph) (segment : List String) : Prop where
  names : f.graph.names = (mentions segment).eraseDups
  labels : ∀ v ∈ f.graph.vertices, v.label = v.name
  edges : f.graph.edgeNames? = some (links segment)
  blocks : f.ends.map (·.1) = ((marks segment).map (·.1)).eraseDups
  terminators : ∀ block, f.terminator? block = lastSaid? (marks segment) block

theorem FlowGraph.shows_ofSegment (name : String) (segment : List String) :
    (FlowGraph.ofSegment name segment).Shows segment where
  names := Graph.names_ofMentions _ _
  labels v hMem := by
    obtain ⟨n, -, rfl⟩ := List.mem_map.1 hMem
    rfl
  edges := Graph.edgeNames?_ofMentions (linksAmong_mentions segment)
  blocks := BlockEnds.names_ofMarks _
  terminators block := BlockEnds.get?_ofMarks _ block

theorem functions_eq_segments (source : String) :
    (extract source).functions = (segments (Text.lines source)).map fun s => .ofSegment s.1 s.2 :=
  Extraction.handedOver_of_closed rfl (Text.lines source)

end GraphMarkup.ControlFlow
