import GraphMarkup.Proofs.Dot.Acceptance
import GraphMarkup.Proofs.Dot.Termination

/-!
# What a faulty rest leaves of a good beginning

A reading gets over the beginning of a document in silence, up to any semicolon or the opening
brace, and is then in front of the rest with the name and the graph of that beginning
(`readDocument_of_isBeginning`). From there on it makes moves, whatever the rest is, and moves only
add: so the name stays, vertex names and edges stay in front, and what is reported is reported of
the rest (`beginning_kept`). Labels are not kept, since a later statement may relabel a vertex.
-/

namespace GraphMarkup.Dot

open Grammar

/-- The beginning of a document with some of its statements, each with its semicolon. -/
inductive Grammar.IsBeginning : List Token → String → List Statement → Prop
  | mk {t : Token} {ts : List Token} {name : String} {ss : List Statement}
      (hName : t.name? = some name) (hStatements : IsStatements ts ss) :
      IsBeginning (.keyword .digraph :: t :: .mark .leftBrace :: ts) name ss

namespace Reader

theorem readDocument_of_isBeginning {r : Reading} {front later : TokenStream} {name : String}
    {ss : List Statement} (h : IsBeginning (front.map (·.token)) name ss)
    (hRest : r.rest = front ++ later) (hLater : later ≠ []) :
    ∃ r', readDocument r = readRest r' ∧ r'.rest = later ∧ r'.name = some name ∧
      r'.graph = ss.foldl Statement.apply r.graph ∧ r'.diagnostics = r.diagnostics := by
  have hMore : later.map (·.token) ≠ [] := by simpa using hLater
  have hTokens : r.tokens = front.map (·.token) ++ later.map (·.token) := by
    rw [Reading.tokens, hRest, List.map_append]
  generalize front.map (·.token) = tokens at h hTokens
  obtain ⟨hName, hStatements⟩ := h
  obtain ⟨r', hRun, hLeft, hSuffix, hSaid⟩ :=
    readDocument_of_isStatements hName hStatements hMore hTokens
  -- The tokens that are left are told from their number: they are a part at the end of the stream.
  have hLength : r'.rest.length = later.length := by
    simpa [Reading.tokens] using congrArg List.length hLeft
  rw [hRest] at hSuffix
  have hBehind : later <:+ front ++ later := List.suffix_append front later
  have hSame : r'.rest <:+ later := List.suffix_of_suffix_length_le hSuffix hBehind hLength.le
  exact ⟨r', hRun, hSame.eq_of_length hLength, hSaid⟩

end Reader

namespace Document

open Reader

/-- Whatever follows a good beginning, with the end of input at the end: the name of the document is
that of the beginning, its vertex names and edges come first, and every diagnostic is on the line of
a token behind the beginning. -/
theorem beginning_kept {mode : Mode} {front later : TokenStream} {name : String}
    {ss : List Statement} (hFront : IsBeginning (front.map (·.token)) name ss)
    (hEof : ∃ t ∈ later.getLast?, t.token = .eof) :
    (ofTokens mode (front ++ later)).name = some name ∧
      (graphOf ss).names <+: (ofTokens mode (front ++ later)).graph.names ∧
      (graphOf ss).edges <+: (ofTokens mode (front ++ later)).graph.edges ∧
      (∀ d ∈ (ofTokens mode (front ++ later)).diagnostics,
        d.stage = .parse ∧ ∃ t ∈ later, t.line = d.line) ∧
      (ofTokens mode (front ++ later)).stopped ≠ some .endless := by
  have hLater : later ≠ [] := by
    rintro rfl
    simp at hEof
  let start : Reading := { mode := mode, rest := front ++ later }
  obtain ⟨r, hRun, hRest, hName, hGraph, hSilent⟩ :=
    readDocument_of_isBeginning (r := start) hFront rfl hLater
  have hMoves : Moves r (final (readDocument start)) := by
    rw [hRun]
    exact (regular_readRest.outcome_nil r).moves
  have hGrows := hMoves.grows
  have hNone : r.diagnostics.toList = [] := by rw [hSilent]
  have hBuilt : r.graph = graphOf ss := hGraph
  have hEnds : (ofTokens mode (front ++ later)).stopped ≠ some .endless := by
    rw [ne_eq, stopped_eq_endless_iff, not_not]
    refine terminates_of_eof ?_
    rwa [List.getLast?_append_of_ne_nil _ hLater]
  obtain ⟨stopped, hDocument⟩ := ofTokens_eq_final mode (front ++ later)
  rw [hDocument] at hEnds ⊢
  refine ⟨?_, ?_, ?_, fun d hd => ?_, hEnds⟩
  · exact hMoves.name_eq.trans hName
  · rw [← hBuilt]
    exact hGrows.names
  · rw [← hBuilt]
    exact hGrows.edges
  · have hLeft : r.rest ≠ [] := by rwa [hRest]
    rcases hMoves.mem_diagnostics hLeft hd with hOld | hNew
    · rw [hNone] at hOld
      cases hOld
    · rwa [hRest] at hNew

/-- A directive, a labelled vertex and an edge, each with its semicolon. -/
def sound : TokenStream :=
  [⟨.keyword .digraph, 1⟩, ⟨.ident "G", 1⟩, ⟨.mark .leftBrace, 1⟩,
    ⟨.keyword .rankdir, 2⟩, ⟨.mark .equals, 2⟩, ⟨.str "LR", 2⟩, ⟨.mark .semicolon, 2⟩,
    ⟨.ident "a", 3⟩, ⟨.mark .leftBracket, 3⟩, ⟨.keyword .label, 3⟩, ⟨.mark .equals, 3⟩,
    ⟨.str "A", 3⟩, ⟨.mark .rightBracket, 3⟩, ⟨.mark .semicolon, 3⟩,
    ⟨.ident "a", 4⟩, ⟨.mark .arrow, 4⟩, ⟨.ident "b", 4⟩, ⟨.mark .semicolon, 4⟩]

/-- Text that could not be read, an edge without a source and a closing brace too many. -/
def unsound : TokenStream :=
  [⟨.unrecognized "- x", 5⟩, ⟨.mark .arrow, 6⟩, ⟨.ident "a", 6⟩, ⟨.mark .rightBrace, 7⟩,
    ⟨.mark .rightBrace, 7⟩, ⟨.eof, 8⟩]

theorem isBeginning_sound :
    IsBeginning (sound.map (·.token)) "G"
      [.directive .rankdir "LR", .vertex "a" [("label", "A")], .edge "a" "b" []] := by
  have hEdge : IsStatements _ [.edge "a" "b" []] :=
    .cons (.edge (t := .ident "a") (u := .ident "b") (by simp [startsDirective]) rfl rfl .absent)
      .nil
  have hLabel : OptionalAttributes _ [("label", "A")] :=
    .bracketed (.some (.mk (n := .keyword .label) (v := .str "A") rfl rfl) .none)
  exact .mk (t := .ident "G") rfl (.cons (.directive rfl)
    (.cons (.vertex (t := .ident "a") (by simp [startsDirective]) rfl hLabel) hEdge))

theorem beginning_kept_unsound :
    (∃ t ∈ unsound.getLast?, t.token = .eof) ∧
      (ofTokens .recover (sound ++ unsound)).graph.names = ["a", "b", "$invalid$"] ∧
      (ofTokens .recover (sound ++ unsound)).diagnostics.length = 4 ∧
      (ofTokens .recover (sound ++ unsound)).name = some "G" ∧
      (∀ d ∈ (ofTokens .recover (sound ++ unsound)).diagnostics,
        d.stage = .parse ∧ ∃ t ∈ unsound, t.line = d.line) :=
  have hEof : ∃ t ∈ unsound.getLast?, t.token = .eof := ⟨⟨.eof, 8⟩, rfl, rfl⟩
  have hKept := @beginning_kept .recover _ _ _ _ isBeginning_sound hEof
  ⟨hEof, by decide +kernel, by decide +kernel, hKept.1, hKept.2.2.2.1⟩

end Document

end GraphMarkup.Dot
