import GraphMarkup.Proofs.Dot.Lockstep

/-!
# Bare words in quotes

A bare word that is no keyword is a name, and so is a string with its text. The two are told apart
where a string is required, and there only: a bare word in its place is reported and passed over, as
the string would have been. So a document with some of its bare words in quotes is read in lockstep
with the document itself, and at most fewer things are missed in it (`quoting_keeps_graph`).

Reserved words are not among those that may be put in quotes. One that starts a setting would become
the name of a vertex.
-/

namespace GraphMarkup.Dot

/-- The same token, or the string with the text of a bare word. -/
inductive Token.Quoted : Token → Token → Prop
  | same (t : Token) : Quoted t t
  | word (text : String) : Quoted (.ident text) (.str text)

/-- The same token or its string, on the same line. -/
structure Located.Quoted (t u : Located) : Prop where
  token : t.token.Quoted u.token
  line : u.line = t.line

/-- A stream with some of its bare words in quotes. -/
abbrev TokenStream.Quoted : TokenStream → TokenStream → Prop := List.Forall₂ Located.Quoted

theorem Token.Quoted.alike {t u : Token} (h : t.Quoted u) : t.Alike u := by
  cases h with
  | same => exact .refl t
  | word text => exact ⟨by simp, by simp, by simp, rfl, rfl, rfl⟩

theorem Token.Quoted.isString {t u : Token} (h : t.Quoted u) :
    u.isString = t.isString ∨ u.isString := by
  cases h with
  | same => exact Or.inl rfl
  | word text => exact Or.inr rfl

/-- In a recovering reading of the quoted stream no more is reported. -/
def quoting : Comparison where
  mode := .recover
  Tokens := Located.Quoted
  Diagnostics ds es := es.length ≤ ds.length
  refl t := ⟨.same t.token, rfl⟩
  alike _ _ h := h.token.alike
  silent := Nat.le_refl 0
  missed t u _ expected ds es h := by
    rw [List.length_append, List.length_append]
    exact Nat.add_le_add_right h 1
  string t u h := by
    refine h.token.isString.imp_right fun hString => ⟨rfl, hString, fun ds es h => ?_⟩
    rw [List.length_append]
    exact Nat.le_add_right_of_le h

namespace Document

open Reader

/-- In a recovering reading bare words may be put in quotes: the document is read to its end all the
same, its name and its graph stay as they were, and no more is reported. -/
theorem quoting_keeps_graph {tokens quoted : TokenStream}
    (hEof : ∃ t ∈ tokens.getLast?, t.token = .eof) (hQuoted : tokens.Quoted quoted) :
    (ofTokens .recover tokens).stopped = none ∧ (ofTokens .recover quoted).stopped = none ∧
      (ofTokens .recover quoted).name = (ofTokens .recover tokens).name ∧
      (ofTokens .recover quoted).graph = (ofTokens .recover tokens).graph ∧
      (ofTokens .recover quoted).diagnostics.length ≤
        (ofTokens .recover tokens).diagnostics.length := by
  have hSame : quoting.SameDocument (ofTokens .recover tokens) (ofTokens .recover quoted) :=
    quoting.sameDocument hQuoted
  have hThrough : (ofTokens .recover tokens).stopped = none := by
    obtain ⟨r, hRun, -⟩ := readDocument_cases hEof
    rw [ofTokens_of_ok hRun]
  exact ⟨hThrough, hSame.stopped.trans hThrough, hSame.name, hSame.graph, hSame.diagnostics⟩

/-- A document with a title, a statement that breaks off, and no end. -/
def titled (title : Token) : TokenStream :=
  [⟨.keyword .digraph, 1⟩, ⟨.ident "G", 1⟩, ⟨.mark .leftBrace, 1⟩, ⟨.keyword .label, 2⟩,
    ⟨.mark .equals, 2⟩] ++ ⟨title, 2⟩ ::
  [⟨.mark .semicolon, 2⟩, ⟨.ident "a", 3⟩, ⟨.mark .arrow, 3⟩, ⟨.eof, 4⟩]

theorem quoted_titled (text : String) : (titled (.ident text)).Quoted (titled (.str text)) := by
  have hSame : ∀ ts : TokenStream, ts.Quoted ts :=
    fun ts => List.forall₂_same.2 fun t _ => quoting.refl t
  exact List.rel_append (hSame _) (.cons ⟨.word text, rfl⟩ (hSame _))

theorem quoting_keeps_graph_titled :
    (∃ t ∈ (titled (.ident "Title")).getLast?, t.token = .eof) ∧
      (titled (.ident "Title")).Quoted (titled (.str "Title")) ∧
      (ofTokens .recover (titled (.ident "Title"))).diagnostics.length = 4 ∧
      (ofTokens .recover (titled (.str "Title"))).diagnostics.length = 3 ∧
      (ofTokens .recover (titled (.str "Title"))).graph =
        (ofTokens .recover (titled (.ident "Title"))).graph :=
  have hEof : ∃ t ∈ (titled (.ident "Title")).getLast?, t.token = .eof := ⟨⟨.eof, 4⟩, rfl, rfl⟩
  ⟨hEof, quoted_titled "Title", by decide +kernel, by decide +kernel,
    (quoting_keeps_graph hEof (quoted_titled "Title")).2.2.2.1⟩

end Document

end GraphMarkup.Dot
