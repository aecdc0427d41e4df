import GraphMarkup.Proofs.Dot.Acceptance
import GraphMarkup.Proofs.Dot.Layout

/-!
# Reserving words

Which words are reserved decides whether a bare word is a name or a keyword, and nothing else of the
tokens of a text: with every keyword taken for the word that it is (`Token.unreserved`), a text has
the same tokens on the same lines whatever is reserved (`map_unreserved_ofText`).

Tokens that are the same up to that are derived from the grammar in one way only. After its keyword
a directive has an equals sign, where a statement about vertices goes on with an arrow, a bracket or
its semicolon, so two derivations go by the same rules although one of them may start a statement
with a keyword where the other has a name (`IsStatement.unique`, and by induction on the first
derivation `IsStatements.unique`). A text that is read in silence under two sets of reserved words
is therefore the same document under both (`reserving_keeps_meaning`).
-/

namespace GraphMarkup.Dot

/-! ## Tokens without keywords -/

namespace Token

/-- The token as it is where no word is reserved. -/
def unreserved : Token → Token
  | .keyword k => .ident k.word
  | t => t

variable {t u : Token} {m : Mark} {name : String}

theorem unreserved_eq_mark : t.unreserved = .mark m ↔ t = .mark m := by
  cases t <;> simp [unreserved]

theorem name?_unreserved (t : Token) : t.unreserved.name? = t.name? := by
  cases t <;> rfl

theorem name?_eq_of_unreserved (h : t.unreserved = u.unreserved) : t.name? = u.name? := by
  rw [← name?_unreserved, h, name?_unreserved]

/-- Where a name is read there is no mark. -/
theorem unreserved_ne_mark (hName : t.name? = some name) : t.unreserved ≠ .mark m :=
  mt unreserved_eq_mark.1 (ne_of_name? hName rfl)

end Token

theorem Keyword.word_inj {k l : Keyword} (h : k.word = l.word) : k = l := by
  have hRead := Keyword.ofWord?_word k
  rw [h, Keyword.ofWord?_word] at hRead
  exact (Option.some.inj hRead).symm

/-! ## The tokens of one text -/

/-- The located token as it is where no word is reserved. -/
def Located.unreserved (t : Located) : Located := { t with token := t.token.unreserved }

section Streams

variable (ks ls : KeywordSet)

/-- The word of a piece is what its token comes to, reserved or not. -/
theorem Piece.map_unreserved_token? (q : Piece) :
    (q.token? ks).map Token.unreserved = (q.token? ls).map Token.unreserved := by
  have hWord : ∀ (js : KeywordSet) (word : List Char),
      ((Piece.word word).token? js).map Token.unreserved = some (.ident (String.ofList word)) := by
    intro js word
    cases hLookup : js.lookup (String.ofList word) with
    | none =>
      rw [token?_word_of_none hLookup]
      rfl
    | some k =>
      rw [token?_word_of_some hLookup, (KeywordSet.lookup_eq_some.1 hLookup).1]
      rfl
  cases q with
  | word word => rw [hWord, hWord]
  | string | mark | blank | comment => rfl

theorem map_unreserved_locate (line : UInt32) (qs : List Piece) :
    (locate ks line qs).1.map Located.unreserved = (locate ls line qs).1.map Located.unreserved ∧
      (locate ks line qs).2 = (locate ls line qs).2 := by
  induction qs generalizing line with
  | nil => exact ⟨rfl, rfl⟩
  | cons q qs ih =>
    obtain ⟨hTokens, hLine⟩ := ih (q.lineAfter line)
    have hToken := q.map_unreserved_token? ks ls
    simp only [locate]
    cases hKs : q.token? ks with
    | none =>
      cases hLs : q.token? ls with
      | none => exact ⟨hTokens, hLine⟩
      | some u => simp [hKs, hLs] at hToken
    | some t =>
      cases hLs : q.token? ls with
      | none => simp [hKs, hLs] at hToken
      | some u =>
        rw [hKs, hLs, Option.map_some, Option.map_some, Option.some.injEq] at hToken
        refine ⟨?_, hLine⟩
        rw [List.map_cons, List.map_cons, hTokens, Located.unreserved, Located.unreserved, hToken]

/-- Whatever is reserved, a text has the same tokens on the same lines up to keywords. -/
theorem map_unreserved_ofText (source : String) :
    (TokenStream.ofText ks source).map Located.unreserved =
      (TokenStream.ofText ls source).map Located.unreserved := by
  obtain ⟨hTokens, hLine⟩ := map_unreserved_locate ks ls 1 (pieces source.toList).1
  simp only [TokenStream.ofText, List.map_append, hTokens, hLine]

end Streams

/-! ## One derivation for tokens up to keywords

Each lemma is about two derivations from the same rule, with what follows them: `rest` and `rest'`
are tokens without keywords. -/

namespace Grammar

variable {ts us rest rest' : List Token}

theorem Attribute.unique {a b : String × String} (h : Attribute ts a) (h' : Attribute us b)
    (hSame : ts.map Token.unreserved ++ rest = us.map Token.unreserved ++ rest') :
    a = b ∧ rest = rest' := by
  obtain ⟨hName, hValue⟩ := h
  obtain ⟨hName', hValue'⟩ := h'
  simp only [List.map_cons, List.map_nil, List.cons_append, List.nil_append,
    List.cons.injEq] at hSame
  obtain ⟨hFirst, -, hLast, hRest⟩ := hSame
  rw [Token.name?_eq_of_unreserved hFirst, hName'] at hName
  rw [Token.name?_eq_of_unreserved hLast, hValue'] at hValue
  cases hName
  cases hValue
  exact ⟨rfl, hRest⟩

theorem Attribute.head_ne_mark {a : String × String} (h : Attribute ts a) (m : Mark) :
    (ts.map Token.unreserved ++ rest).head? ≠ some (.mark m) := by
  obtain ⟨hName, -⟩ := h
  simpa using Token.unreserved_ne_mark hName

theorem MoreAttributes.unique {as bs : Attributes} (h : MoreAttributes ts as)
    (h' : MoreAttributes us bs)
    (hSame : ts.map Token.unreserved ++ .mark .rightBracket :: rest =
      us.map Token.unreserved ++ .mark .rightBracket :: rest') :
    as = bs ∧ rest = rest' := by
  induction h generalizing us bs with
  | none =>
    cases h' with
    | none => exact ⟨rfl, (List.cons.inj hSame).2⟩
    | comma => simp [Token.unreserved] at hSame
  | comma hAttribute _ ih =>
    cases h' with
    | none => simp [Token.unreserved] at hSame
    | comma hAttribute' hLater' =>
      simp only [List.map_cons, List.map_append, List.cons_append, List.append_assoc] at hSame
      obtain ⟨rfl, hMore⟩ := hAttribute.unique hAttribute' (List.cons.inj hSame).2
      obtain ⟨rfl, hRest⟩ := ih hLater' hMore
      exact ⟨rfl, hRest⟩

theorem AttributeList.unique {as bs : Attributes} (h : AttributeList ts as)
    (h' : AttributeList us bs)
    (hSame : ts.map Token.unreserved ++ .mark .rightBracket :: rest =
      us.map Token.unreserved ++ .mark .rightBracket :: rest') :
    as = bs ∧ rest = rest' := by
  cases h with
  | none =>
    cases h' with
    | none => exact ⟨rfl, (List.cons.inj hSame).2⟩
    | some hAttribute _ =>
      rw [List.map_append, List.append_assoc] at hSame
      exact absurd (congrArg List.head? hSame).symm (hAttribute.head_ne_mark _)
  | some hAttribute hLater =>
    rw [List.map_append, List.append_assoc] at hSame
    cases h' with
    | none => exact absurd (congrArg List.head? hSame) (hAttribute.head_ne_mark _)
    | some hAttribute' hLater' =>
      rw [List.map_append, List.append_assoc] at hSame
      obtain ⟨rfl, hMore⟩ := hAttribute.unique hAttribute' hSame
      obtain ⟨rfl, hRest⟩ := hLater.unique hLater' hMore
      exact ⟨rfl, hRest⟩

/-- After the names of a statement about vertices comes a bracket, or its semicolon. -/
theorem OptionalAttributes.head_ne_mark {as : Attributes} (h : OptionalAttributes ts as)
    (rest : List Token) {m : Mark} (hSemicolon : m ≠ .semicolon) (hBracket : m ≠ .leftBracket) :
    (ts.map Token.unreserved ++ .mark .semicolon :: rest).head? ≠ some (.mark m) := by
  cases h with
  | absent => simpa using hSemicolon.symm
  | bracketed => simpa [Token.unreserved] using hBracket.symm

theorem OptionalAttributes.unique {as bs : Attributes} (h : OptionalAttributes ts as)
    (h' : OptionalAttributes us bs)
    (hSame : ts.map Token.unreserved ++ .mark .semicolon :: rest =
      us.map Token.unreserved ++ .mark .semicolon :: rest') :
    as = bs ∧ rest = rest' := by
  cases h with
  | absent =>
    cases h' with
    | absent => exact ⟨rfl, (List.cons.inj hSame).2⟩
    | bracketed => simp [Token.unreserved] at hSame
  | bracketed hList =>
    cases h' with
    | absent => simp [Token.unreserved] at hSame
    | bracketed hList' =>
      simp only [List.map_cons, List.map_append, List.map_nil, List.cons_append, List.append_assoc,
        List.nil_append] at hSame
      obtain ⟨rfl, hMore⟩ := hList.unique hList' (List.cons.inj hSame).2
      exact ⟨rfl, (List.cons.inj hMore).2⟩

theorem IsStatement.unique {s s' : Statement} (h : IsStatement ts s) (h' : IsStatement us s')
    (hSame : ts.map Token.unreserved ++ .mark .semicolon :: rest =
      us.map Token.unreserved ++ .mark .semicolon :: rest') :
    s = s' ∧ rest = rest' := by
  -- What tells the three rules apart is the second token.
  have hSecond := congrArg (fun tokens => tokens.tail.head?) hSame
  cases h with
  | directive =>
    cases h' with
    | directive =>
      simp only [List.map_cons, List.map_nil, List.cons_append, List.nil_append, List.cons.injEq,
        Token.unreserved, Token.ident.injEq, Token.str.injEq] at hSame
      obtain ⟨hWord, -, rfl, -, hRest⟩ := hSame
      rw [Keyword.word_inj hWord]
      exact ⟨rfl, hRest⟩
    | vertex _ _ hAttributes =>
      exact absurd hSecond.symm (hAttributes.head_ne_mark rest' (by decide) (by decide))
    | edge => cases hSecond
  | vertex _ hName hAttributes =>
    cases h' with
    | directive =>
      exact absurd hSecond (hAttributes.head_ne_mark rest (by decide) (by decide))
    | vertex _ hName' hAttributes' =>
      obtain ⟨hFirst, hMore⟩ := List.cons.inj hSame
      rw [Token.name?_eq_of_unreserved hFirst, hName'] at hName
      obtain ⟨rfl, hRest⟩ := hAttributes.unique hAttributes' hMore
      cases hName
      exact ⟨rfl, hRest⟩
    | edge =>
      exact absurd hSecond (hAttributes.head_ne_mark rest (by decide) (by decide))
  | edge _ hSrc hDst hAttributes =>
    cases h' with
    | directive => cases hSecond
    | vertex _ _ hAttributes' =>
      exact absurd hSecond.symm (hAttributes'.head_ne_mark rest' (by decide) (by decide))
    | edge _ hSrc' hDst' hAttributes' =>
      simp only [List.map_cons, List.cons_append, List.cons.injEq] at hSame
      obtain ⟨hFirst, -, hLast, hMore⟩ := hSame
      rw [Token.name?_eq_of_unreserved hFirst, hSrc'] at hSrc
      rw [Token.name?_eq_of_unreserved hLast, hDst'] at hDst
      obtain ⟨rfl, hRest⟩ := hAttributes.unique hAttributes' hMore
      cases hSrc
      cases hDst
      exact ⟨rfl, hRest⟩

/-- No statement starts like the end of the statement list. -/
theorem IsStatement.head_ne_rightBrace {s : Statement} (h : IsStatement ts s) :
    (ts.map Token.unreserved ++ rest).head? ≠ some (.mark .rightBrace) := by
  obtain ⟨t, more, rfl, hBrace, -⟩ := h.head
  simpa using mt Token.unreserved_eq_mark.1 hBrace

theorem IsStatements.unique {ss ss' : List Statement} (h : IsStatements ts ss)
    (h' : IsStatements us ss')
    (hSame : ts.map Token.unreserved ++ .mark .rightBrace :: rest =
      us.map Token.unreserved ++ .mark .rightBrace :: rest') :
    ss = ss' ∧ rest = rest' := by
  induction h generalizing us ss' with
  | nil =>
    cases h' with
    | nil => exact ⟨rfl, (List.cons.inj hSame).2⟩
    | cons hFirst' _ =>
      rw [List.map_append, List.append_assoc] at hSame
      exact absurd (congrArg List.head? hSame).symm hFirst'.head_ne_rightBrace
  | cons hFirst _ ih =>
    rw [List.map_append, List.append_assoc] at hSame
    cases h' with
    | nil => exact absurd (congrArg List.head? hSame) hFirst.head_ne_rightBrace
    | cons hFirst' hLater' =>
      rw [List.map_append, List.append_assoc] at hSame
      obtain ⟨rfl, hMore⟩ := hFirst.unique hFirst' hSame
      obtain ⟨rfl, hRest⟩ := ih hLater' hMore
      exact ⟨rfl, hRest⟩

theorem IsDocument.unique {name name' : String} {ss ss' : List Statement}
    (h : IsDocument ts name ss) (h' : IsDocument us name' ss')
    (hSame : ts.map Token.unreserved = us.map Token.unreserved) : name = name' ∧ ss = ss' := by
  obtain ⟨hName, hStatements⟩ := h
  obtain ⟨hName', hStatements'⟩ := h'
  simp only [List.map_cons, List.map_append, List.map_nil, List.cons.injEq] at hSame
  obtain ⟨-, hTitle, -, hBody⟩ := hSame
  rw [Token.name?_eq_of_unreserved hTitle, hName'] at hName
  obtain ⟨rfl, -⟩ := hStatements.unique hStatements' hBody
  cases hName
  exact ⟨rfl, rfl⟩

end Grammar

/-! ## Documents -/

namespace Document

open Grammar Reader

/-- Tokens of a text at which nothing is missed are a document. -/
theorem exists_isDocument_of_read {ks : KeywordSet} {mode : Mode} {source : String}
    (hRead : (ofTokens mode (TokenStream.ofText ks source)).diagnostics = []) :
    ∃ name ss, IsDocument ((TokenStream.ofText ks source).map (·.token)) name ss := by
  obtain ⟨body, line, hStream, hBody⟩ := TokenStream.exists_ofText_eq ks source
  obtain ⟨r, hFast⟩ := failFast_of_silent ⟨⟨.eof, line⟩, by simp [hStream], rfl⟩ hRead
  have hTokens : (TokenStream.ofText ks source).map (·.token) = body.map (·.token) ++ [.eof] := by
    rw [hStream, List.map_append]
    rfl
  have hNoEof : Token.eof ∉ body.map (·.token) := by
    intro hMem
    obtain ⟨t, ht, hToken⟩ := List.mem_map.1 hMem
    exact hBody t ht hToken
  exact isDocument_of_readDocument
    (r := { mode := .failFast, rest := TokenStream.ofText ks source }) rfl hTokens hNoEof hFast

/-- A text that is read in silence is a document, and is read as what its statements make. -/
theorem exists_isDocument_of_silent {options : Options} {source : String}
    (hSilent : (ofText options source).diagnostics = []) :
    ∃ name ss,
      IsDocument ((TokenStream.ofText options.keywords source).map (·.token)) name ss ∧
        (ofText options source).name = some name ∧ (ofText options source).graph = graphOf ss := by
  obtain ⟨-, hRead⟩ := List.append_eq_nil_iff.1 hSilent
  obtain ⟨name, ss, hDocument⟩ := exists_isDocument_of_read hRead
  obtain ⟨r', hRun, hName, hGraph, -⟩ := readDocument_of_isDocument
    (r := { mode := options.mode, rest := TokenStream.ofText options.keywords source }) hDocument
  refine ⟨name, ss, hDocument, ?_⟩
  simp only [ofText, ofTokens_of_ok hRun]
  exact ⟨hName, hGraph⟩

/-- A text that is read in silence under two sets of reserved words has one name and one graph. -/
theorem reserving_keeps_meaning {ks ls : KeywordSet} {mode mode' : Mode} {source : String}
    (hSilent : (ofText ⟨ks, mode⟩ source).diagnostics = [])
    (hSilent' : (ofText ⟨ls, mode'⟩ source).diagnostics = []) :
    (ofText ⟨ks, mode⟩ source).name = (ofText ⟨ls, mode'⟩ source).name ∧
      (ofText ⟨ks, mode⟩ source).graph = (ofText ⟨ls, mode'⟩ source).graph := by
  obtain ⟨name, ss, hDocument, hName, hGraph⟩ := exists_isDocument_of_silent hSilent
  obtain ⟨name', ss', hDocument', hName', hGraph'⟩ := exists_isDocument_of_silent hSilent'
  have hSame : ((TokenStream.ofText ks source).map (·.token)).map Token.unreserved =
      ((TokenStream.ofText ls source).map (·.token)).map Token.unreserved := by
    have hLocated := congrArg (List.map (·.token)) (map_unreserved_ofText ks ls source)
    rw [List.map_map, List.map_map] at hLocated
    rw [List.map_map, List.map_map]
    exact hLocated
  obtain ⟨rfl, rfl⟩ := hDocument.unique hDocument' hSame
  exact ⟨hName.trans hName'.symm, hGraph.trans hGraph'.symm⟩

/-- A document with a directive, named by a word that is reserved in one of two readings of it, in
which that word also names an attribute and a vertex. -/
def labelled : String :=
  "digraph label \x7b size = \"1,1\"; a -> rankdir; a [label = \"x\"]; b -> label; \x7d"

theorem meaning_labelled :
    (ofText ⟨.minimal, .failFast⟩ labelled).diagnostics = [] ∧
      (ofText ⟨.extended, .recover⟩ labelled).diagnostics = [] ∧
        TokenStream.ofText .minimal labelled ≠ TokenStream.ofText .extended labelled ∧
          (ofText ⟨.minimal, .failFast⟩ labelled).name =
              (ofText ⟨.extended, .recover⟩ labelled).name ∧
            (ofText ⟨.minimal, .failFast⟩ labelled).graph =
              (ofText ⟨.extended, .recover⟩ labelled).graph :=
  have hSilent : (ofText ⟨.minimal, .failFast⟩ labelled).diagnostics = [] := by decide +kernel
  have hSilent' : (ofText ⟨.extended, .recover⟩ labelled).diagnostics = [] := by decide +kernel
  ⟨hSilent, hSilent', by decide +kernel, reserving_keeps_meaning hSilent hSilent'⟩

end Document

end GraphMarkup.Dot
