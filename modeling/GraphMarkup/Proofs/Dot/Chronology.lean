import GraphMarkup.Proofs.Dot.Reserved
import GraphMarkup.Proofs.Dot.SingleLine

/-!
# Diagnostics in order

The tokens of a text come line by line, whatever strings and comments lie between them, and what no
rule covers is on the last of these lines, together with the end of input. A reading never goes back
to a token, so what it reports is in the order of the lines, too: the invariant is that no
diagnostic so far is behind a token that is left (`reporting_chronological`).

Unrecognized text is reported once, in front of all that the reading reports. No rule of the grammar
derives a token for it, so the reading does not get over it in silence.

The main result is `diagnostics_in_order`. It is about texts whose lines can be counted in
thirty-two bits; in a longer one the count starts again.
-/

namespace GraphMarkup.Dot

/-! ## Tokens line by line -/

/-- The lines of tokens go from one to `count` and never back, and unrecognized text is on the last
of them. -/
structure TokenStream.InLines (tokens : TokenStream) (count : Nat) : Prop where
  ordered : tokens.Pairwise fun t u => t.line ≤ u.line
  bounds : ∀ t ∈ tokens, 1 ≤ t.line ∧ t.line.toNat ≤ count
  unrecognized : ∀ t ∈ tokens, t.token.isUnrecognized → ∀ u ∈ tokens, u.line ≤ t.line

section Lines

variable {before more : List Char} {ps : List Placed}

theorem lineOf_le_append (hShort : Text.newlines (before ++ more) < UInt32.size - 1) :
    lineOf before ≤ lineOf (before ++ more) := by
  rw [UInt32.le_iff_toNat_le, toNat_lineOf (newlines_lt_of_append hShort), toNat_lineOf hShort,
    lineAt, lineAt, Text.newlines_append]
  omega

theorem line_between (hShort : Text.newlines (before ++ printed ps) < UInt32.size - 1) :
    ∀ t ∈ located before ps, lineOf before ≤ t.line ∧ t.line ≤ lineOf (before ++ printed ps) := by
  induction ps generalizing before with
  | nil => exact List.forall_mem_nil _
  | cons p ps ih =>
    rw [printed_cons, ← List.append_assoc, ← List.append_assoc] at hShort ⊢
    have hToken := newlines_lt_of_append hShort
    have hFirst : lineOf before ≤ lineOf (before ++ p.gap) :=
      lineOf_le_append (newlines_lt_of_append hToken)
    have hNext : lineOf (before ++ p.gap) ≤ lineOf (before ++ p.gap ++ p.token.text) :=
      lineOf_le_append hToken
    refine List.forall_mem_cons.2 ⟨⟨hFirst, ?_⟩, fun t ht => ?_⟩
    · exact UInt32.le_trans hNext (lineOf_le_append hShort)
    · obtain ⟨hLow, hHigh⟩ := ih hShort t ht
      exact ⟨UInt32.le_trans hFirst (UInt32.le_trans hNext hLow), hHigh⟩

theorem pairwise_located (hShort : Text.newlines (before ++ printed ps) < UInt32.size - 1) :
    (located before ps).Pairwise fun t u => t.line ≤ u.line := by
  induction ps generalizing before with
  | nil => exact List.Pairwise.nil
  | cons p ps ih =>
    rw [printed_cons, ← List.append_assoc, ← List.append_assoc] at hShort
    refine List.pairwise_cons.2 ⟨fun u hu => ?_, ih hShort⟩
    exact UInt32.le_trans (lineOf_le_append (newlines_lt_of_append hShort))
      (line_between hShort u hu).1

variable {line : UInt32} {left : List Char} {t : Located}

theorem line_of_mem_ending (hMem : t ∈ ending line left) : t.line = line := by
  rcases mem_ending_iff.1 hMem with rfl | ⟨-, rfl⟩
  · rfl
  · rfl

theorem pairwise_ending (line : UInt32) (left : List Char) :
    (ending line left).Pairwise fun t u => t.line ≤ u.line := by
  unfold ending
  split <;> simp

/-- An ending on the line where the tokens in front of it have come to. -/
theorem inLines_append_ending {body : TokenStream} {count : Nat}
    (hOrdered : body.Pairwise fun t u => t.line ≤ u.line)
    (hBody : ∀ t ∈ body, 1 ≤ t.line ∧ t.line ≤ line ∧ ¬ t.token.isUnrecognized)
    (hFirst : 1 ≤ line) (hLast : line.toNat ≤ count) (left : List Char) :
    TokenStream.InLines (body ++ ending line left) count := by
  have hAll : ∀ t ∈ body ++ ending line left, 1 ≤ t.line ∧ t.line ≤ line := by
    refine List.forall_mem_append.2 ⟨fun t ht => ⟨(hBody t ht).1, (hBody t ht).2.1⟩, ?_⟩
    intro t ht
    rw [line_of_mem_ending ht]
    exact ⟨hFirst, UInt32.le_refl _⟩
  refine ⟨?_, fun t ht => ?_, fun t ht hUnrecognized u hu => ?_⟩
  · refine List.pairwise_append.2 ⟨hOrdered, pairwise_ending line left, fun t ht u hu => ?_⟩
    rw [line_of_mem_ending hu]
    exact (hBody t ht).2.1
  · obtain ⟨hLow, hHigh⟩ := hAll t ht
    exact ⟨hLow, Nat.le_trans (UInt32.le_iff_toNat_le.1 hHigh) hLast⟩
  · rcases List.mem_append.1 ht with hInBody | hInEnding
    · exact absurd hUnrecognized (hBody t hInBody).2.2
    · rw [line_of_mem_ending hInEnding]
      exact (hAll u hu).2

end Lines

theorem inLines_ofText (ks : KeywordSet) {source : String}
    (hShort : Text.newlines source.toList < UInt32.size - 1) :
    (TokenStream.ofText ks source).InLines (1 + Text.newlines source.toList) := by
  let ps := (place ks [] (pieces source.toList).1).1
  let scanned := (pieces source.toList).1.flatMap Piece.text
  have hPlaced : printed ps ++ (place ks [] (pieces source.toList).1).2 = scanned :=
    printed_place ks [] _
  have hText : scanned ++ (pieces source.toList).2 = source.toList := texts_append_pieces _
  have hScanned : Text.newlines scanned < UInt32.size - 1 :=
    newlines_lt_of_append (hText.symm ▸ hShort)
  have hPrinted : Text.newlines ([] ++ printed ps) < UInt32.size - 1 :=
    newlines_lt_of_append (hPlaced.symm ▸ hScanned)
  have hFirst : lineOf [] ≤ lineOf ([] ++ scanned) := lineOf_le_append hScanned
  have hLast : (lineOf scanned).toNat ≤ 1 + Text.newlines source.toList := by
    rw [toNat_lineOf hScanned, lineAt, ← hText, Text.newlines_append]
    omega
  rw [ofText_eq]
  refine inLines_append_ending (pairwise_located hPrinted) (fun t ht => ?_) hFirst hLast _
  obtain ⟨hLow, hHigh⟩ := line_between hPrinted t ht
  have hReached : lineOf (printed ps) ≤ lineOf scanned := by
    rw [← hPlaced]
    exact lineOf_le_append (hPlaced.symm ▸ hScanned)
  have hLegal : ∀ p ∈ ps, p.token.Legal ks :=
    legal_place ks [] fun q hq => Piece.legal_of_mem_pieces hq
  exact ⟨hLow, UInt32.le_trans hHigh hReached, (legal_of_mem_located hLegal ht).not_isUnrecognized⟩

/-! ## Reports in the order of the tokens -/

namespace Reader

/-- The diagnostics so far are in the order of their lines, as are the tokens that are left, and no
diagnostic is behind such a token. -/
structure Chronological (r : Reading) : Prop where
  left : r.rest ≠ []
  rest : r.rest.Pairwise fun t u => t.line ≤ u.line
  diagnostics : r.diagnostics.toList.Pairwise fun d e => d.line ≤ e.line
  reached : ∀ d ∈ r.diagnostics.toList, ∀ t ∈ r.rest, d.line ≤ t.line

/-- The current token is the first of those that are left. -/
theorem Chronological.current_le {r : Reading} (h : Chronological r) :
    ∀ t ∈ r.rest, r.current.line ≤ t.line := by
  have hOrdered := h.rest
  cases hRest : r.rest with
  | nil => exact absurd hRest h.left
  | cons t more =>
    rw [hRest] at hOrdered
    simp only [Reading.current, hRest, List.headD_cons]
    exact List.forall_mem_cons.2 ⟨UInt32.le_refl _, (List.pairwise_cons.1 hOrdered).1⟩

theorem reporting_chronological : Reporting Chronological where
  advance r h := by
    have hMoves : Moves r r.advance := .single (.advance r)
    have hSuffix := hMoves.rest_suffix
    refine ⟨hMoves.rest_ne_nil h.left, h.rest.sublist hSuffix.sublist, ?_, ?_⟩
    · rw [r.diagnostics_advance]
      exact h.diagnostics
    · rw [r.diagnostics_advance]
      exact fun d hd t ht => h.reached d hd t (hSuffix.subset ht)
  miss r expected _ h := by
    refine ⟨h.left, h.rest, ?_, ?_⟩
    all_goals rw [r.diagnostics_miss]
    · refine List.pairwise_append.2 ⟨h.diagnostics, List.pairwise_singleton _ _, ?_⟩
      intro d hd e he
      rw [List.mem_singleton.1 he]
      exact h.reached d hd _ (Reading.current_mem h.left)
    · exact List.forall_mem_append.2 ⟨h.reached, List.forall_mem_singleton.2 h.current_le⟩
  of_eq r r' h hRest hDiagnostics := by
    refine ⟨hRest ▸ h.left, hRest ▸ h.rest, hDiagnostics ▸ h.diagnostics, ?_⟩
    rw [hRest, hDiagnostics]
    exact h.reached

end Reader

/-! ## Unrecognized text is missed -/

namespace Grammar

variable {ts : List Token} {text : String}

theorem unrecognized_ne_of_name? {t : Token} {name : String} (hName : t.name? = some name) :
    .unrecognized text ≠ t :=
  (Token.ne_of_name? hName rfl).symm

theorem Attribute.not_mem {a : String × String} (h : Attribute ts a) :
    .unrecognized text ∉ ts := by
  obtain ⟨hName, hValue⟩ := h
  simp [unrecognized_ne_of_name? hName, unrecognized_ne_of_name? hValue]

theorem MoreAttributes.not_mem {as : Attributes} (h : MoreAttributes ts as) :
    .unrecognized text ∉ ts := by
  induction h with
  | none => exact List.not_mem_nil
  | comma hAttribute _ ih => simp [hAttribute.not_mem, ih]

theorem AttributeList.not_mem {as : Attributes} (h : AttributeList ts as) :
    .unrecognized text ∉ ts := by
  cases h with
  | none => exact List.not_mem_nil
  | some hAttribute hLater => simp [hAttribute.not_mem, hLater.not_mem]

theorem OptionalAttributes.not_mem {as : Attributes} (h : OptionalAttributes ts as) :
    .unrecognized text ∉ ts := by
  cases h with
  | absent => exact List.not_mem_nil
  | bracketed hList => simp [hList.not_mem]

theorem IsStatement.not_mem {s : Statement} (h : IsStatement ts s) : .unrecognized text ∉ ts := by
  cases h with
  | directive => simp
  | vertex _ hName hAttributes => simp [unrecognized_ne_of_name? hName, hAttributes.not_mem]
  | edge _ hSrc hDst hAttributes =>
    simp [unrecognized_ne_of_name? hSrc, unrecognized_ne_of_name? hDst, hAttributes.not_mem]

theorem IsStatements.not_mem {ss : List Statement} (h : IsStatements ts ss) :
    .unrecognized text ∉ ts := by
  induction h with
  | nil => exact List.not_mem_nil
  | cons hFirst _ ih => simp [hFirst.not_mem, ih]

/-- No document has a token for unrecognized text. -/
theorem IsDocument.not_mem {name : String} {ss : List Statement} (h : IsDocument ts name ss) :
    .unrecognized text ∉ ts := by
  obtain ⟨hName, hStatements⟩ := h
  simp [unrecognized_ne_of_name? hName, hStatements.not_mem]

end Grammar

/-! ## The diagnostics of a text -/

namespace Document

open Reader

/-- The diagnostics for tokens of a text with `count` lines: those for unrecognized text, and those
of the reading. -/
structure InOrder (tokens : TokenStream) (count : Nat) (lex parse : List Diagnostic) : Prop where
  /-- Where all text is recognized, all diagnostics are those of the reading. -/
  recognized : (∀ t ∈ tokens, ¬ t.token.isUnrecognized) → lex = []
  /-- Unrecognized text is reported once, and the reading misses something there at the latest. -/
  unrecognized : ∀ t ∈ tokens, t.token.isUnrecognized →
    (∃ message, lex = [⟨.lex, t.line, message⟩]) ∧ parse ≠ [] ∧ ∀ d ∈ parse, d.line ≤ t.line
  located : ∀ d ∈ parse, d.stage = .parse ∧ ∃ t ∈ tokens, d.line = t.line
  bounds : ∀ d ∈ lex ++ parse, 1 ≤ d.line ∧ d.line.toNat ≤ count
  ordered : parse.Pairwise fun d e => d.line ≤ e.line

variable {ks : KeywordSet} {mode : Mode} {source : String} {t : Located}

theorem lexDiagnostic?_eq_none (h : ¬ t.token.isUnrecognized) : lexDiagnostic? t = none := by
  unfold lexDiagnostic?
  split
  next text hToken => exact absurd (Token.isUnrecognized_iff.2 ⟨text, hToken⟩) h
  next => rfl

theorem lexDiagnostics_of_recognized {tokens : TokenStream}
    (h : ∀ t ∈ tokens, ¬ t.token.isUnrecognized) : tokens.filterMap lexDiagnostic? = [] :=
  List.filterMap_eq_nil_iff.2 fun t ht => lexDiagnostic?_eq_none (h t ht)

theorem lexDiagnostics_of_unrecognized (hMem : t ∈ TokenStream.ofText ks source)
    (hUnrecognized : t.token.isUnrecognized) :
    ∃ message, (TokenStream.ofText ks source).filterMap lexDiagnostic? =
      [⟨.lex, t.line, message⟩] := by
  obtain ⟨body, line, hStream, hLegal⟩ := exists_ofText_eq_ending ks source
  have hBody : ∀ u ∈ body, ¬ u.token.isUnrecognized :=
    fun u hu => (hLegal u hu).not_isUnrecognized
  rw [hStream] at hMem ⊢
  rw [List.filterMap_append, lexDiagnostics_of_recognized hBody, List.nil_append]
  have hEnding : t ∈ ending line (pieces source.toList).2 :=
    (List.mem_append.1 hMem).resolve_left fun hu => hBody t hu hUnrecognized
  rcases mem_ending_iff.1 hEnding with rfl | ⟨hLeft, rfl⟩
  · cases hUnrecognized
  · rw [ending_of_ne_nil hLeft]
    exact ⟨_, rfl⟩

/-- The reading does not get over unrecognized text in silence. -/
theorem diagnostics_ne_nil_of_unrecognized (hMem : t ∈ TokenStream.ofText ks source)
    (hUnrecognized : t.token.isUnrecognized) :
    (ofTokens mode (TokenStream.ofText ks source)).diagnostics ≠ [] := by
  intro hSilent
  obtain ⟨name, ss, hDocument⟩ := exists_isDocument_of_read hSilent
  obtain ⟨text, hToken⟩ := Token.isUnrecognized_iff.1 hUnrecognized
  exact hDocument.not_mem (List.mem_map.2 ⟨t, hMem, hToken⟩)

theorem pairwise_ofTokens {tokens : TokenStream} (hSome : tokens ≠ [])
    (hOrdered : tokens.Pairwise fun t u => t.line ≤ u.line) :
    (ofTokens mode tokens).diagnostics.Pairwise fun d e => d.line ≤ e.line := by
  have hStart : Chronological { mode := mode, rest := tokens } :=
    ⟨hSome, hOrdered, List.Pairwise.nil, List.forall_mem_nil _⟩
  obtain ⟨stopped, hDocument⟩ := ofTokens_eq_final mode tokens
  rw [hDocument]
  exact (reporting_final reporting_chronological hStart).diagnostics

/-- The diagnostics of a text are on the lines of its tokens and in their order, except that the one
for unrecognized text comes first. -/
theorem diagnostics_in_order (options : Options) {source : String}
    (hShort : Text.newlines source.toList < UInt32.size - 1) :
    ∃ lex parse, (ofText options source).diagnostics = lex ++ parse ∧
      InOrder (TokenStream.ofText options.keywords source) (1 + Text.newlines source.toList)
        lex parse := by
  have hLines := inLines_ofText options.keywords hShort
  have hSome := TokenStream.ofText_ne_nil options.keywords source
  have hReports : ∀ d ∈ (ofTokens options.mode (TokenStream.ofText options.keywords
      source)).diagnostics, d.stage = .parse ∧
        ∃ t ∈ TokenStream.ofText options.keywords source, d.line = t.line := by
    intro d hd
    obtain ⟨t, ht, hReport⟩ := reports_ofTokens options.mode hSome d hd
    exact ⟨hReport.stage, t, ht, hReport.line⟩
  refine ⟨(TokenStream.ofText options.keywords source).filterMap lexDiagnostic?,
    (ofTokens options.mode (TokenStream.ofText options.keywords source)).diagnostics, rfl, ?_⟩
  refine ⟨lexDiagnostics_of_recognized, fun t ht hUnrecognized => ⟨?_, ?_, fun d hd => ?_⟩,
    hReports, ?_, pairwise_ofTokens hSome hLines.ordered⟩
  · exact lexDiagnostics_of_unrecognized ht hUnrecognized
  · exact diagnostics_ne_nil_of_unrecognized ht hUnrecognized
  · obtain ⟨-, u, hu, hLine⟩ := hReports d hd
    rw [hLine]
    exact hLines.unrecognized t ht hUnrecognized u hu
  · refine List.forall_mem_append.2 ⟨fun d hd => ?_, fun d hd => ?_⟩
    · obtain ⟨t, ht, hLex⟩ := List.mem_filterMap.1 hd
      obtain ⟨text, -, rfl⟩ := lexDiagnostic?_eq_some_iff.1 hLex
      exact hLines.bounds t ht
    · obtain ⟨-, t, ht, hLine⟩ := hReports d hd
      rw [hLine]
      exact hLines.bounds t ht

/-- Statements that are not ended, on lines of their own, a string over two lines, and a character
that no rule knows. -/
def unendedText : String := "digraph G \x7b\n a b\n -> \"\n\" ?; \x7d"

theorem inOrder_unendedText :
    Text.newlines unendedText.toList < UInt32.size - 1 ∧
      ∃ lex parse, (ofText {} unendedText).diagnostics = lex ++ parse ∧
        InOrder (TokenStream.ofText .extended unendedText) (1 + Text.newlines unendedText.toList)
          lex parse :=
  ⟨by decide, diagnostics_in_order {} (by decide)⟩

example : (ofText {} unendedText).diagnostics.map (·.line) = [4, 2, 3, 4, 4] := by decide +kernel

end Document

end GraphMarkup.Dot
