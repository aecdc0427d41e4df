import GraphMarkup.Proofs.Dot.Layout
import Mathlib.Data.List.Chain

/-!
# Printed tokens are read back

`Printable` says which tokens and gaps may stand next to each other: every token is legal, every gap
is made of blanks and comments, and there is something between two words. The text of such a list
is read back as its tokens, on the lines that they were printed on (`ofText_printed`).

The lemmas speak of a text with whatever follows it. A gap is passed over whatever follows
(`layout_gap_append`), and a token is read whatever follows (`layout_token_append`), except that a
word must not go on. It does not go on into a gap that is not empty, nor into a token that is
no word, since these start with a blank character or with a delimiter.
-/

namespace GraphMarkup.Dot

/-- Names and reserved words. -/
def Token.isWord : Token → Bool
  | .ident _ | .keyword _ => true
  | _ => false

/-- There is a gap between two words. -/
def Placed.Apart (p q : Placed) : Prop := p.token.isWord → q.token.isWord → q.gap ≠ []

/-- Placed tokens and a last gap that can be told from their text. -/
structure Printable (ks : KeywordSet) (ps : List Placed) (last : List Char) : Prop where
  tokens : ∀ p ∈ ps, p.token.Legal ks
  gaps : ∀ p ∈ ps, IsGap p.gap
  lastGap : IsGap last
  apart : ps.IsChain Placed.Apart

/-! ## The piece of a token -/

theorem isWord_word (k : Keyword) : IsWord k.word.toList := by
  cases k <;> exact isWord_of_all rfl rfl

/-- Every legal token stands in a text as a legal piece. -/
theorem exists_piece_of_legal {ks : KeywordSet} {t : Token} (h : t.Legal ks) :
    ∃ q : Piece, q.Legal ∧ q.token? ks = some t ∧ q.isWord = t.isWord := by
  cases t with
  | ident text =>
    obtain ⟨hWord, hFree⟩ := h
    refine ⟨.word text.toList, hWord, ?_, rfl⟩
    have hNone : ks.lookup (String.ofList text.toList) = none := by
      refine Option.eq_none_iff_forall_ne_some.2 fun k hLookup => ?_
      rw [String.ofList_toList] at hLookup
      obtain ⟨hSame, hReserved⟩ := KeywordSet.lookup_eq_some.1 hLookup
      exact hFree k hReserved hSame
    rw [Piece.token?_word_of_none hNone, String.ofList_toList]
  | str text =>
    refine ⟨.string text.toList, h, ?_, rfl⟩
    rw [Piece.token?, String.ofList_toList]
  | keyword k =>
    refine ⟨.word k.word.toList, isWord_word k, Piece.token?_word_of_some ?_, rfl⟩
    rw [String.ofList_toList]
    exact KeywordSet.lookup_eq_some.2 ⟨rfl, h⟩
  | mark m => exact ⟨.mark m, trivial, rfl, rfl⟩
  | unrecognized | eof => exact h.elim

/-! ## Where a word ends -/

section NoWordPart

variable {gap rest : List Char}

theorem Token.Legal.noWordPart {ks : KeywordSet} {t : Token} (h : t.Legal ks)
    (hWord : ¬ t.isWord) (rest : List Char) : Piece.NoWordPart (t.text ++ rest) := by
  obtain ⟨q, hLegal, hToken, hSame⟩ := exists_piece_of_legal h
  rw [Piece.text_of_token? hToken]
  exact Piece.noWordPart_text_append hLegal (by simpa [hSame] using hWord) rest

/-- A word does not go on into a gap, unless the gap is empty. -/
theorem IsGap.noWordPart (h : IsGap gap) (hEmpty : gap = [] → Piece.NoWordPart rest) :
    Piece.NoWordPart (gap ++ rest) := by
  cases h with
  | nil => exact hEmpty rfl
  | @blank c _ hBlank _ =>
    exact Piece.noWordPart_text_append (p := .blank c) hBlank rfl _
  | @comment body cs hBody _ =>
    rw [List.append_assoc]
    exact Piece.noWordPart_text_append (p := .comment body) hBody rfl _

/-- A word that may be printed ends where the text after it starts. -/
theorem Printable.noWordPart {ks : KeywordSet} {p : Placed} {ps : List Placed} {last : List Char}
    (h : Printable ks (p :: ps) last) (hWord : p.token.isWord) :
    Piece.NoWordPart (printed ps ++ last) := by
  cases ps with
  | nil =>
    have hEnd : Piece.NoWordPart [] := fun c hHead => by cases hHead
    have hLast := h.lastGap.noWordPart fun _ => hEnd
    rwa [List.append_nil] at hLast
  | cons q qs =>
    have hNext : q ∈ p :: q :: qs := by simp
    have hApart : p.Apart q := (List.isChain_cons_cons.1 h.apart).1
    rw [printed_cons, List.append_assoc, List.append_assoc]
    refine (h.gaps q hNext).noWordPart fun hEmpty => ?_
    exact (h.tokens q hNext).noWordPart (fun hOther => hApart hWord hOther hEmpty) _

end NoWordPart

/-! ## The layout of a text -/

/-- The placed tokens, the last gap and what is left over of a text in front of which `gap`
stands. -/
def layout (ks : KeywordSet) (gap cs : List Char) : (List Placed × List Char) × List Char :=
  (place ks gap (pieces cs).1, (pieces cs).2)

section Layout

variable {ks : KeywordSet} {gap rest : List Char}

theorem layout_nil (ks : KeywordSet) (gap : List Char) : layout ks gap [] = (([], gap), []) := by
  have hPieces : pieces [] = ([], []) := pieces_of_none rfl
  rw [layout, hPieces, place]

theorem layout_piece_append {q : Piece} (hLegal : q.Legal)
    (hNext : q.isWord → Piece.NoWordPart rest) (ks : KeywordSet) (gap : List Char) :
    layout ks gap (q.text ++ rest) = (place ks gap (q :: (pieces rest).1), (pieces rest).2) := by
  rw [layout, Piece.pieces_text_append hLegal hNext]

theorem layout_skip {q : Piece} (hLegal : q.Legal) (hWord : q.isWord = false)
    (hToken : q.token? ks = none) (gap rest : List Char) :
    layout ks gap (q.text ++ rest) = layout ks (gap ++ q.text) rest := by
  rw [layout_piece_append hLegal (by simp [hWord]), place_of_none hToken]
  rfl

theorem layout_gap_append (hGap : IsGap gap) (ks : KeywordSet) (before rest : List Char) :
    layout ks before (gap ++ rest) = layout ks (before ++ gap) rest := by
  induction hGap generalizing before with
  | nil => rw [List.append_nil, List.nil_append]
  | @blank c cs hBlank _ ih =>
    have hLegal : (Piece.blank c).Legal := hBlank
    have hToken : (Piece.blank c).token? ks = none := rfl
    have hFirst := layout_skip hLegal rfl hToken before (cs ++ rest)
    have hLater := ih (before ++ [c])
    rw [List.append_assoc] at hLater
    exact hFirst.trans hLater
  | @comment body cs hBody _ ih =>
    have hLegal : (Piece.comment body).Legal := hBody
    have hToken : (Piece.comment body).token? ks = none := rfl
    have hFirst := layout_skip hLegal rfl hToken before (cs ++ rest)
    have hLater := ih (before ++ (Piece.comment body).text)
    rw [List.append_assoc] at hLater
    rw [List.append_assoc]
    exact hFirst.trans hLater

theorem layout_token_append {t : Token} (hLegal : t.Legal ks)
    (hNext : t.isWord → Piece.NoWordPart rest) (gap : List Char) :
    layout ks gap (t.text ++ rest) =
      ((⟨gap, t⟩ :: (layout ks [] rest).1.1, (layout ks [] rest).1.2), (layout ks [] rest).2) := by
  obtain ⟨q, hPiece, hToken, hSame⟩ := exists_piece_of_legal hLegal
  rw [Piece.text_of_token? hToken, layout_piece_append hPiece (hSame ▸ hNext),
    place_of_some hToken]
  rfl

theorem Printable.tail {p : Placed} {ps : List Placed} {last : List Char}
    (h : Printable ks (p :: ps) last) : Printable ks ps last where
  tokens q hq := h.tokens q (List.mem_cons_of_mem _ hq)
  gaps q hq := h.gaps q (List.mem_cons_of_mem _ hq)
  lastGap := h.lastGap
  apart := h.apart.tail

/-- What was printed is found again, and nothing is left over. -/
theorem layout_printed {ps : List Placed} {last : List Char} (h : Printable ks ps last) :
    layout ks [] (printed ps ++ last) = ((ps, last), []) := by
  induction ps with
  | nil =>
    have hGap := layout_gap_append h.lastGap ks [] []
    rw [List.append_nil, List.nil_append, layout_nil] at hGap
    exact hGap
  | cons p ps ih =>
    have hLegal : p.token.Legal ks := h.tokens p List.mem_cons_self
    have hGap : IsGap p.gap := h.gaps p List.mem_cons_self
    rw [printed_cons, List.append_assoc, List.append_assoc, layout_gap_append hGap,
      layout_token_append hLegal h.noWordPart, ih h.tail]
    rfl

end Layout

/-! ## Reading what was printed -/

/-- Printed tokens are read back as they were, each on the line that it was printed on. -/
theorem ofText_printed {ks : KeywordSet} {ps : List Placed} {last : List Char}
    (h : Printable ks ps last) (hShort : Text.newlines (printed ps ++ last) < UInt32.size - 1) :
    (TokenStream.ofText ks (String.ofList (printed ps ++ last))).map Located.numbered =
      numbered [] ps ++ [(.eof, lineAt (printed ps ++ last))] := by
  have hLayout := layout_printed h
  obtain ⟨hPlace, hLeft⟩ := Prod.mk.inj hLayout
  have hText := texts_append_pieces (printed ps ++ last)
  rw [hLeft, List.append_nil] at hText
  have hPrinted : Text.newlines ([] ++ printed ps) < UInt32.size - 1 :=
    newlines_lt_of_append hShort
  rw [ofText_eq, String.toList_ofList, hPlace, hLeft, hText, List.map_append,
    map_numbered_located hPrinted, ← toNat_lineOf hShort]
  rfl

/-- Two words with only a comment between them, whose body ends with a star, and a string over two
lines that opens a comment. -/
def glued : List Placed :=
  [⟨[], .keyword .digraph⟩, ⟨"/*\n**/".toList, .ident "rankdir"⟩, ⟨[], .mark .arrow⟩,
    ⟨[], .str "/*\n"⟩, ⟨['\n'], .mark .semicolon⟩]

theorem printable_glued : Printable .minimal glued [' '] where
  tokens := by
    have hWord : IsWord "rankdir".toList := isWord_of_all rfl rfl
    have hFree : ∀ k, KeywordSet.minimal.contains k → "rankdir" ≠ k.word := by
      intro k
      cases k <;> decide
    have hString : '"' ∉ "/*\n".toList := by decide
    simp only [glued, List.forall_mem_cons]
    exact ⟨rfl, ⟨hWord, hFree⟩, trivial, hString, trivial, by simp⟩
  gaps := by
    have hBody : ¬ commentEnd <:+: ['\n', '*'] := by decide
    have hComment : IsGap "/*\n**/".toList := .comment hBody .nil
    have hBlank : IsGap ['\n'] := .blank (by decide) .nil
    simp only [glued, List.forall_mem_cons]
    exact ⟨.nil, hComment, .nil, .nil, hBlank, by simp⟩
  lastGap := .blank (by decide) .nil
  apart := by simp [glued, Placed.Apart, Token.isWord]

theorem ofText_printed_glued :
    Printable .minimal glued [' '] ∧ Text.newlines (printed glued ++ [' ']) < UInt32.size - 1 ∧
      (TokenStream.ofText .minimal (String.ofList (printed glued ++ [' ']))).map Located.numbered =
        [(.keyword .digraph, 1), (.ident "rankdir", 2), (.mark .arrow, 2), (.str "/*\n", 2),
          (.mark .semicolon, 4), (.eof, 4)] :=
  have hShort : Text.newlines (printed glued ++ [' ']) < UInt32.size - 1 := by decide
  ⟨printable_glued, hShort, (ofText_printed printable_glued hShort).trans (by decide)⟩

end GraphMarkup.Dot
