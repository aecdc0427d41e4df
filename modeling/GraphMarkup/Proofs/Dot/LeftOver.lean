import GraphMarkup.Proofs.Dot.Layout

/-!
# What no rule covers

A text is in pieces if it can be cut into legal ones, in whatever way. The scanner knows one way to
cut a text. It takes a word as far as it goes, where another cut may end the word sooner and go on
with a second one; everything else it takes as every cut must. So no cut gets further than the
scanner, and what the scanner leaves over no cut can cover (`leftOver_of_cut`).

The induction is on the other cut. Where that cut has ended a word the scanner may have gone on with
it, so the induction carries two texts: what is still to be cut, and the same without the part of a
word at its start.

The main result is `unrecognized_after_longest`: unrecognized text is reported exactly where a text
is not in pieces, and is what follows its longest beginning that is.
-/

namespace GraphMarkup.Dot

/-- A text that can be cut into legal pieces. -/
def InPieces (cs : List Char) : Prop :=
  ∃ qs : List Piece, (∀ q ∈ qs, q.Legal) ∧ cs = qs.flatMap Piece.text

/-! ## The scanner against other cuts -/

theorem leftOver_suffix (cs : List Char) : (pieces cs).2 <:+ cs :=
  ⟨_, texts_append_pieces cs⟩

theorem scan?_leftOver (cs : List Char) : scan? (pieces cs).2 = none := by
  fun_induction pieces cs with
  | case1 cs hScan => exact hScan
  | case2 cs p rest hScan _ _ ih => exact ih

/-- What is left over does not start with a blank character. -/
theorem not_isBlank_of_leftOver {cs more : List Char} {c : Char} (h : (pieces cs).2 = c :: more) :
    ¬ Text.isBlank c := by
  intro hBlank
  have hScan : scan? (c :: more) = some (.blank c, more) :=
    Piece.scan?_text_append (p := .blank c) hBlank (by simp [Piece.isWord])
  rw [← h, scan?_leftOver] at hScan
  cases hScan

namespace Piece

theorem dropWhile_of_noWordPart {cs : List Char} (h : NoWordPart cs) :
    cs.dropWhile isWordPart = cs := by
  have hDropped := dropWhile_append (List.forall_mem_nil _) h
  rwa [List.nil_append] at hDropped

/-- The scanner takes a word with all that it can go on with. -/
theorem leftOver_word_append {word : List Char} (h : (Piece.word word).Legal)
    (rest : List Char) :
    (pieces (word ++ rest)).2 = (pieces (rest.dropWhile isWordPart)).2 := by
  rw [pieces_of_some (scan?_word_append h rest)]

/-- Whatever cut a text starts with, the scanner leaves over no more than follows the cut. -/
theorem leftOver_of_cut {qs : List Piece} (hLegal : ∀ q ∈ qs, q.Legal) (rest : List Char) :
    (pieces (qs.flatMap text ++ rest)).2 <:+ rest ∧
      (pieces ((qs.flatMap text ++ rest).dropWhile isWordPart)).2 <:+ rest := by
  induction qs with
  | nil =>
    have hDropped : rest.dropWhile isWordPart <:+ rest := List.dropWhile_suffix _
    exact ⟨leftOver_suffix rest, (leftOver_suffix _).trans hDropped⟩
  | cons q qs ih =>
    obtain ⟨hFirst, hLater⟩ := List.forall_mem_cons.1 hLegal
    obtain ⟨hRest, hDropped⟩ := ih hLater
    rw [List.flatMap_cons, List.append_assoc]
    cases hWord : q.isWord with
    | true =>
      cases q with
      | word word =>
        have hParts : ∀ c ∈ word, isWordPart c := isWordPart_of_legal_word hFirst
        -- The scanner may take more than this word, so both texts come to the second one.
        rw [text, leftOver_word_append hFirst, List.dropWhile_append_of_pos hParts]
        exact ⟨hDropped, hDropped⟩
      | string | mark | blank | comment => cases hWord
    | false =>
      have hNext : q.isWord → NoWordPart (qs.flatMap text ++ rest) := by simp [hWord]
      rw [dropWhile_of_noWordPart (noWordPart_text_append hFirst hWord _),
        pieces_text_append hFirst hNext]
      exact ⟨hRest, hRest⟩

end Piece

theorem InPieces.leftOver_append {front : List Char} (h : InPieces front) (rest : List Char) :
    (pieces (front ++ rest)).2 <:+ rest := by
  obtain ⟨qs, hLegal, rfl⟩ := h
  exact (Piece.leftOver_of_cut hLegal rest).1

/-- The pieces that the scanner finds. -/
theorem inPieces_scanned (cs : List Char) : InPieces ((pieces cs).1.flatMap Piece.text) :=
  ⟨_, fun _ hq => Piece.legal_of_mem_pieces hq, rfl⟩

theorem leftOver_eq_nil_iff {cs : List Char} : (pieces cs).2 = [] ↔ InPieces cs := by
  have hText := texts_append_pieces cs
  constructor
  · intro hNone
    rw [hNone, List.append_nil] at hText
    exact hText ▸ inPieces_scanned cs
  · intro hCut
    have hSuffix := hCut.leftOver_append []
    rw [List.append_nil] at hSuffix
    exact List.suffix_nil.1 hSuffix

/-- No beginning in pieces is longer than the one that the scanner finds. -/
theorem InPieces.prefix_scanned {front cs : List Char} (h : InPieces front)
    (hFront : front <+: cs) : front <+: (pieces cs).1.flatMap Piece.text := by
  obtain ⟨rest, rfl⟩ := hFront
  obtain ⟨more, hMore⟩ := h.leftOver_append rest
  have hText : (front ++ more) ++ (pieces (front ++ rest)).2 =
      (pieces (front ++ rest)).1.flatMap Piece.text ++ (pieces (front ++ rest)).2 := by
    rw [List.append_assoc, hMore, texts_append_pieces]
  exact ⟨more, List.append_cancel_right hText⟩

/-! ## Unrecognized text -/

theorem legal_of_mem_located {ks : KeywordSet} {before : List Char} {ps : List Placed} {t : Located}
    (hLegal : ∀ p ∈ ps, p.token.Legal ks) (hMem : t ∈ located before ps) : t.token.Legal ks := by
  induction ps generalizing before with
  | nil => cases hMem
  | cons p ps ih =>
    obtain ⟨hFirst, hLater⟩ := List.forall_mem_cons.1 hLegal
    rcases List.mem_cons.1 hMem with rfl | hRest
    · exact hFirst
    · exact ih hLater hRest

/-- A stream is made of legal tokens and its ending. -/
theorem exists_ofText_eq_ending (ks : KeywordSet) (source : String) :
    ∃ body line, TokenStream.ofText ks source = body ++ ending line (pieces source.toList).2 ∧
      ∀ t ∈ body, t.token.Legal ks := by
  refine ⟨_, _, ofText_eq ks source, fun t => legal_of_mem_located ?_⟩
  exact legal_place ks [] fun q hq => Piece.legal_of_mem_pieces hq

theorem ending_of_ne_nil {left : List Char} (h : left ≠ []) (line : UInt32) :
    ending line left = [⟨.unrecognized (String.ofList left), line⟩, ⟨.eof, line⟩] :=
  if_neg (mt List.isEmpty_iff.1 h)

theorem mem_ending_iff {line : UInt32} {left : List Char} {t : Located} :
    t ∈ ending line left ↔
      t = ⟨.eof, line⟩ ∨ left ≠ [] ∧ t = ⟨.unrecognized (String.ofList left), line⟩ := by
  by_cases hLeft : left = []
  · simp [hLeft, ending]
  · rw [ending_of_ne_nil hLeft]
    simp [hLeft, or_comm]

/-- A token for unrecognized text holds what the scanner leaves over of a text. -/
theorem mem_ofText_unrecognized {ks : KeywordSet} {source text : String} :
    (∃ t ∈ TokenStream.ofText ks source, t.token = .unrecognized text) ↔
      (pieces source.toList).2 ≠ [] ∧ text.toList = (pieces source.toList).2 := by
  obtain ⟨body, line, hStream, hLegal⟩ := exists_ofText_eq_ending ks source
  rw [hStream]
  constructor
  · rintro ⟨t, hMem, hToken⟩
    rcases List.mem_append.1 hMem with hBody | hEnding
    · have hNone := hLegal t hBody
      rw [hToken] at hNone
      exact hNone.elim
    · rcases mem_ending_iff.1 hEnding with rfl | ⟨hLeft, rfl⟩
      · cases hToken
      · cases hToken
        exact ⟨hLeft, String.toList_ofList⟩
  · rintro ⟨hLeft, hText⟩
    rw [← hText] at hLeft ⊢
    have hEnding : ⟨.unrecognized text, line⟩ ∈ ending line text.toList :=
      mem_ending_iff.2 (Or.inr ⟨hLeft, by rw [String.ofList_toList]⟩)
    exact ⟨_, List.mem_append_right body hEnding, rfl⟩

theorem Token.isUnrecognized_iff {t : Token} :
    t.isUnrecognized ↔ ∃ text, t = .unrecognized text := by
  cases t <;> simp [isUnrecognized]

theorem exists_isUnrecognized_iff {ks : KeywordSet} {source : String} :
    (∃ t ∈ TokenStream.ofText ks source, t.token.isUnrecognized) ↔
      (pieces source.toList).2 ≠ [] := by
  constructor
  · rintro ⟨t, hMem, hUnrecognized⟩
    obtain ⟨text, hToken⟩ := Token.isUnrecognized_iff.1 hUnrecognized
    exact (mem_ofText_unrecognized.1 ⟨t, hMem, hToken⟩).1
  · intro hLeft
    have hHeld : ∃ t ∈ TokenStream.ofText ks source,
        t.token = .unrecognized (String.ofList (pieces source.toList).2) :=
      mem_ofText_unrecognized.2 ⟨hLeft, String.toList_ofList⟩
    obtain ⟨t, hMem, hToken⟩ := hHeld
    exact ⟨t, hMem, Token.isUnrecognized_iff.2 ⟨_, hToken⟩⟩

/-- Unrecognized text is found exactly in a text that is not in pieces, and it is all that follows
the longest beginning that is. -/
theorem unrecognized_after_longest (ks : KeywordSet) (source : String) :
    ((∃ t ∈ TokenStream.ofText ks source, t.token.isUnrecognized) ↔ ¬ InPieces source.toList) ∧
      ∀ t ∈ TokenStream.ofText ks source, ∀ text, t.token = .unrecognized text →
        ∃ front, source.toList = front ++ text.toList ∧ InPieces front ∧
          ∀ other, other <+: source.toList → InPieces other → other <+: front := by
  constructor
  · rw [← leftOver_eq_nil_iff]
    exact exists_isUnrecognized_iff
  · intro t hMem text hToken
    obtain ⟨-, hText⟩ := mem_ofText_unrecognized.1 ⟨t, hMem, hToken⟩
    refine ⟨(pieces source.toList).1.flatMap Piece.text, ?_, inPieces_scanned _, ?_⟩
    · rw [hText, texts_append_pieces]
    · exact fun other hOther hCut => hCut.prefix_scanned hOther

end GraphMarkup.Dot
