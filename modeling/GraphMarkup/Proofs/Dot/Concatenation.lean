import GraphMarkup.Proofs.Dot.Chronology

/-!
# One text after another

A text that is recognized to its end stops where its last piece does. No rule looks back, and of
those that look ahead only the one for words has no delimiter of its own to stop at. So behind such
a text another one is cut as it is by itself, unless a word goes on across the seam
(`pieces_append`). Whether the second text is recognized to its end does not matter.

Its tokens are those it has by itself, further down by the newlines of the first text. The line
counter does not tell where it started, so this holds of the lines as they are counted, in
thirty-two bits (`ofText_append`). Where the lines can be counted at all it holds of their numbers
(`numbered_append`).
-/

namespace GraphMarkup.Dot

/-! ## Pieces -/

/-- No word goes on from the one text into the other. -/
def Apart (cs ds : List Char) : Prop :=
  ∀ c ∈ cs.getLast?, ∀ d ∈ ds.head?, ¬ (isWordPart c ∧ isWordPart d)

instance (cs ds : List Char) : Decidable (Apart cs ds) :=
  have (c : Char) : Decidable (∀ d ∈ ds.head?, ¬ (isWordPart c ∧ isWordPart d)) :=
    Option.decidableForallMem ds.head?
  Option.decidableForallMem cs.getLast?

section Pieces

variable {p : Piece} {cs ds front rest : List Char}

/-- A later part of the first text is apart from the second one, too. -/
theorem Apart.of_append (h : Apart (front ++ rest) ds) : Apart rest ds := by
  intro c hc
  refine h c ?_
  rw [List.getLast?_append, hc]
  rfl

theorem Piece.getLast?_word (h : (Piece.word cs).Legal) : ∃ c ∈ cs.getLast?, isWordPart c := by
  have hNonempty : cs ≠ [] := by
    obtain ⟨c, body, rfl, -⟩ := h
    exact List.cons_ne_nil c body
  exact ⟨cs.getLast hNonempty, List.getLast?_eq_getLast_of_ne_nil hNonempty,
    isWordPart_of_legal_word h _ (List.getLast_mem hNonempty)⟩

/-- Behind a word of the first text there is no more of it, be it followed by the rest of that text
or by the second one. -/
theorem Apart.noWordPart_append (h : Apart cs ds) (hScan : scan? cs = some (p, rest))
    (hWord : p.isWord) : Piece.NoWordPart (rest ++ ds) := by
  cases rest with
  | nil =>
    cases p with
    | word word =>
      have hText : word ++ [] = cs := Piece.text_append_of_scan? hScan
      obtain ⟨c, hc, hPart⟩ := Piece.getLast?_word (Piece.legal_of_scan? hScan)
      rw [← hText, List.append_nil] at h
      exact fun d hd hNext => h c hc d hd ⟨hPart, hNext⟩
    | string | mark | blank | comment => cases hWord
  | cons d more =>
    have hRest : Piece.NoWordPart (d :: more) := Piece.noWordPart_of_scan? hScan hWord
    exact hRest

/-- Behind a text that is in pieces another text is cut as it is by itself. -/
theorem pieces_append (hNone : (pieces cs).2 = []) (hApart : Apart cs ds) :
    pieces (cs ++ ds) = ((pieces cs).1 ++ (pieces ds).1, (pieces ds).2) := by
  fun_induction pieces cs with
  | case1 cs hScan =>
    subst hNone
    rfl
  | case2 cs p rest hScan _ later ih =>
    have hLegal : p.Legal := Piece.legal_of_scan? hScan
    have hText : p.text ++ rest = cs := Piece.text_append_of_scan? hScan
    have hNext : p.isWord → Piece.NoWordPart (rest ++ ds) := hApart.noWordPart_append hScan
    rw [← hText, List.append_assoc, Piece.pieces_text_append hLegal hNext,
      ih hNone (hText ▸ hApart).of_append]
    rfl

end Pieces

/-! ## Lines -/

/-- The token further down. -/
def Located.movedBy (lines : UInt32) (t : Located) : Located := { t with line := t.line + lines }

section Lines

variable (ks : KeywordSet)

theorem locate_append (line : UInt32) (ps qs : List Piece) :
    locate ks line (ps ++ qs) =
      ((locate ks line ps).1 ++ (locate ks (locate ks line ps).2 qs).1,
        (locate ks (locate ks line ps).2 qs).2) := by
  induction ps generalizing line with
  | nil => rfl
  | cons p ps ih =>
    rw [List.cons_append, locate, ih, locate]
    cases p.token? ks <;> rfl

/-- The counter does not tell where it started. -/
theorem locate_add (lines line : UInt32) (qs : List Piece) :
    locate ks (line + lines) qs =
      ((locate ks line qs).1.map (Located.movedBy lines), (locate ks line qs).2 + lines) := by
  induction qs generalizing line with
  | nil => rfl
  | cons q qs ih =>
    have hAfter : q.lineAfter (line + lines) = q.lineAfter line + lines := by
      rw [Piece.lineAfter, Piece.lineAfter, UInt32.add_assoc, UInt32.add_comm lines,
        ← UInt32.add_assoc]
    rw [locate, hAfter, ih, locate]
    cases q.token? ks <;> rfl

theorem ending_add (lines line : UInt32) (left : List Char) :
    ending (line + lines) left = (ending line left).map (Located.movedBy lines) := by
  unfold ending
  split <;> rfl

theorem lineOf_eq_add (cs : List Char) : lineOf cs = 1 + UInt32.ofNat (Text.newlines cs) :=
  UInt32.ofNat_add _ _

/-- Over a text that is in pieces the counter counts all its newlines. -/
theorem line_of_leftOver_eq_nil {cs : List Char} (hNone : (pieces cs).2 = []) :
    (locate ks 1 (pieces cs).1).2 = 1 + UInt32.ofNat (Text.newlines cs) := by
  have hText := texts_append_pieces cs
  rw [hNone, List.append_nil] at hText
  have hLocate := locate_eq ks [] [] (pieces cs).1
  rw [List.append_nil, List.nil_append, lineOf_nil, hText] at hLocate
  rw [hLocate, lineOf_eq_add]

end Lines

/-! ## Tokens -/

section Streams

variable {a b : String}

theorem leftOver_eq_nil_of_recognized {ks : KeywordSet}
    (hRead : ∀ t ∈ TokenStream.ofText ks a, ¬ t.token.isUnrecognized) :
    (pieces a.toList).2 = [] := by
  by_contra hLeft
  obtain ⟨t, ht, hUnrecognized⟩ := exists_isUnrecognized_iff.2 hLeft
  exact hRead t ht hUnrecognized

/-- Behind a text that is in pieces come the tokens of the other text, on the lines that the
counter has come to. -/
theorem ofText_append (ks : KeywordSet) (hNone : (pieces a.toList).2 = [])
    (hApart : Apart a.toList b.toList) :
    ∃ front line, TokenStream.ofText ks a = front ++ [⟨.eof, line⟩] ∧
      TokenStream.ofText ks (a ++ b) = front ++ (TokenStream.ofText ks b).map
        (Located.movedBy (UInt32.ofNat (Text.newlines a.toList))) := by
  refine ⟨(locate ks 1 (pieces a.toList).1).1, (locate ks 1 (pieces a.toList).1).2, ?_, ?_⟩
  · simp only [TokenStream.ofText, ending, hNone, List.isEmpty_nil, if_pos]
  · simp only [TokenStream.ofText, String.toList_append, pieces_append hNone hApart,
      locate_append, line_of_leftOver_eq_nil ks hNone, locate_add, ending_add, List.map_append,
      List.append_assoc]

theorem Located.numbered_movedBy {t : Located} {n : Nat} (h : t.line.toNat + n < UInt32.size) :
    (t.movedBy (UInt32.ofNat n)).numbered = (t.token, t.line.toNat + n) := by
  have hLine : n < UInt32.size := Nat.lt_of_le_of_lt (Nat.le_add_left n _) h
  rw [Located.numbered, Located.movedBy, UInt32.toNat_add, UInt32.toNat_ofNat_of_lt' hLine,
    Nat.mod_eq_of_lt h]

/-- Of two texts, the first of which is recognized to its end, the tokens are those of the first one
up to its end of input and then those of the second one, whatever it holds, each as many lines
further down as the first text has newlines. A word must not go on from the one text into the
other. -/
theorem numbered_append {ks : KeywordSet}
    (hRead : ∀ t ∈ TokenStream.ofText ks a, ¬ t.token.isUnrecognized)
    (hApart : Apart a.toList b.toList)
    (hShort : Text.newlines a.toList + Text.newlines b.toList < UInt32.size - 1) :
    ∃ front line, TokenStream.ofText ks a = front ++ [⟨.eof, line⟩] ∧
      (TokenStream.ofText ks (a ++ b)).map Located.numbered =
        front.map Located.numbered ++ (TokenStream.ofText ks b).map fun t =>
          (t.token, t.line.toNat + Text.newlines a.toList) := by
  obtain ⟨front, line, hFirst, hBoth⟩ :=
    ofText_append ks (leftOver_eq_nil_of_recognized hRead) hApart
  refine ⟨front, line, hFirst, ?_⟩
  rw [hBoth, List.map_append, List.map_map]
  congr 1
  refine List.map_congr_left fun t ht => Located.numbered_movedBy ?_
  have hLine := ((inLines_ofText ks (by omega)).bounds t ht).2
  omega

/-- A text with a comment over two lines, which ends with a string. -/
def upperText : String := "a -> /* \n */ b;\n\"c\""

/-- A text that starts with a string over two lines and is not recognized to its end. -/
def lowerText : String := "\"d\ne\" size\n? f\n"

theorem numbered_append_upperText :
    (∀ t ∈ TokenStream.ofText .minimal upperText, ¬ t.token.isUnrecognized) ∧
      Apart upperText.toList lowerText.toList ∧
      Text.newlines upperText.toList + Text.newlines lowerText.toList < UInt32.size - 1 ∧
      (TokenStream.ofText .minimal lowerText).map Located.numbered =
        [(.str "d\ne", 1), (.keyword .size, 2), (.unrecognized "? f\n", 3), (.eof, 3)] ∧
      ∃ front line, TokenStream.ofText .minimal upperText = front ++ [⟨.eof, line⟩] ∧
        (TokenStream.ofText .minimal (upperText ++ lowerText)).map Located.numbered =
          front.map Located.numbered ++ (TokenStream.ofText .minimal lowerText).map fun t =>
            (t.token, t.line.toNat + Text.newlines upperText.toList) :=
  have hRead : ∀ t ∈ TokenStream.ofText .minimal upperText, ¬ t.token.isUnrecognized := by
    decide +kernel
  have hApart : Apart upperText.toList lowerText.toList := by decide
  have hShort : Text.newlines upperText.toList + Text.newlines lowerText.toList <
      UInt32.size - 1 := by decide
  ⟨hRead, hApart, hShort, by decide +kernel, numbered_append hRead hApart hShort⟩

end Streams

end GraphMarkup.Dot
