import GraphMarkup.Dot.Token
import GraphMarkup.Text.Blank

/-!
# Pieces of a source text

A source text is cut into words, strings, marks, blanks and comments, as far as these rules
carry. Which words are reserved is not asked here, so the pieces of a text are the same in every
run.

* `Piece.text_append_of_scan?`: a piece and what follows it make up the text it was cut from.
* `texts_append_pieces`: nothing is lost between the pieces, and what no rule covers is left over.
-/

namespace GraphMarkup.Dot

/-- A word starts with an ASCII letter or a low line. -/
def isWordStart (c : Char) : Bool := c.isAlpha || c == '_'

/-- A word goes on with ASCII letters, digits and low lines. -/
def isWordPart (c : Char) : Bool := c.isAlphanum || c == '_'

/-- A stretch of text that one rule covers. -/
inductive Piece where
  | word (text : List Char)
  | string (body : List Char)
  | mark (m : Mark)
  | blank (c : Char)
  | comment (body : List Char)
deriving DecidableEq, Repr

/-- The text of a piece, with the quotes of a string and the delimiters of a comment. -/
def Piece.text : Piece → List Char
  | .word text => text
  | .string body => '"' :: body ++ ['"']
  | .mark m => m.text.toList
  | .blank c => [c]
  | .comment body => '/' :: '*' :: body ++ ['*', '/']

/-- What stands before the next double quote, and what stands after it. -/
def untilQuote? : List Char → Option (List Char × List Char)
  | [] => none
  | '"' :: rest => some ([], rest)
  | c :: rest => (untilQuote? rest).map fun (body, after) => (c :: body, after)

/-- What stands before the next end of a comment, and what stands after it. -/
def untilCommentEnd? : List Char → Option (List Char × List Char)
  | [] => none
  | '*' :: '/' :: rest => some ([], rest)
  | c :: rest => (untilCommentEnd? rest).map fun (body, after) => (c :: body, after)

/-- The piece that a text starts with, and what follows it; none if no rule applies. A string
without a closing quote and a comment without an end are no pieces. -/
def scan? : List Char → Option (Piece × List Char)
  | [] => none
  | '-' :: '>' :: rest => some (.mark .arrow, rest)
  | '/' :: '*' :: rest => (untilCommentEnd? rest).map fun (body, after) => (.comment body, after)
  | '"' :: rest => (untilQuote? rest).map fun (body, after) => (.string body, after)
  | c :: rest =>
    if isWordStart c then
      some (.word (c :: rest.takeWhile isWordPart), rest.dropWhile isWordPart)
    else if Text.isBlank c then
      some (.blank c, rest)
    else
      (Mark.ofChar? c).map fun m => (.mark m, rest)

theorem append_of_untilQuote? {cs body after : List Char}
    (h : untilQuote? cs = some (body, after)) : body ++ '"' :: after = cs := by
  fun_induction untilQuote? cs generalizing body after with
  | case1 => simp at h
  | case2 rest => simp_all
  | case3 c rest _ ih =>
    obtain ⟨⟨b, a⟩, hRest, hEq⟩ := Option.map_eq_some_iff.1 h
    obtain ⟨rfl, rfl⟩ := Prod.mk.inj hEq
    rw [List.cons_append, ih hRest]

theorem append_of_untilCommentEnd? {cs body after : List Char}
    (h : untilCommentEnd? cs = some (body, after)) : body ++ '*' :: '/' :: after = cs := by
  fun_induction untilCommentEnd? cs generalizing body after with
  | case1 => simp at h
  | case2 rest => simp_all
  | case3 c rest _ ih =>
    obtain ⟨⟨b, a⟩, hRest, hEq⟩ := Option.map_eq_some_iff.1 h
    obtain ⟨rfl, rfl⟩ := Prod.mk.inj hEq
    rw [List.cons_append, ih hRest]

theorem Mark.text_of_ofChar? {c : Char} {m : Mark} (h : Mark.ofChar? c = some m) :
    m.text.toList = [c] := by
  unfold Mark.ofChar? at h
  split at h <;> cases h <;> rfl

/-- A piece is followed by the rest of the text that it was cut from. -/
theorem Piece.text_append_of_scan? {cs rest : List Char} {p : Piece}
    (h : scan? cs = some (p, rest)) : p.text ++ rest = cs := by
  unfold scan? at h
  split at h
  · cases h
  · cases h
    rfl
  · obtain ⟨⟨body, after⟩, hEnd, hEq⟩ := Option.map_eq_some_iff.1 h
    obtain ⟨rfl, rfl⟩ := Prod.mk.inj hEq
    simpa [Piece.text] using append_of_untilCommentEnd? hEnd
  · obtain ⟨⟨body, after⟩, hEnd, hEq⟩ := Option.map_eq_some_iff.1 h
    obtain ⟨rfl, rfl⟩ := Prod.mk.inj hEq
    simpa [Piece.text] using append_of_untilQuote? hEnd
  · split at h
    · cases h
      simp [Piece.text]
    · split at h
      · cases h
        rfl
      · obtain ⟨m, hMark, hEq⟩ := Option.map_eq_some_iff.1 h
        obtain ⟨rfl, rfl⟩ := Prod.mk.inj hEq
        simp [Piece.text, Mark.text_of_ofChar? hMark]

/-- No rule accepts an empty piece. -/
theorem Piece.text_ne_nil_of_scan? {cs rest : List Char} {p : Piece}
    (h : scan? cs = some (p, rest)) : p.text ≠ [] := by
  unfold scan? at h
  split at h
  · cases h
  · cases h
    decide
  · obtain ⟨_, _, hEq⟩ := Option.map_eq_some_iff.1 h
    obtain ⟨rfl, rfl⟩ := Prod.mk.inj hEq
    simp [Piece.text]
  · obtain ⟨_, _, hEq⟩ := Option.map_eq_some_iff.1 h
    obtain ⟨rfl, rfl⟩ := Prod.mk.inj hEq
    simp [Piece.text]
  · split at h
    · cases h
      simp [Piece.text]
    · split at h
      · cases h
        simp [Piece.text]
      · obtain ⟨m, hMark, hEq⟩ := Option.map_eq_some_iff.1 h
        obtain ⟨rfl, rfl⟩ := Prod.mk.inj hEq
        simp [Piece.text, Mark.text_of_ofChar? hMark]

/-- Every piece shortens the text. -/
theorem length_lt_of_scan? {cs rest : List Char} {p : Piece}
    (h : scan? cs = some (p, rest)) : rest.length < cs.length := by
  have hLength := congrArg List.length (Piece.text_append_of_scan? h)
  have hPos := List.length_pos_iff.2 (Piece.text_ne_nil_of_scan? h)
  rw [List.length_append] at hLength
  omega

/-- The pieces of a text from its start, and what is left where no rule applies. -/
def pieces (cs : List Char) : List Piece × List Char :=
  match hScan : scan? cs with
  | none => ([], cs)
  | some (p, rest) =>
    have : rest.length < cs.length := length_lt_of_scan? hScan
    let later := pieces rest
    (p :: later.1, later.2)
termination_by cs.length

theorem pieces_of_none {cs : List Char} (h : scan? cs = none) : pieces cs = ([], cs) := by
  rw [pieces]
  split
  · rfl
  next h' => rw [h] at h'; cases h'

theorem pieces_of_some {cs rest : List Char} {p : Piece} (h : scan? cs = some (p, rest)) :
    pieces cs = (p :: (pieces rest).1, (pieces rest).2) := by
  rw [pieces]
  split
  next h' => rw [h] at h'; cases h'
  next h' =>
    rw [h] at h'
    cases h'
    rfl

/-- The pieces and what is left make up the text. -/
theorem texts_append_pieces (cs : List Char) :
    (pieces cs).1.flatMap Piece.text ++ (pieces cs).2 = cs := by
  fun_induction pieces cs with
  | case1 cs _ => simp
  | case2 cs p rest hScan _ _ ih =>
    rw [List.flatMap_cons, List.append_assoc, ih, Piece.text_append_of_scan? hScan]

end GraphMarkup.Dot
