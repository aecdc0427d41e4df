import GraphMarkup.Dot.Piece
import Mathlib.Data.List.Infix

/-!
# What a piece is

`Piece.Legal` says of a piece what its rule allows it to be: a word is spelled like a name, a string
holds no quote, a comment does not hold the end of a comment. A scan gives nothing else
(`Piece.legal_of_scan?`), and it gives every such piece back from its text, whatever text follows
(`scan?_text_append`). Only a word looks at what follows: it must not go on there.

No rule takes from another because they differ in their first character: `-`, `/` and the quote
start no word and are not blank, and neither is a blank character part of a word.
-/

namespace GraphMarkup.Dot

/-! ## Characters -/

theorem ascending_blankRanges : Text.blankRanges.Ascending := by
  unfold Text.CharRanges.Ascending
  decide

theorem isBlank_iff {c : Char} :
    Text.isBlank c ↔ ∃ r ∈ Text.blankRanges, r.1 ≤ c.toNat ∧ c.toNat ≤ r.2 :=
  Text.CharRanges.contains_iff ascending_blankRanges (by decide) c

theorem toNat_of_isWordPart {c : Char} (h : isWordPart c) :
    (48 ≤ c.toNat ∧ c.toNat ≤ 57) ∨ (65 ≤ c.toNat ∧ c.toNat ≤ 90) ∨ c.toNat = 95 ∨
      (97 ≤ c.toNat ∧ c.toNat ≤ 122) := by
  have hKinds : (c.isUpper ∨ c.isLower) ∨ c.isDigit ∨ c = '_' := by
    rcases Bool.or_eq_true_iff.1 h with hAlphanum | hLow
    · rcases Bool.or_eq_true_iff.1 hAlphanum with hAlpha | hDigit
      · exact Or.inl (Bool.or_eq_true_iff.1 hAlpha)
      · exact Or.inr (Or.inl hDigit)
    · exact Or.inr (Or.inr (beq_iff_eq.1 hLow))
  rcases hKinds with (hUpper | hLower) | hDigit | rfl
  · exact Or.inr (Or.inl (of_decide_eq_true hUpper))
  · have hRange := (Bool.and_eq_true_iff.1 hLower).imp of_decide_eq_true of_decide_eq_true
    exact Or.inr (Or.inr (Or.inr hRange))
  · have hRange := (Bool.and_eq_true_iff.1 hDigit).imp of_decide_eq_true of_decide_eq_true
    exact Or.inl hRange
  · exact Or.inr (Or.inr (Or.inl rfl))

theorem isWordPart_of_isWordStart {c : Char} (h : isWordStart c) : isWordPart c := by
  simp only [isWordStart, isWordPart, Bool.or_eq_true] at h ⊢
  exact h.imp_left fun hAlpha => Bool.or_eq_true_iff.2 (Or.inl hAlpha)

theorem not_isWordPart_of_isBlank {c : Char} (h : Text.isBlank c) : ¬ isWordPart c := by
  intro hPart
  obtain ⟨r, hMem, hLo, hHi⟩ := isBlank_iff.1 h
  have hWord := toNat_of_isWordPart hPart
  have hOutside : ∀ r ∈ Text.blankRanges, r.2 < 48 ∨ 122 < r.1 := by decide
  have hApart := hOutside r hMem
  omega

/-- A character that opens none of the pieces with a delimiter. -/
def IsOrdinary (c : Char) : Prop := c ≠ '-' ∧ c ≠ '/' ∧ c ≠ '"'

theorem isOrdinary_of_isWordPart {c : Char} (h : isWordPart c) : IsOrdinary c := by
  refine ⟨?_, ?_, ?_⟩
  all_goals
    rintro rfl
    exact absurd h (by decide)

theorem isOrdinary_of_isBlank {c : Char} (h : Text.isBlank c) : IsOrdinary c := by
  refine ⟨?_, ?_, ?_⟩
  all_goals
    rintro rfl
    exact absurd h (by decide)

theorem scan?_of_isOrdinary {c : Char} (h : IsOrdinary c) (rest : List Char) :
    scan? (c :: rest) =
      if isWordStart c then
        some (.word (c :: rest.takeWhile isWordPart), rest.dropWhile isWordPart)
      else if Text.isBlank c then some (.blank c, rest)
      else (Mark.ofChar? c).map fun m => (.mark m, rest) := by
  obtain ⟨hMinus, hSlash, hQuote⟩ := h
  unfold scan?
  split
  · next hNil => cases hNil
  · next hArrow => cases hArrow; exact absurd rfl hMinus
  · next hComment => cases hComment; exact absurd rfl hSlash
  · next hString => cases hString; exact absurd rfl hQuote
  · next hCons => cases hCons; rfl

/-! ## Legal pieces -/

/-- The spelling of a name: a letter or a low line, and then letters, digits and low lines. -/
def IsWord (cs : List Char) : Prop :=
  ∃ c rest, cs = c :: rest ∧ isWordStart c ∧ ∀ d ∈ rest, isWordPart d

theorem isWord_of_all {c : Char} {rest : List Char} (hStart : isWordStart c)
    (hRest : rest.all isWordPart) : IsWord (c :: rest) :=
  ⟨c, rest, rfl, hStart, List.all_eq_true.1 hRest⟩

/-- The text that ends a comment. -/
def commentEnd : List Char := ['*', '/']

namespace Piece

/-- What the rule of a piece allows. -/
def Legal : Piece → Prop
  | .word text => IsWord text
  | .string body => '"' ∉ body
  | .mark _ => True
  | .blank c => Text.isBlank c
  | .comment body => ¬ commentEnd <:+: body

def isWord : Piece → Bool
  | .word _ => true
  | _ => false

end Piece

theorem quote_not_mem_of_untilQuote? {cs body after : List Char}
    (h : untilQuote? cs = some (body, after)) : '"' ∉ body := by
  fun_induction untilQuote? cs generalizing body after with
  | case1 => cases h
  | case2 rest =>
    cases h
    exact List.not_mem_nil
  | case3 c rest hQuote ih =>
    obtain ⟨⟨b, a⟩, hRest, hEq⟩ := Option.map_eq_some_iff.1 h
    obtain ⟨rfl, rfl⟩ := Prod.mk.inj hEq
    rw [List.mem_cons, not_or]
    exact ⟨fun hc => hQuote hc.symm, ih hRest⟩

theorem untilQuote?_append {body : List Char} (h : '"' ∉ body) (rest : List Char) :
    untilQuote? (body ++ '"' :: rest) = some (body, rest) := by
  induction body with
  | nil => rfl
  | cons c body ih =>
    rw [List.mem_cons, not_or] at h
    rw [List.cons_append, untilQuote?, ih h.2]
    · rfl
    · exact fun hc => h.1 hc.symm

theorem commentEnd_not_infix_of_untilCommentEnd? {cs body after : List Char}
    (h : untilCommentEnd? cs = some (body, after)) : ¬ commentEnd <:+: body := by
  fun_induction untilCommentEnd? cs generalizing body after with
  | case1 => cases h
  | case2 rest =>
    cases h
    decide
  | case3 c rest hEnd ih =>
    obtain ⟨⟨b, a⟩, hRest, hEq⟩ := Option.map_eq_some_iff.1 h
    obtain ⟨rfl, rfl⟩ := Prod.mk.inj hEq
    rw [List.infix_cons_iff, not_or]
    refine ⟨?_, ih hRest⟩
    rintro ⟨later, hLater⟩
    obtain ⟨rfl, hSlash⟩ := List.cons.inj hLater
    refine hEnd (later ++ '*' :: '/' :: a) rfl ?_
    rw [← append_of_untilCommentEnd? hRest, ← hSlash]
    rfl

/-- A comment ends at the first text that can end it, which starts with the star of its own end even
where its body ends with a star. -/
theorem untilCommentEnd?_append {body : List Char} (h : ¬ commentEnd <:+: body)
    (rest : List Char) : untilCommentEnd? (body ++ '*' :: '/' :: rest) = some (body, rest) := by
  induction body with
  | nil => rfl
  | cons c body ih =>
    rw [List.infix_cons_iff, not_or] at h
    rw [List.cons_append, untilCommentEnd?, ih h.2]
    · rfl
    · rintro later rfl hLater
      cases body with
      | nil => cases hLater
      | cons d body =>
        cases hLater
        exact h.1 ⟨body, rfl⟩

namespace Piece

variable {p : Piece} {cs rest : List Char}

/-- A scan gives legal pieces. -/
theorem legal_of_scan? (h : scan? cs = some (p, rest)) : p.Legal := by
  unfold scan? at h
  split at h
  · cases h
  · cases h
    trivial
  · obtain ⟨⟨body, after⟩, hEnd, hEq⟩ := Option.map_eq_some_iff.1 h
    obtain ⟨rfl, rfl⟩ := Prod.mk.inj hEq
    exact commentEnd_not_infix_of_untilCommentEnd? hEnd
  · obtain ⟨⟨body, after⟩, hEnd, hEq⟩ := Option.map_eq_some_iff.1 h
    obtain ⟨rfl, rfl⟩ := Prod.mk.inj hEq
    exact quote_not_mem_of_untilQuote? hEnd
  · split at h
    next hStart =>
      cases h
      exact isWord_of_all hStart List.all_takeWhile
    · split at h
      next hBlank =>
        cases h
        exact hBlank
      · obtain ⟨m, -, hEq⟩ := Option.map_eq_some_iff.1 h
        obtain ⟨rfl, rfl⟩ := Prod.mk.inj hEq
        trivial

theorem legal_of_mem_pieces (h : p ∈ (pieces cs).1) : p.Legal := by
  fun_induction pieces cs with
  | case1 => cases h
  | case2 cs first rest hScan _ _ ih =>
    rcases List.mem_cons.1 h with rfl | hLater
    · exact legal_of_scan? hScan
    · exact ih hLater

/-- A text that no word can go on with. -/
def NoWordPart (cs : List Char) : Prop := ∀ c ∈ cs.head?, ¬ isWordPart c

section Span

variable {inside : Char → Bool} {body : List Char}

/-- Characters of one class, in front of one that is not of it. -/
theorem takeWhile_append (hBody : ∀ d ∈ body, inside d) (hNext : ∀ c ∈ rest.head?, ¬ inside c) :
    (body ++ rest).takeWhile inside = body := by
  rw [List.takeWhile_append_of_pos hBody]
  cases rest with
  | nil => simp
  | cons c rest => simp [hNext c rfl]

theorem dropWhile_append (hBody : ∀ d ∈ body, inside d) (hNext : ∀ c ∈ rest.head?, ¬ inside c) :
    (body ++ rest).dropWhile inside = rest := by
  rw [List.dropWhile_append_of_pos hBody]
  cases rest with
  | nil => rfl
  | cons c rest => simp [hNext c rfl]

end Span

theorem isWordPart_of_legal_word {word : List Char} (h : (Piece.word word).Legal) :
    ∀ d ∈ word, isWordPart d := by
  obtain ⟨c, body, rfl, hStart, hBody⟩ := h
  exact List.forall_mem_cons.2 ⟨isWordPart_of_isWordStart hStart, hBody⟩

/-- A word is scanned with all that it goes on with. -/
theorem scan?_word_append {word : List Char} (h : (Piece.word word).Legal) (rest : List Char) :
    scan? (word ++ rest) =
      some (.word ((word ++ rest).takeWhile isWordPart), rest.dropWhile isWordPart) := by
  have hParts := isWordPart_of_legal_word h
  obtain ⟨c, body, rfl, hStart, hBody⟩ := h
  have hFirst : isWordPart c := isWordPart_of_isWordStart hStart
  rw [List.cons_append, scan?_of_isOrdinary (isOrdinary_of_isWordPart hFirst), if_pos hStart,
    List.takeWhile_cons_of_pos hFirst, List.dropWhile_append_of_pos hBody]

/-- A legal piece is scanned from its text, whatever follows, if a word does not go on there. -/
theorem scan?_text_append (h : p.Legal) (hNext : p.isWord → NoWordPart rest) :
    scan? (p.text ++ rest) = some (p, rest) := by
  cases p with
  | word word =>
    have hRest := hNext rfl
    have hDropped := dropWhile_append (List.forall_mem_nil _) hRest
    rw [List.nil_append] at hDropped
    rw [text, scan?_word_append h, takeWhile_append (isWordPart_of_legal_word h) hRest, hDropped]
  | string body =>
    have hText : (Piece.string body).text ++ rest = '"' :: (body ++ '"' :: rest) := by
      simp [text]
    rw [hText, scan?, untilQuote?_append h]
    rfl
  | mark m => cases m <;> rfl
  | blank c =>
    have hStart : ¬ isWordStart c := fun hStart =>
      not_isWordPart_of_isBlank h (isWordPart_of_isWordStart hStart)
    rw [text, List.singleton_append, scan?_of_isOrdinary (isOrdinary_of_isBlank h), if_neg hStart]
    exact if_pos h
  | comment body =>
    have hText : (Piece.comment body).text ++ rest =
        '/' :: '*' :: (body ++ '*' :: '/' :: rest) := by
      simp [text]
    rw [hText, scan?, untilCommentEnd?_append h]
    rfl

/-- Behind a word that is scanned no word goes on. -/
theorem noWordPart_of_scan? (h : scan? cs = some (p, rest)) (hWord : p.isWord) :
    NoWordPart rest := by
  cases p with
  | word word =>
    have hLegal : (Piece.word word).Legal := legal_of_scan? h
    have hText : word ++ rest = cs := text_append_of_scan? h
    rw [← hText, scan?_word_append hLegal] at h
    obtain ⟨-, hRest⟩ := Prod.mk.inj (Option.some.inj h)
    intro d hd hPart
    have hStopped := List.head?_dropWhile_not isWordPart rest
    rw [hRest, hd] at hStopped
    simp [hPart] at hStopped
  | string | mark | blank | comment => cases hWord

/-- Where a piece that is no word stands, a word in front of it does not go on. -/
theorem noWordPart_text_append (h : p.Legal) (hWord : p.isWord = false) (rest : List Char) :
    NoWordPart (p.text ++ rest) := by
  intro c hHead
  cases p with
  | word => cases hWord
  | string | comment =>
    cases hHead
    decide
  | mark m =>
    cases m <;> cases hHead <;> decide
  | blank b =>
    cases hHead
    exact not_isWordPart_of_isBlank h

/-- The pieces of a text that starts with a legal piece. -/
theorem pieces_text_append (h : p.Legal) (hNext : p.isWord → NoWordPart rest) :
    pieces (p.text ++ rest) = (p :: (pieces rest).1, (pieces rest).2) :=
  pieces_of_some (scan?_text_append h hNext)

end Piece

end GraphMarkup.Dot
