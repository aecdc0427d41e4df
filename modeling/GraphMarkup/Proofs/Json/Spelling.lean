import GraphMarkup.Json.Lexeme
import GraphMarkup.Json.Printer
import Mathlib.Data.List.Basic

/-!
# Lexemes of written text

What is written as JSON is read as the lexemes it was written from, whatever blanks stand between
them (`lexemes?_of_laid`). A lexeme is told by its text alone, except for a number: its digits have
to be followed by something that cannot belong to a number (`EndsNumber`), such as the comma or the
bracket behind a value.

A string is read part by part. Each character of a text is written as one part, which stands for
that character alone: only control characters are written by their numbers, and these are no halves
of surrogate pairs (`stringParts?_escapedChar`).
-/

namespace GraphMarkup.Json

/-! ## Numbers -/

/-- Whether a character can stand in a number, behind its first digit. -/
def continuesNumber (c : Char) : Bool := c.isDigit || c == '.' || c == 'e' || c == 'E'

/-- A text at which a number in front of it ends. -/
def EndsNumber (rest : List Char) : Prop :=
  ∀ c, rest.head? = some c → continuesNumber c = false

theorem endsNumber_nil : EndsNumber [] := fun c hc => by cases hc

theorem endsNumber_cons {c : Char} {rest : List Char} (hc : continuesNumber c = false) :
    EndsNumber (c :: rest) := by
  intro d hd
  cases hd
  exact hc

theorem decimal_toDigits (n : Nat) : decimal (Nat.toDigits 10 n) = n :=
  Nat.ofDigitChars_toDigits (by decide) (by decide)

theorem exists_digit_toDigits (n : Nat) :
    ∃ d ds, Nat.toDigits 10 n = d :: ds ∧ d.isDigit = true := by
  cases hDigits : Nat.toDigits 10 n with
  | nil => exact absurd hDigits Nat.toDigits_ne_nil
  | cons d ds =>
    have hMem : d ∈ Nat.toDigits 10 n := hDigits ▸ List.mem_cons_self
    exact ⟨d, ds, rfl, Nat.isDigit_of_mem_toDigits (by decide) (by decide) hMem⟩

/-- Only nought itself is written with a leading nought. -/
theorem head?_toDigits_ne {n : Nat} (hn : n ≠ 0) : (Nat.toDigits 10 n).head? ≠ some '0' := by
  induction n using Nat.strongRecOn with
  | ind n ih =>
    rw [Nat.toDigits_eq_if (by decide)]
    split
    next hSmall =>
      have hTable : ∀ d < 10, d ≠ 0 → ¬ some (Nat.digitChar d) = some '0' := by decide
      exact hTable n hSmall hn
    next hLarge =>
      have hFront := ih (n / 10) (by omega) (by omega)
      cases hDigits : Nat.toDigits 10 (n / 10) with
      | nil => exact absurd hDigits Nat.toDigits_ne_nil
      | cons d ds =>
        rw [hDigits] at hFront
        exact hFront

section Numbers

variable {rest : List Char} (hEnd : EndsNumber rest)

include hEnd

theorem digits?_append {ds : List Char} (hDigits : ∀ c ∈ ds, c.isDigit = true) (hSome : ds ≠ []) :
    digits? (ds ++ rest) = some (ds, rest) := by
  have hStop : rest.takeWhile Char.isDigit = [] ∧ rest.dropWhile Char.isDigit = rest := by
    cases rest with
    | nil => exact ⟨rfl, rfl⟩
    | cons c more =>
      have hc := hEnd c rfl
      simp only [continuesNumber, Bool.or_eq_false_iff] at hc
      simp [hc.1.1.1]
  unfold digits?
  simp only [List.takeWhile_append_of_pos hDigits, List.dropWhile_append_of_pos hDigits, hStop.1,
    hStop.2, List.append_nil]
  rw [if_neg (by simpa using hSome)]

theorem skipFraction?_of_endsNumber : skipFraction? rest = some (false, rest) := by
  unfold skipFraction?
  split
  · exact absurd (hEnd '.' rfl) (by decide)
  · rfl

theorem skipExponent?_of_endsNumber : skipExponent? rest = some (false, rest) := by
  unfold skipExponent?
  split
  · exact absurd (hEnd 'e' rfl) (by decide)
  · exact absurd (hEnd 'E' rfl) (by decide)
  · rfl

theorem wholePart?_toDigits (n : Nat) :
    wholePart? (Nat.toDigits 10 n ++ rest) = some (Nat.toDigits 10 n, rest) := by
  have hDigits : digits? (Nat.toDigits 10 n ++ rest) = some (Nat.toDigits 10 n, rest) :=
    digits?_append hEnd (fun _ hc => Nat.isDigit_of_mem_toDigits (by decide) (by decide) hc)
      Nat.toDigits_ne_nil
  by_cases hn : n = 0
  · rw [hn]
    rfl
  · rw [wholePart?, hDigits]
    intro more hEq
    have hHead := congrArg List.head? hEq
    rw [List.head?_append_of_ne_nil _ Nat.toDigits_ne_nil] at hHead
    exact head?_toDigits_ne hn hHead

theorem magnitude?_toDigits (n : Nat) :
    magnitude? (Nat.toDigits 10 n ++ rest) = some (some n, rest) := by
  unfold magnitude?
  simp only [wholePart?_toDigits hEnd, Option.bind_eq_bind, Option.bind_some,
    skipFraction?_of_endsNumber hEnd, skipExponent?_of_endsNumber hEnd, decimal_toDigits]
  rfl

end Numbers

/-! ## Strings -/

theorem hexFour?_control : ∀ n < 0x20,
    hexFour? '0' '0' (Nat.digitChar (n / 16)) (Nat.digitChar (n % 16)) = some n := by
  decide

/-- A character is written by a letter, by its number, or as it is. -/
theorem escapedChar_cases (c : Char) :
    (∃ e, escapedBy? e = some c ∧ escapedChar c = ['\\', e]) ∨
      (c.toNat < 0x20 ∧ escapedChar c =
        ['\\', 'u', '0', '0', Nat.digitChar (c.toNat / 16), Nat.digitChar (c.toNat % 16)]) ∨
      escapedChar c = [c] ∧ c ≠ '"' ∧ c ≠ '\\' ∧ ¬ c.toNat < 0x20 := by
  unfold escapedChar
  split_ifs with hQuote hBackslash hBackspace hFeed hNewline hReturn hTab hControl
  · exact Or.inl ⟨'"', by rw [hQuote]; rfl, rfl⟩
  · exact Or.inl ⟨'\\', by rw [hBackslash]; rfl, rfl⟩
  · exact Or.inl ⟨'b', by rw [hBackspace]; rfl, rfl⟩
  · exact Or.inl ⟨'f', by rw [hFeed]; rfl, rfl⟩
  · exact Or.inl ⟨'n', by rw [hNewline]; rfl, rfl⟩
  · exact Or.inl ⟨'r', by rw [hReturn]; rfl, rfl⟩
  · exact Or.inl ⟨'t', by rw [hTab]; rfl, rfl⟩
  · exact Or.inr (Or.inl ⟨hControl, rfl⟩)
  · exact Or.inr (Or.inr ⟨rfl, hQuote, hBackslash, hControl⟩)

theorem stringParts?_letter {c e : Char} (hLetter : escapedBy? e = some c) (rest : List Char) :
    stringParts? ('\\' :: e :: rest) =
      (stringParts? rest).map fun (parts, after) => (.char c :: parts, after) := by
  have hNot : e ≠ 'u' := by
    rintro rfl
    cases hLetter
  rw [stringParts?, hLetter]
  · cases stringParts? rest <;> rfl
  · intro _ _ _ _ _ hEq
    exact absurd hEq hNot

theorem stringParts?_plain {c : Char} (hQuote : c ≠ '"') (hBackslash : c ≠ '\\')
    (hControl : ¬ c.toNat < 0x20) (rest : List Char) :
    stringParts? (c :: rest) =
      (stringParts? rest).map fun (parts, after) => (.char c :: parts, after) := by
  rw [stringParts?, if_neg (by simp [hBackslash, hControl])]
  · cases stringParts? rest <;> rfl
  all_goals grind

/-- A character is read as one part, and joined to the rest as itself. -/
theorem stringParts?_escapedChar (c : Char) : ∃ part,
    (∀ rest, stringParts? (escapedChar c ++ rest) =
        (stringParts? rest).map fun (parts, after) => (part :: parts, after)) ∧
      ∀ parts, joinParts? (part :: parts) = (joinParts? parts).map (c :: ·) := by
  rcases escapedChar_cases c with ⟨e, hLetter, hc⟩ | ⟨hControl, hc⟩ |
    ⟨hc, hQuote, hBackslash, hControl⟩
  · refine ⟨.char c, fun rest => ?_, fun _ => rfl⟩
    rw [hc]
    exact stringParts?_letter hLetter rest
  · refine ⟨.unit c.toNat, fun rest => ?_, fun parts => ?_⟩
    · rw [hc]
      simp only [List.cons_append, List.nil_append]
      rw [stringParts?, hexFour?_control _ hControl]
      cases stringParts? rest <;> rfl
    · have hHigh : isHighHalf c.toNat = false := by
        simp only [isHighHalf, Bool.and_eq_false_imp, decide_eq_true_eq, decide_eq_false_iff_not]
        omega
      have hLow : isLowHalf c.toNat = false := by
        simp only [isLowHalf, Bool.and_eq_false_imp, decide_eq_true_eq, decide_eq_false_iff_not]
        omega
      rw [joinParts?.eq_def]
      simp only [hHigh, hLow, Char.ofNat_toNat]
      rfl
  · refine ⟨.char c, fun rest => ?_, fun _ => rfl⟩
    rw [hc]
    exact stringParts?_plain hQuote hBackslash hControl rest

/-- What a text is written as in a string is read as the text, up to the quote that ends it. -/
theorem stringParts?_flatMap (cs rest : List Char) : ∃ parts,
    stringParts? (cs.flatMap escapedChar ++ '"' :: rest) = some (parts, rest) ∧
      joinParts? parts = some cs := by
  induction cs with
  | nil => exact ⟨[], by simp [stringParts?], rfl⟩
  | cons c cs ih =>
    obtain ⟨parts, hParts, hJoin⟩ := ih
    obtain ⟨part, hPart, hJoinPart⟩ := stringParts?_escapedChar c
    refine ⟨part :: parts, ?_, ?_⟩
    · rw [List.flatMap_cons, List.append_assoc, hPart, hParts]
      rfl
    · rw [hJoinPart, hJoin]
      rfl

/-! ## Lexemes -/

def Bracket.left : Bracket → Char
  | .square => '['
  | .curly => '\x7b'

def Bracket.right : Bracket → Char
  | .square => ']'
  | .curly => '\x7d'

/-- The lexemes of a single character. -/
def marks : List (Lexeme × Char) :=
  [(.opening .square, Bracket.square.left), (.closing .square, Bracket.square.right),
    (.opening .curly, Bracket.curly.left), (.closing .curly, Bracket.curly.right), (.comma, ','),
    (.colon, ':')]

theorem mem_marks_opening (b : Bracket) : (.opening b, b.left) ∈ marks := by
  cases b <;> decide

theorem mem_marks_closing (b : Bracket) : (.closing b, b.right) ∈ marks := by
  cases b <;> decide

/-- How a lexeme is written. -/
inductive Lexeme.Spelled : Lexeme → List Char → Prop
  | mark {l : Lexeme} {c : Char} (hMark : (l, c) ∈ marks) : Spelled l [c]
  | null : Spelled .null ['n', 'u', 'l', 'l']
  | string (s : String) : Spelled (.string (some s)) (stringText s).toList
  | number (n : Nat) : Spelled (.number (some n)) (Nat.toDigits 10 n)

theorem leadingLexeme?_digits {cs : List Char} {c : Char} (hc : cs.head? = some c)
    (hDigit : c.isDigit = true) :
    leadingLexeme? cs = (magnitude? cs).map fun (n, after) => (.number n, after) := by
  unfold leadingLexeme?
  split
  case h_1 => cases hc
  case h_13 => rfl
  all_goals
    cases hc
    exact absurd hDigit (by decide)

/-- A lexeme in front of a text is read from what it is written as. -/
theorem leadingLexeme?_append {l : Lexeme} {text rest : List Char} (hText : l.Spelled text)
    (hEnd : ∀ n, l = .number n → EndsNumber rest) :
    leadingLexeme? (text ++ rest) = some (l, rest) := by
  cases hText with
  | mark hMark =>
    have hTable : ∀ p ∈ marks, leadingLexeme? (p.2 :: rest) = some (p.1, rest) := by
      simp [marks, Bracket.left, Bracket.right, leadingLexeme?]
    exact hTable _ hMark
  | null => rfl
  | string s =>
    obtain ⟨parts, hParts, hJoin⟩ := stringParts?_flatMap s.toList rest
    have hText : (stringText s).toList ++ rest =
        '"' :: (s.toList.flatMap escapedChar ++ '"' :: rest) := by
      simp [stringText]
    rw [hText, leadingLexeme?, hParts]
    simp [hJoin]
  | number n =>
    obtain ⟨d, ds, hDigits, hDigit⟩ := exists_digit_toDigits n
    have hHead : (Nat.toDigits 10 n ++ rest).head? = some d := by
      rw [hDigits]
      rfl
    rw [leadingLexeme?_digits hHead hDigit, magnitude?_toDigits (hEnd _ rfl)]
    rfl

/-! ## Texts -/

/-- A text that consists of some lexemes and of blanks between them. -/
inductive Laid : List Lexeme → List Char → Prop
  | done : Laid [] []
  | blank {ls : List Lexeme} {c : Char} {cs : List Char} (hBlank : isJsonBlank c = true)
    (hRest : Laid ls cs) : Laid ls (c :: cs)
  | lexeme {l : Lexeme} {ls : List Lexeme} {text cs : List Char} (hText : l.Spelled text)
    (hEnd : ∀ n, l = .number n → EndsNumber cs) (hRest : Laid ls cs) : Laid (l :: ls) (text ++ cs)

theorem lexemes?_eq (cs : List Char) : lexemes? cs =
    match cs.dropWhile isJsonBlank with
    | [] => some []
    | c :: rest =>
      (leadingLexeme? (c :: rest)).bind fun (l, after) => (lexemes? after).map (l :: ·) := by
  rw [lexemes?]
  split
  · next hRest => simp only [hRest]
  · next hRest =>
    simp only [hRest]
    split
    · next hNone => rw [hNone]; rfl
    · next hLexeme => rw [hLexeme]; rfl

theorem lexemes?_blank {c : Char} (hBlank : isJsonBlank c = true) (cs : List Char) :
    lexemes? (c :: cs) = lexemes? cs := by
  rw [lexemes?_eq, lexemes?_eq cs, List.dropWhile_cons_of_pos hBlank]

/-- No lexeme is written with a blank at its beginning. -/
theorem Lexeme.Spelled.exists_cons {l : Lexeme} {text : List Char} (h : l.Spelled text) :
    ∃ c more, text = c :: more ∧ isJsonBlank c = false := by
  cases h with
  | mark hMark =>
    have hTable : ∀ p ∈ marks, isJsonBlank p.2 = false := by decide
    exact ⟨_, [], rfl, hTable _ hMark⟩
  | null => exact ⟨'n', _, rfl, by decide⟩
  | string s => exact ⟨'"', _, by rw [stringText, String.toList_ofList]; rfl, by decide⟩
  | number n =>
    obtain ⟨d, ds, hDigits, hDigit⟩ := exists_digit_toDigits n
    refine ⟨d, ds, hDigits, ?_⟩
    by_contra hBlank
    simp only [isJsonBlank, Bool.not_eq_false, Bool.or_eq_true, beq_iff_eq] at hBlank
    rcases hBlank with ((rfl | rfl) | rfl) | rfl
    all_goals exact absurd hDigit (by decide)

/-- A text is read as the lexemes it consists of. -/
theorem lexemes?_of_laid {ls : List Lexeme} {cs : List Char} (h : Laid ls cs) :
    lexemes? cs = some ls := by
  induction h with
  | done => rw [lexemes?_eq]; rfl
  | blank hBlank hRest ih => rw [lexemes?_blank hBlank, ih]
  | @lexeme l ls text cs hText hEnd hRest ih =>
    have hLead := leadingLexeme?_append hText hEnd
    obtain ⟨c, more, rfl, hBlank⟩ := hText.exists_cons
    rw [List.cons_append] at hLead ⊢
    rw [lexemes?_eq, List.dropWhile_cons_of_neg (by simp [hBlank])]
    simp only [hLead, Option.bind_some, ih, Option.map_some]

end GraphMarkup.Json
