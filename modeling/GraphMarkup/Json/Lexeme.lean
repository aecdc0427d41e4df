/-!
# Lexemes of JSON text

JSON text consists of brackets, commas, colons, strings, numbers and three words, with blanks
between them. `lexemes?` reads all of a text; it has no answer where the text is not made of
lexemes, such as after a string with a bare control character or a number with a dangling point.

A string may hold escapes for halves of a surrogate pair. Such a string is a lexeme, but unless
the halves match up it has no text.
-/

namespace GraphMarkup.Json

/-- The two kinds of brackets. -/
inductive Bracket where
  | square
  | curly
deriving DecidableEq, Repr, Inhabited

/-- A lexeme, with what can be asked about it. -/
inductive Lexeme where
  | opening (b : Bracket)
  | closing (b : Bracket)
  | comma
  | colon
  /-- A string, and its text if it has one. -/
  | string (text : Option String)
  /-- A number, and its value if it is written as a natural number. -/
  | number (natural : Option Nat)
  | null
  | boolean
deriving DecidableEq, Repr

/-! ## Strings -/

/-- The value of a hexadecimal digit. -/
def hexDigit? (c : Char) : Option Nat :=
  if c.isDigit then some (c.toNat - '0'.toNat)
  else if 'a' ≤ c ∧ c ≤ 'f' then some (c.toNat - 'a'.toNat + 10)
  else if 'A' ≤ c ∧ c ≤ 'F' then some (c.toNat - 'A'.toNat + 10)
  else none

/-- The number that four hexadecimal digits stand for. -/
def hexFour? (a b c d : Char) : Option Nat :=
  [a, b, c, d].foldlM (fun n digit => return 16 * n + (← hexDigit? digit)) 0

/-- The character that a backslash and a letter stand for. -/
def escapedBy? : Char → Option Char
  | '"' => some '"'
  | '\\' => some '\\'
  | '/' => some '/'
  | 'b' => some '\x08'
  | 'f' => some '\x0c'
  | 'n' => some '\n'
  | 'r' => some '\r'
  | 't' => some '\t'
  | _ => none

/-- A part of a string: a character, or a number given in hexadecimal digits. -/
inductive StringPart where
  | char (c : Char)
  | unit (n : Nat)
deriving DecidableEq, Repr

/-- The parts of a string up to its closing quote, and what follows that. -/
def stringParts? : List Char → Option (List StringPart × List Char)
  | [] => none
  | '"' :: rest => some ([], rest)
  | '\\' :: 'u' :: a :: b :: c :: d :: rest => do
    let n ← hexFour? a b c d
    let (parts, after) ← stringParts? rest
    return (.unit n :: parts, after)
  | '\\' :: e :: rest => do
    let c ← escapedBy? e
    let (parts, after) ← stringParts? rest
    return (.char c :: parts, after)
  | c :: rest =>
    if c = '\\' ∨ c.toNat < 0x20 then none
    else do
      let (parts, after) ← stringParts? rest
      return (.char c :: parts, after)

/-- Whether a number is the first half of a surrogate pair. -/
def isHighHalf (n : Nat) : Bool := 0xD800 ≤ n && n ≤ 0xDBFF

/-- Whether a number is the second half of a surrogate pair. -/
def isLowHalf (n : Nat) : Bool := 0xDC00 ≤ n && n ≤ 0xDFFF

/-- The text that the parts make up; none if half of a surrogate pair is left alone. -/
def joinParts? : List StringPart → Option (List Char)
  | [] => some []
  | .char c :: more => (joinParts? more).map (c :: ·)
  | .unit n :: more =>
    if isHighHalf n then
      match more with
      | .unit m :: rest =>
        if isLowHalf m then
          (joinParts? rest).map (Char.ofNat (0x10000 + (n - 0xD800) * 0x400 + (m - 0xDC00)) :: ·)
        else none
      | _ => none
    else if isLowHalf n then none
    else (joinParts? more).map (Char.ofNat n :: ·)

theorem length_lt_of_stringParts? {cs after : List Char} {parts : List StringPart}
    (h : stringParts? cs = some (parts, after)) : after.length < cs.length := by
  fun_induction stringParts? cs generalizing parts after with
  | case1 => simp at h
  | case2 rest =>
    cases h
    simp
  | case3 a b c d rest ih =>
    obtain ⟨n, _, h⟩ := Option.bind_eq_some_iff.1 h
    obtain ⟨⟨ps, af⟩, hRest, h⟩ := Option.bind_eq_some_iff.1 h
    cases h
    have := ih hRest
    simp only [List.length_cons]
    omega
  | case4 e rest _ ih =>
    obtain ⟨c, _, h⟩ := Option.bind_eq_some_iff.1 h
    obtain ⟨⟨ps, af⟩, hRest, h⟩ := Option.bind_eq_some_iff.1 h
    cases h
    have := ih hRest
    simp only [List.length_cons]
    omega
  | case5 => simp at h
  | case6 c rest _ _ _ _ ih =>
    obtain ⟨⟨ps, af⟩, hRest, h⟩ := Option.bind_eq_some_iff.1 h
    cases h
    have := ih hRest
    simp only [List.length_cons]
    omega

/-! ## Numbers -/

/-- The value of decimal digits. -/
def decimal (digits : List Char) : Nat :=
  digits.foldl (fun n c => 10 * n + (c.toNat - '0'.toNat)) 0

/-- At least one digit, and what follows. -/
def digits? (cs : List Char) : Option (List Char × List Char) :=
  let ds := cs.takeWhile Char.isDigit
  if ds.isEmpty then none else some (ds, cs.dropWhile Char.isDigit)

/-- The digits before the point: a nought by itself, or any that do not start with one. -/
def wholePart? : List Char → Option (List Char × List Char)
  | '0' :: rest => some (['0'], rest)
  | cs => digits? cs

/-- What follows the point and its digits; none if a point has no digits after it. The truth
value says whether there was one. -/
def skipFraction? : List Char → Option (Bool × List Char)
  | '.' :: rest => (digits? rest).map fun (_, after) => (true, after)
  | cs => some (false, cs)

/-- What follows a sign, or the same if there is none. -/
def skipSign : List Char → List Char
  | '+' :: rest => rest
  | '-' :: rest => rest
  | cs => cs

/-- What follows the exponent; none if an exponent has no digits. The truth value says whether
there was one. -/
def skipExponent? : List Char → Option (Bool × List Char)
  | 'e' :: rest => (digits? (skipSign rest)).map fun (_, after) => (true, after)
  | 'E' :: rest => (digits? (skipSign rest)).map fun (_, after) => (true, after)
  | cs => some (false, cs)

/-- A number without a sign, and what follows it. -/
def magnitude? (cs : List Char) : Option (Option Nat × List Char) := do
  let (ds, rest) ← wholePart? cs
  let (hasFraction, rest) ← skipFraction? rest
  let (hasExponent, rest) ← skipExponent? rest
  return (if hasFraction || hasExponent then none else some (decimal ds), rest)

theorem length_lt_of_digits? {cs ds rest : List Char} (h : digits? cs = some (ds, rest)) :
    rest.length < cs.length := by
  unfold digits? at h
  simp only at h
  split at h
  · cases h
  next hSome =>
    cases h
    have hPos : 0 < (cs.takeWhile Char.isDigit).length := by
      rw [List.length_pos_iff]
      simpa using hSome
    have hSplit : (cs.takeWhile Char.isDigit ++ cs.dropWhile Char.isDigit).length = cs.length :=
      congrArg List.length List.takeWhile_append_dropWhile
    rw [List.length_append] at hSplit
    omega

theorem length_lt_of_wholePart? {cs ds rest : List Char}
    (h : wholePart? cs = some (ds, rest)) : rest.length < cs.length := by
  unfold wholePart? at h
  split at h
  · cases h
    simp
  · exact length_lt_of_digits? h

theorem length_le_of_skipFraction? {cs rest : List Char} {b : Bool}
    (h : skipFraction? cs = some (b, rest)) : rest.length ≤ cs.length := by
  unfold skipFraction? at h
  split at h
  · obtain ⟨⟨ds, af⟩, hDigits, hEq⟩ := Option.map_eq_some_iff.1 h
    cases hEq
    have := length_lt_of_digits? hDigits
    simp only [List.length_cons]
    omega
  · cases h
    exact Nat.le_refl _

theorem length_skipSign_le (cs : List Char) : (skipSign cs).length ≤ cs.length := by
  unfold skipSign
  split <;> simp

theorem length_le_of_skipExponent? {cs rest : List Char} {b : Bool}
    (h : skipExponent? cs = some (b, rest)) : rest.length ≤ cs.length := by
  unfold skipExponent? at h
  split at h
  next digits =>
    obtain ⟨⟨ds, af⟩, hDigits, hEq⟩ := Option.map_eq_some_iff.1 h
    cases hEq
    have := length_lt_of_digits? hDigits
    have := length_skipSign_le digits
    simp only [List.length_cons]
    omega
  next digits =>
    obtain ⟨⟨ds, af⟩, hDigits, hEq⟩ := Option.map_eq_some_iff.1 h
    cases hEq
    have := length_lt_of_digits? hDigits
    have := length_skipSign_le digits
    simp only [List.length_cons]
    omega
  · cases h
    exact Nat.le_refl _

theorem length_lt_of_magnitude? {cs rest : List Char} {n : Option Nat}
    (h : magnitude? cs = some (n, rest)) : rest.length < cs.length := by
  obtain ⟨⟨ds, r⟩, hWhole, h⟩ := Option.bind_eq_some_iff.1 h
  obtain ⟨⟨f, r'⟩, hFraction, h⟩ := Option.bind_eq_some_iff.1 h
  obtain ⟨⟨e, r''⟩, hExponent, h⟩ := Option.bind_eq_some_iff.1 h
  cases h
  have := length_lt_of_wholePart? hWhole
  have := length_le_of_skipFraction? hFraction
  have := length_le_of_skipExponent? hExponent
  simp only at *
  omega

/-! ## Whole texts -/

/-- The four blanks of the format. -/
def isJsonBlank (c : Char) : Bool := c == ' ' || c == '\n' || c == '\t' || c == '\r'

/-- The lexeme that a text starts with, and what follows it. -/
def leadingLexeme? : List Char → Option (Lexeme × List Char)
  | [] => none
  | '[' :: rest => some (.opening .square, rest)
  | ']' :: rest => some (.closing .square, rest)
  | '\x7b' :: rest => some (.opening .curly, rest)
  | '\x7d' :: rest => some (.closing .curly, rest)
  | ',' :: rest => some (.comma, rest)
  | ':' :: rest => some (.colon, rest)
  | '"' :: rest => do
    let (parts, after) ← stringParts? rest
    return (.string ((joinParts? parts).map String.ofList), after)
  | 'n' :: 'u' :: 'l' :: 'l' :: rest => some (.null, rest)
  | 't' :: 'r' :: 'u' :: 'e' :: rest => some (.boolean, rest)
  | 'f' :: 'a' :: 'l' :: 's' :: 'e' :: rest => some (.boolean, rest)
  | '-' :: rest => (magnitude? rest).map fun (_, after) => (.number none, after)
  | cs => (magnitude? cs).map fun (n, after) => (.number n, after)

theorem length_lt_of_leadingLexeme? {cs rest : List Char} {l : Lexeme}
    (h : leadingLexeme? cs = some (l, rest)) : rest.length < cs.length := by
  unfold leadingLexeme? at h
  split at h
  case h_1 => cases h
  case h_8 =>
    obtain ⟨⟨parts, after⟩, hParts, h⟩ := Option.bind_eq_some_iff.1 h
    cases h
    have := length_lt_of_stringParts? hParts
    simp only [List.length_cons]
    omega
  case h_12 =>
    obtain ⟨⟨n, after⟩, hNumber, hEq⟩ := Option.map_eq_some_iff.1 h
    cases hEq
    have := length_lt_of_magnitude? hNumber
    simp only [List.length_cons]
    omega
  case h_13 =>
    obtain ⟨⟨n, after⟩, hNumber, hEq⟩ := Option.map_eq_some_iff.1 h
    cases hEq
    exact length_lt_of_magnitude? hNumber
  all_goals
    cases h
    simp only [List.length_cons]
    omega

/-- All lexemes of a text. -/
def lexemes? (cs : List Char) : Option (List Lexeme) :=
  match hRest : cs.dropWhile isJsonBlank with
  | [] => some []
  | c :: rest =>
    match hLexeme : leadingLexeme? (c :: rest) with
    | none => none
    | some (l, after) =>
      have : after.length < cs.length := by
        have hShort := length_lt_of_leadingLexeme? hLexeme
        have hDrop := (List.dropWhile_sublist isJsonBlank (l := cs)).length_le
        rw [hRest] at hDrop
        omega
      (lexemes? after).map (l :: ·)
termination_by cs.length

end GraphMarkup.Json
