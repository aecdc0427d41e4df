import GraphMarkup.Text.Quoted
import Mathlib.Data.List.Basic

/-!
# What quoted text tells

Quoting is undone by reading from the front. A character stands in quotes in one of three ways: by a
letter behind a backslash, by its code point behind a backslash and a `u`, or as it is, and then it
is neither a backslash nor a quote (`quotedChar_cases`). So the first two characters tell which way
it is, and the character can be told with what follows it (`quotedChar_append_inj`); the number of a
code point ends at its brace, which is no digit. A quoted text ends at the first quote that does not
belong to an escape, so it can be told with what follows it too (`quoted_append_inj`).

Nothing that is quoted holds a newline (`newline_not_mem_quoted`).
-/

namespace GraphMarkup.Text

/-! ## Digits -/

section Digits

variable {base n m : Nat}

theorem digitChar_inj (hn : n < 16) (hm : m < 16) (h : Nat.digitChar n = Nat.digitChar m) :
    n = m := by
  have hTable : ∀ a < 16, ∀ b < 16, Nat.digitChar a = Nat.digitChar b → a = b := by decide
  exact hTable n hn m hm h

theorem toDigits_inj (hBase : 1 < base) (hSmall : base ≤ 16)
    (h : Nat.toDigits base n = Nat.toDigits base m) : n = m := by
  have hStep : ∀ k, Nat.toDigits base k =
      if k < base then [Nat.digitChar k]
      else Nat.toDigits base (k / base) ++ [Nat.digitChar (k % base)] := fun _ =>
    Nat.toDigits_eq_if hBase
  have hUnit : ∀ k, k % base < 16 := fun k =>
    Nat.lt_of_lt_of_le (Nat.mod_lt k (by omega)) hSmall
  have hLong : ∀ k (c d : Char), Nat.toDigits base k ++ [c] ≠ [d] := fun k c d hEq => by
    have hLength : (Nat.toDigits base k).length = 0 := by simpa using congrArg List.length hEq
    exact Nat.toDigits_ne_nil (List.length_eq_zero_iff.1 hLength)
  induction n using Nat.strongRecOn generalizing m with
  | ind n ih =>
    rw [hStep n, hStep m] at h
    by_cases hn : n < base
    · by_cases hm : m < base
      · rw [if_pos hn, if_pos hm] at h
        exact digitChar_inj (by omega) (by omega) (List.singleton_inj.1 h)
      · rw [if_pos hn, if_neg hm] at h
        exact absurd h.symm (hLong _ _ _)
    · by_cases hm : m < base
      · rw [if_neg hn, if_pos hm] at h
        exact absurd h (hLong _ _ _)
      · rw [if_neg hn, if_neg hm] at h
        obtain ⟨hFront, hLast⟩ := List.append_inj' h rfl
        have hQuotient := ih (n / base) (Nat.div_lt_self (by omega) hBase) hFront
        have hRemainder := digitChar_inj (hUnit n) (hUnit m) (List.singleton_inj.1 hLast)
        rw [← Nat.div_add_mod n base, hQuotient, hRemainder, Nat.div_add_mod]

/-- Digits are among the first sixteen. -/
theorem exists_of_mem_toDigits (hBase : 1 < base) (hSmall : base ≤ 16) {c : Char}
    (hc : c ∈ Nat.toDigits base n) : ∃ digit < 16, c = Nat.digitChar digit := by
  induction n using Nat.strongRecOn with
  | ind n ih =>
    rw [Nat.toDigits_eq_if hBase] at hc
    split at hc
    next hn => exact ⟨n, by omega, List.mem_singleton.1 hc⟩
    next hn =>
      rcases List.mem_append.1 hc with hFront | hLast
      · exact ih (n / base) (Nat.div_lt_self (by omega) hBase) hFront
      · exact ⟨n % base, Nat.lt_of_lt_of_le (Nat.mod_lt n (by omega)) hSmall,
          List.mem_singleton.1 hLast⟩

theorem not_mem_toDigits (hBase : 1 < base) (hSmall : base ≤ 16) {c : Char}
    (hc : ∀ digit < 16, c ≠ Nat.digitChar digit) : c ∉ Nat.toDigits base n := by
  intro hMem
  obtain ⟨digit, hLt, hDigit⟩ := exists_of_mem_toDigits hBase hSmall hMem
  exact hc digit hLt hDigit

end Digits

/-- Two texts up to the first place of a character are the same if they go on the same from
there. -/
theorem append_cons_inj {α : Type} {stop : α} {as bs rest rest' : List α} (ha : stop ∉ as)
    (hb : stop ∉ bs) (h : as ++ stop :: rest = bs ++ stop :: rest') : as = bs ∧ rest = rest' := by
  induction as generalizing bs with
  | nil =>
    cases bs with
    | nil => exact ⟨rfl, (List.cons.inj h).2⟩
    | cons b bs => exact absurd (List.mem_cons_self) ((List.cons.inj h).1 ▸ hb)
  | cons a as ih =>
    cases bs with
    | nil => exact absurd (List.mem_cons_self) ((List.cons.inj h).1 ▸ ha)
    | cons b bs =>
      obtain ⟨rfl, hLater⟩ := List.cons.inj h
      obtain ⟨rfl, hRest⟩ := ih (fun hMem => ha (List.mem_cons_of_mem _ hMem))
        (fun hMem => hb (List.mem_cons_of_mem _ hMem)) hLater
      exact ⟨rfl, hRest⟩

/-! ## Characters -/

/-- The characters that stand in quotes as a letter behind a backslash, with that letter. -/
def letters : List (Char × Char) :=
  [('\x00', '0'), ('\t', 't'), ('\r', 'r'), ('\n', 'n'), ('"', '"'), ('\\', '\\')]

theorem quotedChar_cases (c : Char) :
    (∃ e, (c, e) ∈ letters ∧ quotedChar c = ['\\', e]) ∨ quotedChar c = codePointEscape c ∨
      quotedChar c = [c] ∧ c ≠ '\\' ∧ c ≠ '"' ∧ c ≠ '\n' := by
  unfold quotedChar
  split_ifs with hNul hTab hReturn hNewline hQuote hBackslash hHidden
  · exact Or.inl ⟨'0', by simp [letters, hNul], rfl⟩
  · exact Or.inl ⟨'t', by simp [letters, hTab], rfl⟩
  · exact Or.inl ⟨'r', by simp [letters, hReturn], rfl⟩
  · exact Or.inl ⟨'n', by simp [letters, hNewline], rfl⟩
  · exact Or.inl ⟨'"', by simp [letters, hQuote], rfl⟩
  · exact Or.inl ⟨'\\', by simp [letters, hBackslash], rfl⟩
  · exact Or.inr (Or.inl rfl)
  · exact Or.inr (Or.inr ⟨rfl, hBackslash, hQuote, hNewline⟩)

theorem letters_inj {c d e : Char} (hc : (c, e) ∈ letters) (hd : (d, e) ∈ letters) : c = d := by
  have hTable : ∀ p ∈ letters, ∀ q ∈ letters, p.2 = q.2 → p.1 = q.1 := by decide
  exact hTable _ hc _ hd rfl

theorem letter_ne_u {c e : Char} (hc : (c, e) ∈ letters) : e ≠ 'u' := by
  have hTable : ∀ p ∈ letters, p.2 ≠ 'u' := by decide
  exact hTable _ hc

theorem codePointEscape_append_inj {c d : Char} {rest rest' : List Char}
    (h : codePointEscape c ++ rest = codePointEscape d ++ rest') : c = d ∧ rest = rest' := by
  simp only [codePointEscape, List.cons_append, List.cons.injEq, true_and, List.append_assoc,
    List.nil_append] at h
  have hBrace : ∀ n : Nat, '\x7d' ∉ Nat.toDigits 16 n := fun n =>
    not_mem_toDigits (by decide) (by decide) (by decide)
  obtain ⟨hDigits, hRest⟩ := append_cons_inj (hBrace c.toNat) (hBrace d.toNat) h
  exact ⟨Char.toNat_inj.1 (toDigits_inj (by decide) (by decide) hDigits), hRest⟩

/-- A quoted character tells which it is, and where it ends. -/
theorem quotedChar_append_inj {c d : Char} {rest rest' : List Char}
    (h : quotedChar c ++ rest = quotedChar d ++ rest') : c = d ∧ rest = rest' := by
  rcases quotedChar_cases c with ⟨e, hLetter, hc⟩ | hc | ⟨hc, hPlain, -, -⟩
  · rcases quotedChar_cases d with ⟨e', hLetter', hd⟩ | hd | ⟨hd, hPlain', -, -⟩
    · rw [hc, hd] at h
      obtain ⟨rfl, rfl⟩ : e = e' ∧ rest = rest' := by simpa using h
      exact ⟨letters_inj hLetter hLetter', rfl⟩
    · rw [hc, hd] at h
      exact absurd (List.cons.inj (List.cons.inj h).2).1 (letter_ne_u hLetter)
    · rw [hc, hd] at h
      exact absurd (List.cons.inj h).1.symm hPlain'
  · rcases quotedChar_cases d with ⟨e', hLetter', hd⟩ | hd | ⟨hd, hPlain', -, -⟩
    · rw [hc, hd] at h
      exact absurd (List.cons.inj (List.cons.inj h).2).1.symm (letter_ne_u hLetter')
    · rw [hc, hd] at h
      exact codePointEscape_append_inj h
    · rw [hc, hd] at h
      exact absurd (List.cons.inj h).1.symm hPlain'
  · rcases quotedChar_cases d with ⟨e', hLetter', hd⟩ | hd | ⟨hd, hPlain', -, -⟩
    · rw [hc, hd] at h
      exact absurd (List.cons.inj h).1 hPlain
    · rw [hc, hd] at h
      exact absurd (List.cons.inj h).1 hPlain
    · rw [hc, hd] at h
      exact List.cons.inj h

/-- A quoted character does not begin like the end of a quoted text. -/
theorem quotedChar_append_ne (c : Char) (rest rest' : List Char) :
    quotedChar c ++ rest ≠ '"' :: rest' := by
  intro h
  rcases quotedChar_cases c with ⟨e, -, hc⟩ | hc | ⟨hc, -, hQuote, -⟩
  · rw [hc] at h
    exact absurd (List.cons.inj h).1 (by decide)
  · rw [hc] at h
    exact absurd (List.cons.inj h).1 (by decide)
  · rw [hc] at h
    exact hQuote (List.cons.inj h).1

theorem newline_not_mem_quotedChar (c : Char) : '\n' ∉ quotedChar c := by
  rcases quotedChar_cases c with ⟨e, hLetter, hc⟩ | hc | ⟨hc, -, -, hNewline⟩
  · have hTable : ∀ p ∈ letters, '\n' ∉ ['\\', p.2] := by decide
    rw [hc]
    exact hTable _ hLetter
  · have hDigits : '\n' ∉ Nat.toDigits 16 c.toNat :=
      not_mem_toDigits (by decide) (by decide) (by decide)
    rw [hc]
    simp [codePointEscape, hDigits]
  · rw [hc, List.mem_singleton]
    exact hNewline.symm

/-! ## Texts -/

/-- Quoted characters tell what they are up to the quote that ends them. -/
theorem flatMap_quotedChar_append_inj {cs ds rest rest' : List Char}
    (h : cs.flatMap quotedChar ++ '"' :: rest = ds.flatMap quotedChar ++ '"' :: rest') :
    cs = ds ∧ rest = rest' := by
  induction cs generalizing ds with
  | nil =>
    cases ds with
    | nil => exact ⟨rfl, (List.cons.inj h).2⟩
    | cons d ds =>
      rw [List.flatMap_cons, List.append_assoc] at h
      exact absurd h.symm (quotedChar_append_ne d _ _)
  | cons c cs ih =>
    rw [List.flatMap_cons, List.append_assoc] at h
    cases ds with
    | nil => exact absurd h (quotedChar_append_ne c _ _)
    | cons d ds =>
      rw [List.flatMap_cons, List.append_assoc] at h
      obtain ⟨rfl, hLater⟩ := quotedChar_append_inj h
      obtain ⟨rfl, hRest⟩ := ih hLater
      exact ⟨rfl, hRest⟩

/-- A quoted text tells what it is, and where it ends. -/
theorem quoted_append_inj {s t rest rest' : String} (h : quoted s ++ rest = quoted t ++ rest') :
    s = t ∧ rest = rest' := by
  have hChars := congrArg String.toList h
  simp only [quoted, String.toList_append, String.toList_ofList, List.cons_append,
    List.append_assoc, List.nil_append, List.cons.injEq, true_and] at hChars
  obtain ⟨hText, hRest⟩ := flatMap_quotedChar_append_inj hChars
  exact ⟨String.toList_inj.1 hText, String.toList_inj.1 hRest⟩

theorem newline_not_mem_quoted (text : String) : '\n' ∉ (quoted text).toList := by
  simp only [quoted, String.toList_ofList, List.cons_append, List.mem_cons, List.mem_append,
    List.mem_flatMap, List.not_mem_nil, or_false, not_or, not_exists, not_and]
  exact ⟨by decide, fun c _ => newline_not_mem_quotedChar c, by decide⟩

end GraphMarkup.Text
