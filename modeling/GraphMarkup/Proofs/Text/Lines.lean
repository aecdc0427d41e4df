import GraphMarkup.Text.Lines
import Mathlib.Data.List.Basic

/-!
# Lines put together

A text that is cut behind a newline has the lines of the one part and then those of the other
(`lineChars_append`). So lines that are written one after another, each with a newline behind it,
are the lines of what was written, but for a carriage return at the end of a line, which goes with
the newline (`lineChars_newline`).
-/

namespace GraphMarkup.Text

section Lines

variable {c : Char} {cs line rest : List Char}

theorem lineChars_cons (hNewline : c ≠ '\n') (hReturn : c = '\r' → rest.head? ≠ some '\n') :
    lineChars (c :: rest) = (c :: (lineChars rest).headD []) :: (lineChars rest).tail := by
  have hPair : ∀ more, c = '\r' → rest = '\n' :: more → False :=
    fun more hc hRest => hReturn hc (by rw [hRest, List.head?_cons])
  rw [lineChars.eq_4 c rest hNewline hPair]
  cases lineChars rest <;> rfl

theorem lineChars_ne_nil (h : cs ≠ []) : lineChars cs ≠ [] := by
  fun_cases lineChars cs with
  | case1 => exact absurd rfl h
  | case2 | case3 | case4 | case5 => simp_all

/-! ## Whole lines -/

/-- The text ends where a line does: it is empty, or its last character is a newline. -/
def Whole (cs : List Char) : Prop := ∀ c ∈ cs.getLast?, c = '\n'

instance (cs : List Char) : Decidable (Whole cs) := Option.decidableForallMem cs.getLast?

theorem Whole.tail (h : Whole (c :: cs)) : Whole cs := by
  cases cs with
  | nil => simp [Whole]
  | cons d more => simpa [Whole, List.getLast?_cons_cons] using h

theorem Whole.append (h : Whole cs) {ds : List Char} (hBehind : Whole ds) : Whole (cs ++ ds) := by
  intro c hc
  rw [List.getLast?_append] at hc
  rcases Option.or_eq_some_iff.1 hc with hLast | ⟨-, hLast⟩
  · exact hBehind c hLast
  · exact h c hLast

theorem Whole.exists_cons (h : Whole (c :: cs)) (hNewline : c ≠ '\n') :
    ∃ d more, cs = d :: more := by
  refine List.exists_cons_of_ne_nil ?_
  rintro rfl
  exact hNewline (h c rfl)

/-- Behind a newline a text goes on with lines of its own. -/
theorem lineChars_append (h : Whole cs) (ds : List Char) :
    lineChars (cs ++ ds) = lineChars cs ++ lineChars ds := by
  fun_induction lineChars cs with
  | case1 => rfl
  | case2 rest ih => rw [List.cons_append, lineChars, ih h.tail, List.cons_append]
  | case3 rest ih =>
    rw [List.cons_append, List.cons_append, lineChars, ih h.tail.tail, List.cons_append]
  | case4 c rest hNewline _ hEmpty ih =>
    obtain ⟨d, more, rfl⟩ := h.exists_cons hNewline
    exact absurd hEmpty (lineChars_ne_nil (List.cons_ne_nil d more))
  | case5 c rest hNewline hReturn first later hLines ih =>
    obtain ⟨d, more, rfl⟩ := h.exists_cons hNewline
    have hPair : c = '\r' → (d :: more ++ ds).head? ≠ some '\n' := by
      rintro hc ⟨⟩
      exact hReturn more hc rfl
    rw [List.cons_append, lineChars_cons hNewline hPair, ih h.tail, hLines]
    rfl

/-- A line as it is read when a newline follows it. -/
def withoutReturn (line : List Char) : List Char :=
  if line.getLast? = some '\r' then line.dropLast else line

theorem withoutReturn_cons_cons (c d : Char) (more : List Char) :
    withoutReturn (c :: d :: more) = c :: withoutReturn (d :: more) := by
  unfold withoutReturn
  rw [List.getLast?_cons_cons]
  split <;> rfl

theorem withoutReturn_eq_self (h : line.getLast? ≠ some '\r') : withoutReturn line = line :=
  if_neg h

theorem withoutReturn_cons (hReturn : c ≠ '\r') (cs : List Char) :
    withoutReturn (c :: cs) = c :: withoutReturn cs := by
  cases cs with
  | nil => exact withoutReturn_eq_self (by simpa using hReturn)
  | cons d more => exact withoutReturn_cons_cons c d more

theorem withoutReturn_append {ds : List Char} (h : ds ≠ []) (cs : List Char) :
    withoutReturn (cs ++ ds) = cs ++ withoutReturn ds := by
  induction cs with
  | nil => rfl
  | cons c more ih =>
    obtain ⟨d, later, hLater⟩ :=
      List.exists_cons_of_ne_nil (List.append_ne_nil_of_right_ne_nil more h)
    rw [List.cons_append, List.cons_append, ← ih, hLater, withoutReturn_cons_cons]

theorem lineChars_newline (h : '\n' ∉ line) (rest : List Char) :
    lineChars (line ++ '\n' :: rest) = withoutReturn line :: lineChars rest := by
  induction line with
  | nil => simp [lineChars, withoutReturn]
  | cons c more ih =>
    rw [List.mem_cons, not_or] at h
    have hNewline : c ≠ '\n' := Ne.symm h.1
    cases more with
    | nil =>
      by_cases hReturn : c = '\r'
      · subst hReturn
        simp [lineChars, withoutReturn]
      · rw [List.singleton_append, lineChars_cons hNewline fun hc => absurd hc hReturn,
          withoutReturn_eq_self (by simpa using hReturn), lineChars]
        rfl
    | cons d more =>
      have hPair : c = '\r' → (d :: more ++ '\n' :: rest).head? ≠ some '\n' := by
        rintro - ⟨⟩
        exact h.2 List.mem_cons_self
      rw [List.cons_append, lineChars_cons hNewline hPair, ih h.2, withoutReturn_cons_cons]
      rfl

end Lines

/-! ## Lines one after another -/

/-- Lines one after another, each with a newline behind it. -/
def ended (lines : List String) : String := String.join (lines.map (· ++ "\n"))

theorem toList_ended (texts : List String) :
    (ended texts).toList = texts.flatMap fun text => text.toList ++ ['\n'] := by
  rw [ended, String.toList_join, List.flatMap_map]
  simp [String.toList_append]

theorem ended_cons (text : String) (more : List String) :
    (ended (text :: more)).toList = text.toList ++ '\n' :: (ended more).toList := by
  simp [toList_ended]

theorem whole_ended (texts : List String) : Whole (ended texts).toList := by
  induction texts with
  | nil => simp [toList_ended, Whole]
  | cons text more ih =>
    intro c hc
    rw [ended_cons, List.getLast?_append_cons] at hc
    cases hLater : (ended more).toList with
    | nil => simpa [hLater, eq_comm] using hc
    | cons d later =>
      rw [hLater, List.getLast?_cons_cons, ← hLater] at hc
      exact ih c hc

theorem lines_append {a : String} (h : Whole a.toList) (b : String) :
    lines (a ++ b) = lines a ++ lines b := by
  rw [lines, String.toList_append, lineChars_append h, List.map_append]
  rfl

theorem lines_ended {texts : List String} (h : ∀ text ∈ texts, '\n' ∉ text.toList) :
    lines (ended texts) = texts.map fun text => String.ofList (withoutReturn text.toList) := by
  induction texts with
  | nil => rfl
  | cons text more ih =>
    rw [List.forall_mem_cons] at h
    rw [lines, ended_cons, lineChars_newline h.1, List.map_cons, List.map_cons, ← ih h.2]
    rfl

/-- Lines that are joined by newlines and ended by one are ended each. -/
theorem intercalate_newline {texts : List String} (h : texts ≠ []) :
    "\n".intercalate texts ++ "\n" = ended texts := by
  induction texts with
  | nil => exact absurd rfl h
  | cons text more ih =>
    rw [ended, List.map_cons, String.join_cons]
    cases more with
    | nil => rw [String.intercalate_singleton, List.map_nil, String.join_nil, String.append_empty]
    | cons next later =>
      rw [String.intercalate_cons_cons, String.append_assoc, ih (List.cons_ne_nil next later)]
      rfl

end GraphMarkup.Text
