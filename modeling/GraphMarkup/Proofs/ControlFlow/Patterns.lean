import GraphMarkup.ControlFlow.Line
import GraphMarkup.Proofs.Dot.Pieces
import Mathlib.Data.List.Perm.Basic

/-!
# No line has two forms

A header and a label start with a character that is not blank, the other three forms with blanks. A
header has a space behind its first word and a label a colon; and the first character behind the
blanks tells a branch, a continuation and the end of a block from each other. So no two of the five
patterns fit the same line (`pairwise_apart`).

A line could therefore be held against the patterns in any order. That a header or a label ends the
search, and that a second branch on a line is passed over, are rules for cases that do not occur:
`consult` is a search that has them, and `one_reading` says that it finds what `Line.ofText?` finds.
-/

namespace GraphMarkup.ControlFlow

/-! ## Beginnings -/

section Beginning

variable {start : String} {c : Char} {cs name rest : List Char}

theorem after?_eq_some_iff : after? start cs = some rest ↔ cs = start.toList ++ rest := by
  rw [after?, Option.ite_none_right_eq_some, List.isPrefixOf_iff_prefix, Option.some.injEq,
    ← String.length_toList]
  constructor
  · rintro ⟨⟨more, rfl⟩, rfl⟩
    rw [List.drop_left]
  · rintro rfl
    exact ⟨List.prefix_append _ _, List.drop_left⟩

theorem after?_append (start : String) (cs : List Char) :
    after? start (start.toList ++ cs) = some cs :=
  after?_eq_some_iff.2 rfl

/-- A beginning is there only if its first character is. -/
theorem exists_cons_of_after? {more : List Char} (h : (after? start cs).isSome)
    (hStart : start.toList = c :: more) : ∃ behind, cs = c :: behind := by
  obtain ⟨rest, hRest⟩ := Option.isSome_iff_exists.1 h
  rw [after?_eq_some_iff.1 hRest, hStart]
  exact ⟨more ++ rest, rfl⟩

theorem not_isBlank_of_isNameChar (h : isNameChar c) : ¬ Text.isBlank c := by
  intro hBlank
  rcases Bool.or_eq_true_iff.1 h with hWord | hDot
  · exact Dot.not_isWordPart_of_isBlank hBlank hWord
  · rw [beq_iff_eq.1 hDot] at hBlank
    exact absurd hBlank (by decide)

theorem leadingName?_append (hSome : name ≠ []) (hName : ∀ c ∈ name, isNameChar c)
    (hNext : ∀ c ∈ rest.head?, ¬ isNameChar c) :
    leadingName? (name ++ rest) = some (name, rest) := by
  unfold leadingName?
  rw [Dot.Piece.takeWhile_append hName hNext, Dot.Piece.dropWhile_append hName hNext]
  simp [hSome]

theorem exists_cons_of_leadingName? (h : leadingName? cs = some (name, rest)) :
    ∃ c behind, cs = c :: behind ∧ isNameChar c := by
  cases cs with
  | nil => cases h
  | cons c behind =>
    refine ⟨c, behind, rfl, ?_⟩
    by_contra hNot
    simp [leadingName?, hNot] at h

theorem indented?_append {blanks : List Char} (hSome : blanks ≠ [])
    (hBlanks : ∀ c ∈ blanks, Text.isBlank c) (hNext : ∀ c ∈ rest.head?, ¬ Text.isBlank c) :
    indented? (blanks ++ rest) = some rest := by
  obtain ⟨c, more, rfl⟩ := List.exists_cons_of_ne_nil hSome
  rw [List.forall_mem_cons] at hBlanks
  rw [List.cons_append, indented?, if_pos hBlanks.1, Dot.Piece.dropWhile_append hBlanks.2 hNext]

theorem skipAssignment?_of_head?_ne (h : cs.head? ≠ some '%') : skipAssignment? cs = some cs := by
  unfold skipAssignment?
  split
  · exact absurd rfl h
  · rfl

theorem indented?_of_not_isBlank (h : ¬ Text.isBlank c) : indented? (c :: cs) = none := by
  rw [indented?, if_neg h]

end Beginning

/-! ## What a pattern fits -/

/-- The pattern fits only lines that start with a character that is not blank. -/
def Flush (p : Pattern) : Prop :=
  ∀ line, (p line).isSome → ∃ c behind, line = c :: behind ∧ ¬ Text.isBlank c

/-- The pattern fits only lines that start with blanks and then with one of some characters. -/
def Indented (leads : List Char) (p : Pattern) : Prop :=
  ∀ line, (p line).isSome → ∃ c ∈ leads, ∃ behind, indented? line = some (c :: behind)

/-- The patterns fit no line in common. -/
def Apart (p q : Pattern) : Prop := ∀ line, p line = none ∨ q line = none

theorem apart_of_not_both {p q : Pattern} (h : ∀ line, (p line).isSome → (q line).isSome → False) :
    Apart p q := by
  intro line
  by_contra hBoth
  obtain ⟨hp, hq⟩ := not_or.1 hBoth
  exact h line (Option.isSome_iff_ne_none.2 hp) (Option.isSome_iff_ne_none.2 hq)

theorem Flush.apart {p q : Pattern} {leads : List Char} (hp : Flush p) (hq : Indented leads q) :
    Apart p q := by
  refine apart_of_not_both fun line hFlush hIndented => ?_
  obtain ⟨c, behind, rfl, hBlank⟩ := hp line hFlush
  obtain ⟨d, -, more, hMore⟩ := hq _ hIndented
  rw [indented?_of_not_isBlank hBlank] at hMore
  cases hMore

theorem Indented.apart {p q : Pattern} {leads others : List Char} (hp : Indented leads p)
    (hq : Indented others q) (hLeads : ∀ c ∈ leads, c ∉ others) : Apart p q := by
  refine apart_of_not_both fun line hLead hOther => ?_
  obtain ⟨c, hc, behind, hBehind⟩ := hp line hLead
  obtain ⟨d, hd, more, hMore⟩ := hq line hOther
  rw [hBehind, Option.some.injEq] at hMore
  obtain ⟨rfl, -⟩ := List.cons.inj hMore
  exact hLeads c hc hd

theorem exists_of_define? {line : List Char} (h : (define? line).isSome) :
    ∃ rest, line = "define ".toList ++ rest := by
  obtain ⟨said, hSaid⟩ := Option.isSome_iff_exists.1 h
  obtain ⟨rest, hRest, -⟩ := Option.bind_eq_some_iff.1 hSaid
  exact ⟨rest, after?_eq_some_iff.1 hRest⟩

theorem flush_define? : Flush define? := by
  intro line h
  obtain ⟨rest, rfl⟩ := exists_of_define? h
  exact ⟨'d', _, rfl, by decide⟩

theorem flush_block? : Flush block? := by
  intro line h
  obtain ⟨said, hSaid⟩ := Option.isSome_iff_exists.1 h
  obtain ⟨⟨name, rest⟩, hName, -⟩ := Option.bind_eq_some_iff.1 hSaid
  obtain ⟨c, behind, rfl, hc⟩ := exists_cons_of_leadingName? hName
  exact ⟨c, behind, rfl, not_isBlank_of_isNameChar hc⟩

theorem define?_apart_block? : Apart define? block? := by
  refine apart_of_not_both fun line hDefine hBlock => ?_
  obtain ⟨rest, hRest⟩ := exists_of_define? hDefine
  have hText : "define ".toList = "define".toList ++ [' '] := by decide
  have hSpace : ∀ c ∈ (' ' :: rest).head?, ¬ isNameChar c := by
    rintro c ⟨⟩
    decide
  have hName : leadingName? line = some ("define".toList, ' ' :: rest) := by
    rw [hRest, hText, List.append_assoc]
    exact leadingName?_append (by decide) (List.all_eq_true.1 (by decide)) hSpace
  rw [block?, hName] at hBlock
  cases hBlock

theorem indented_branch? : Indented ['%', 'b', 'i'] branch? := by
  intro line h
  obtain ⟨said, hSaid⟩ := Option.isSome_iff_exists.1 h
  obtain ⟨behind, hBehind, hSaid⟩ := Option.bind_eq_some_iff.1 hSaid
  obtain ⟨rest, hRest, hSaid⟩ := Option.bind_eq_some_iff.1 hSaid
  by_cases hAssignment : behind.head? = some '%'
  · obtain ⟨more, rfl⟩ := List.head?_eq_some_iff.1 hAssignment
    exact ⟨'%', by decide, more, hBehind⟩
  · rw [skipAssignment?_of_head?_ne hAssignment, Option.some.injEq] at hRest
    subst hRest
    split at hSaid
    next hBr =>
      obtain ⟨more, rfl⟩ := exists_cons_of_after? hBr rfl
      exact ⟨'b', by decide, more, hBehind⟩
    next =>
      rw [Option.ite_none_right_eq_some] at hSaid
      obtain ⟨more, rfl⟩ := exists_cons_of_after? hSaid.1 rfl
      exact ⟨'i', by decide, more, hBehind⟩

theorem indented_continuation? : Indented ['t'] continuation? := by
  intro line h
  obtain ⟨said, hSaid⟩ := Option.isSome_iff_exists.1 h
  obtain ⟨behind, hBehind, hSaid⟩ := Option.bind_eq_some_iff.1 hSaid
  obtain ⟨rest, hTo, -⟩ := Option.bind_eq_some_iff.1 hSaid
  obtain ⟨more, rfl⟩ := exists_cons_of_after? (Option.isSome_of_eq_some hTo) rfl
  exact ⟨'t', by decide, more, hBehind⟩

theorem indented_terminator? : Indented ['r', 'u'] terminator? := by
  intro line h
  obtain ⟨said, hSaid⟩ := Option.isSome_iff_exists.1 h
  obtain ⟨behind, hBehind, hSaid⟩ := Option.bind_eq_some_iff.1 hSaid
  split at hSaid
  next hRet =>
    obtain ⟨more, rfl⟩ := exists_cons_of_after? (Option.isSome_of_any hRet) rfl
    exact ⟨'r', by decide, more, hBehind⟩
  next =>
    rw [Option.ite_none_right_eq_some] at hSaid
    obtain ⟨more, rfl⟩ := exists_cons_of_after? (Option.isSome_of_any hSaid.1) rfl
    exact ⟨'u', by decide, more, hBehind⟩

/-- No two of the five patterns fit the same line. -/
theorem pairwise_apart : patterns.Pairwise Apart := by
  have hIndented : [branch?, continuation?, terminator?].Pairwise Apart := by
    refine .cons ?branch (.cons ?continuation (List.pairwise_singleton _ _))
    case branch =>
      rw [List.forall_mem_cons, List.forall_mem_singleton]
      exact ⟨indented_branch?.apart indented_continuation? (by simp),
        indented_branch?.apart indented_terminator? (by simp)⟩
    case continuation =>
      rw [List.forall_mem_singleton]
      exact indented_continuation?.apart indented_terminator? (by simp)
  have hFlush : ∀ p, Flush p → ∀ q ∈ [branch?, continuation?, terminator?], Apart p q := by
    intro p hp
    rw [List.forall_mem_cons, List.forall_mem_cons, List.forall_mem_singleton]
    exact ⟨hp.apart indented_branch?, hp.apart indented_continuation?,
      hp.apart indented_terminator?⟩
  refine .cons ?define (.cons (hFlush block? flush_block?) hIndented)
  rw [List.forall_mem_cons]
  exact ⟨define?_apart_block?, hFlush define? flush_define?⟩

/-! ## Searching the patterns -/

section Search

variable {ps : List Pattern} {line : List Char} {found : List Line} {said : Line}

theorem readings_cons (p : Pattern) (ps : List Pattern) (line : List Char) :
    readings (p :: ps) line = (p line).toList ++ readings ps line := by
  unfold readings
  rw [List.filterMap_cons]
  cases p line <;> rfl

theorem readings_eq_nil_iff : readings ps line = [] ↔ ∀ p ∈ ps, p line = none :=
  List.filterMap_eq_nil_iff

/-- Of patterns that fit no line in common at most one gives a reading. -/
theorem readings_of_apart (h : ps.Pairwise Apart) (line : List Char) :
    (readings ps line).length ≤ 1 := by
  induction h with
  | nil => exact Nat.zero_le 1
  | @cons p ps hApart _ ih =>
    rw [readings_cons]
    cases hSaid : p line with
    | none => exact ih
    | some said =>
      have hNone : readings ps line = [] :=
        readings_eq_nil_iff.2 fun q hq => (hApart q hq line).resolve_left (by simp [hSaid])
      rw [hNone, List.append_nil]
      exact Nat.le_refl 1

theorem readings_patterns (line : String) :
    readings patterns line.toList = (Line.ofText? line).toList := by
  have hOne := readings_of_apart pairwise_apart line.toList
  unfold Line.ofText?
  match hRead : readings patterns line.toList with
  | [] => rfl
  | [said] => rfl
  | _ :: _ :: _ => simp [hRead] at hOne

/-- In whatever order the patterns stand, they give the same readings. -/
theorem readings_of_perm (h : ps.Perm patterns) (line : String) :
    readings ps line.toList = (Line.ofText? line).toList := by
  have hSame : (readings ps line.toList).Perm (Line.ofText? line).toList := by
    rw [← readings_patterns]
    exact h.filterMap _
  cases hSaid : Line.ofText? line with
  | none => simpa [hSaid] using hSame
  | some said => simpa [hSaid] using hSame

/-- What a line says is what any of the patterns reads on it. -/
theorem ofText?_eq_some_iff {line : String} {said : Line} :
    Line.ofText? line = some said ↔ ∃ p ∈ patterns, p line.toList = some said := by
  rw [← Option.mem_toList, ← readings_patterns, readings, List.mem_filterMap]

theorem ofText?_eq_none_iff {line : String} :
    Line.ofText? line = none ↔ ∀ p ∈ patterns, p line.toList = none := by
  rw [← Option.toList_eq_nil_iff, ← readings_patterns, readings_eq_nil_iff]

/-- Holds a line against one pattern after another. A header or a label is all that the line says;
and a branch adds nothing to a branch that has been found. -/
def consult (line : List Char) (found : List Line) : List Pattern → List Line
  | [] => found
  | p :: more =>
    match p line with
    | none => consult line found more
    | some (.define name) => [.define name]
    | some (.block name) => [.block name]
    | some (.branch t) =>
      if found.any (· matches .branch _) then consult line found more
      else consult line (found ++ [.branch t]) more
    | some (.terminator t) => consult line (found ++ [.terminator t]) more

theorem consult_of_no_reading (h : readings ps line = []) : consult line found ps = found := by
  induction ps with
  | nil => rfl
  | cons p more ih =>
    obtain ⟨hp, hMore⟩ := List.forall_mem_cons.1 (readings_eq_nil_iff.1 h)
    rw [consult, hp]
    exact ih (readings_eq_nil_iff.2 hMore)

/-- Where there is only one reading, the rules of a search do not come to bear. -/
theorem consult_of_reading (h : readings ps line = [said]) : consult line [] ps = [said] := by
  induction ps with
  | nil => cases h
  | cons p more ih =>
    rw [consult]
    rw [readings_cons] at h
    cases hp : p line with
    | none =>
      rw [hp] at h
      exact ih h
    | some first =>
      rw [hp] at h
      obtain ⟨rfl, hMore⟩ := List.cons.inj h
      cases first with
      | define name | block name => rfl
      | branch t | terminator t => exact consult_of_no_reading hMore

/-- At most one pattern fits a line, and in whatever order they are consulted, what is found is what
the line says. -/
theorem one_reading (line : String) :
    patterns.Pairwise (fun p q => p line.toList = none ∨ q line.toList = none) ∧
      ∀ order : List Pattern, order.Perm patterns →
        readings order line.toList = (Line.ofText? line).toList ∧
          consult line.toList [] order = (Line.ofText? line).toList := by
  refine ⟨pairwise_apart.imp fun hApart => hApart line.toList, fun order hOrder => ?_⟩
  have hReadings := readings_of_perm hOrder line
  refine ⟨hReadings, ?_⟩
  cases hSaid : Line.ofText? line with
  | none => exact consult_of_no_reading (by rw [hReadings, hSaid]; rfl)
  | some said => exact consult_of_reading (by rw [hReadings, hSaid]; rfl)

/-- An assigned `invoke` with its targets on the same line, held against the patterns from the last
to the first. -/
theorem one_reading_backwards :
    patterns.reverse.Perm patterns ∧
      consult "  %v = invoke i32 @g() to label %ok unwind label %bad".toList [] patterns.reverse =
        [.branch .invoke] := by
  have hOrder : patterns.reverse.Perm patterns := List.reverse_perm patterns
  refine ⟨hOrder, ?_⟩
  rw [((one_reading "  %v = invoke i32 @g() to label %ok unwind label %bad").2 _ hOrder).2]
  decide +kernel

end Search

end GraphMarkup.ControlFlow
