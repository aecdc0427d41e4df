import GraphMarkup.Proofs.Json.Spelling
import Mathlib.Data.List.Chain

/-!
# Rows of lexemes

Lexemes can be written in a row with gaps of blanks in front of them, between them and behind them.
A row is read as its lexemes whatever the gaps are (`Row.holds`), also if there are none. A lexeme
could only run into the next one if both were numbers, so all that is asked of the lexemes is that
no two numbers come one after the other (`NumbersApart`).

Which gaps are put where is left open: a row is built for any kind of gap that can be put together
(`IsKind`), so that a layout without any blank and a layout with some are built by the same lemmas.
-/

namespace GraphMarkup.Json

/-! ## Gaps -/

/-- A text of blanks, or none. -/
def IsGap (gap : List Char) : Prop := ∀ c ∈ gap, isJsonBlank c = true

theorem isGap_nil : IsGap [] := fun c hc => by cases hc

theorem isGap_space : IsGap [' '] := fun c hc => by
  rw [List.mem_singleton.1 hc]
  decide

theorem isGap_newLine (depth : Nat) : IsGap (newLine depth).toList := by
  intro c hc
  simp only [newLine, String.toList_append, String.toList_ofList, List.mem_append,
    List.mem_replicate] at hc
  rcases hc with hc | ⟨-, rfl⟩
  · have hNewline : c = '\n' := by simpa using hc
    rw [hNewline]
    decide
  · decide

/-- A kind of gap. Nothing is a gap of every kind. -/
structure IsKind (Gap : List Char → Prop) : Prop where
  nothing : Gap []
  append : ∀ {gap gap' : List Char}, Gap gap → Gap gap' → Gap (gap ++ gap')

theorem isKind_isGap : IsKind IsGap where
  nothing := isGap_nil
  append hGap hGap' c hc := (List.mem_append.1 hc).elim (hGap c) (hGap' c)

theorem isKind_nothing : IsKind (· = []) where
  nothing := rfl
  append hGap hGap' := by rw [hGap, hGap', List.append_nil]

/-! ## Texts that hold lexemes -/

theorem Laid.gap {gap : List Char} (hGap : IsGap gap) {ls : List Lexeme} {cs : List Char}
    (h : Laid ls cs) : Laid ls (gap ++ cs) := by
  induction gap with
  | nil => exact h
  | cons c gap ih =>
    exact .blank (hGap c List.mem_cons_self) (ih fun d hd => hGap d (List.mem_cons_of_mem c hd))

theorem endsNumber_mark {l : Lexeme} {c : Char} (hMark : (l, c) ∈ marks) (rest : List Char) :
    EndsNumber (c :: rest) := by
  have hTable : ∀ p ∈ marks, continuesNumber p.2 = false := by decide
  exact endsNumber_cons (hTable _ hMark)

theorem endsNumber_gap_append {gap rest : List Char} (hGap : IsGap gap) (hRest : EndsNumber rest) :
    EndsNumber (gap ++ rest) := by
  cases gap with
  | nil => exact hRest
  | cons c gap =>
    have hBlank := hGap c List.mem_cons_self
    simp only [isJsonBlank, Bool.or_eq_true, beq_iff_eq] at hBlank
    rcases hBlank with ((rfl | rfl) | rfl) | rfl
    all_goals exact endsNumber_cons (by decide)

/-- A text that is read as some lexemes, whatever follows that no number goes on with. -/
def Holds (text : List Char) (ls : List Lexeme) : Prop :=
  ∀ (after : List Lexeme) (rest : List Char), EndsNumber rest → Laid after rest →
    Laid (ls ++ after) (text ++ rest)

theorem Holds.laid {text : List Char} {ls : List Lexeme} (h : Holds text ls) : Laid ls text := by
  have hWhole := h [] [] endsNumber_nil .done
  rwa [List.append_nil, List.append_nil] at hWhole

/-! ## Rows -/

/-- Lexemes in a row, with a gap in front of each and one at the end. -/
inductive Row (Gap : List Char → Prop) : List Lexeme → List Char → Prop
  | done {gap : List Char} (hGap : Gap gap) : Row Gap [] gap
  | lexeme {l : Lexeme} {ls : List Lexeme} {gap text rest : List Char} (hGap : Gap gap)
    (hText : l.Spelled text) (hRest : Row Gap ls rest) : Row Gap (l :: ls) (gap ++ text ++ rest)

section Building

variable {Gap : List Char → Prop} (hKind : IsKind Gap)

include hKind

theorem Row.gap {gap : List Char} (hGap : Gap gap) {ls : List Lexeme} {cs : List Char}
    (h : Row Gap ls cs) : Row Gap ls (gap ++ cs) := by
  cases h with
  | done hLast => exact .done (hKind.append hGap hLast)
  | lexeme hFront hText hRest =>
    rw [← List.append_assoc, ← List.append_assoc]
    exact .lexeme (hKind.append hGap hFront) hText hRest

theorem Row.append {ls ms : List Lexeme} {cs ds : List Char} (h : Row Gap ls cs)
    (h' : Row Gap ms ds) : Row Gap (ls ++ ms) (cs ++ ds) := by
  induction h with
  | done hGap => exact h'.gap hKind hGap
  | lexeme hGap hText _ ih =>
    rw [List.append_assoc]
    exact .lexeme hGap hText ih

theorem Lexeme.Spelled.row {l : Lexeme} {text : List Char} (h : l.Spelled text) :
    Row Gap [l] text := by
  have hRow : Row Gap [l] ([] ++ text ++ []) := .lexeme hKind.nothing h (.done hKind.nothing)
  simpa using hRow

theorem row_mark {l : Lexeme} {c : Char} (hMark : (l, c) ∈ marks) : Row Gap [l] [c] :=
  (Lexeme.Spelled.mark hMark).row hKind

end Building

theorem Row.mono {Gap Gap' : List Char → Prop} (hGap : ∀ gap, Gap gap → Gap' gap)
    {ls : List Lexeme} {cs : List Char} (h : Row Gap ls cs) : Row Gap' ls cs := by
  induction h with
  | done h => exact .done (hGap _ h)
  | lexeme h hText _ ih => exact .lexeme (hGap _ h) hText ih

/-! ## Reading rows -/

def Lexeme.isNumber : Lexeme → Bool
  | .number _ => true
  | _ => false

/-- Lexemes of which no two next to each other are numbers. -/
def NumbersApart (ls : List Lexeme) : Prop :=
  ls.IsChain fun l m => l.isNumber = true → m.isNumber = false

theorem numbersApart_singleton (l : Lexeme) : NumbersApart [l] := .singleton l

/-- Anything but a number keeps apart what stands on both sides of it. -/
theorem NumbersApart.append_cons {ls ms : List Lexeme} {l : Lexeme} (hls : NumbersApart ls)
    (hl : l.isNumber = false) (hms : NumbersApart ms) : NumbersApart (ls ++ l :: ms) := by
  refine List.IsChain.append hls (List.isChain_cons.2 ⟨fun _ _ hNumber => ?_, hms⟩)
    fun _ _ m hm _ => ?_
  · rw [hl] at hNumber
    cases hNumber
  · obtain rfl : l = m := Option.some.inj hm
    exact hl

theorem Lexeme.Spelled.endsNumber {l : Lexeme} {text : List Char} (h : l.Spelled text)
    (hl : l.isNumber = false) (rest : List Char) : EndsNumber (text ++ rest) := by
  cases h with
  | mark hMark => exact endsNumber_mark hMark rest
  | null => exact endsNumber_cons (by decide)
  | string s =>
    rw [stringText, String.toList_ofList]
    exact endsNumber_cons (by decide)
  | number n => cases hl

/-- A number ends in front of a row that does not begin with another. -/
theorem Row.endsNumber_append {ls : List Lexeme} {cs rest : List Char} (h : Row IsGap ls cs)
    (hHead : ∀ m ∈ ls.head?, m.isNumber = false) (hEnd : EndsNumber rest) :
    EndsNumber (cs ++ rest) := by
  cases h with
  | done hGap => exact endsNumber_gap_append hGap hEnd
  | lexeme hGap hText _ =>
    rw [List.append_assoc, List.append_assoc]
    exact endsNumber_gap_append hGap (hText.endsNumber (hHead _ rfl) _)

/-- A row is read as its lexemes. -/
theorem Row.holds {ls : List Lexeme} {cs : List Char} (h : Row IsGap ls cs)
    (hApart : NumbersApart ls) : Holds cs ls := by
  intro after rest hEnd hRest
  induction h with
  | done hGap => exact hRest.gap hGap
  | @lexeme l ls gap text more hGap hText hMore ih =>
    obtain ⟨hHead, hTail⟩ := List.isChain_cons.1 hApart
    rw [List.append_assoc, List.append_assoc]
    refine .gap hGap (.lexeme hText (fun n hNumber => ?_) (ih hTail))
    exact hMore.endsNumber_append (fun m hm => hHead m hm (by rw [hNumber]; rfl)) hEnd

end GraphMarkup.Json
