import GraphMarkup.Proofs.Dot.LeftOver
import GraphMarkup.Proofs.Dot.Reports
import GraphMarkup.Proofs.Text.Lines

/-!
# Diagnostics on one line

What is missed at a token is told in words that have no line break in them. Text that no rule covers
is shown up to the end of its first line, and where that line ends is a matter of newlines: a
carriage return goes away with the newline behind it, and any other stays. So the message for such
text has no newline in it, but it can have a carriage return (`not_message_on_one_line`), and has
one exactly if the text has a lone one within what is shown.

The main result is `message_broken_only_by_lone_return`, which also says what is shown: a beginning
of the text that is not empty, of no more than forty characters.
-/

namespace GraphMarkup

/-! ## The first line of a text -/

namespace Text

/-- The first line of a text, which is empty if the text is. -/
def firstLine (cs : List Char) : List Char := (lineChars cs).headD []

/-- A text with nothing on its first line. -/
def EndsLine : List Char → Prop
  | [] => True
  | '\n' :: _ => True
  | '\r' :: '\n' :: _ => True
  | _ => False

/-- A carriage return that goes with no newline, on the first line of a text and among the first `n`
characters. -/
def LoneReturn (n : Nat) (cs : List Char) : Prop :=
  ∃ before after, cs = before ++ '\r' :: after ∧ before.length < n ∧ '\n' ∉ before ∧
    after.head? ≠ some '\n'

section FirstLine

variable {cs : List Char} {c : Char} {n : Nat}

theorem endsLine_cons_iff :
    EndsLine (c :: cs) ↔ c = '\n' ∨ c = '\r' ∧ cs.head? = some '\n' := by
  constructor
  · intro h
    unfold EndsLine at h
    split at h
    · contradiction
    · rename_i hText
      exact Or.inl (List.cons.inj hText).1
    · rename_i hText
      obtain ⟨rfl, rfl⟩ := List.cons.inj hText
      exact Or.inr ⟨rfl, rfl⟩
    · exact h.elim
  · rintro (rfl | ⟨rfl, hHead⟩)
    · trivial
    · cases cs with
      | nil => cases hHead
      | cons d more =>
        cases hHead
        trivial

theorem firstLine_of_endsLine (h : EndsLine cs) : firstLine cs = [] := by
  unfold EndsLine at h
  split at h
  · rfl
  · simp [firstLine, lineChars]
  · simp [firstLine, lineChars]
  · exact h.elim

theorem firstLine_cons (h : ¬ EndsLine (c :: cs)) : firstLine (c :: cs) = c :: firstLine cs := by
  rw [endsLine_cons_iff, not_or, not_and] at h
  rw [firstLine, lineChars_cons h.1 h.2]
  rfl

theorem firstLine_prefix (cs : List Char) : firstLine cs <+: cs := by
  induction cs with
  | nil => exact List.prefix_rfl
  | cons c cs ih =>
    by_cases hEnds : EndsLine (c :: cs)
    · rw [firstLine_of_endsLine hEnds]
      exact List.nil_prefix
    · rw [firstLine_cons hEnds]
      exact (List.prefix_cons_inj c).2 ih

theorem newline_not_mem_firstLine (cs : List Char) : '\n' ∉ firstLine cs := by
  unfold firstLine
  cases hLines : lineChars cs with
  | nil => exact List.not_mem_nil
  | cons line more => exact newline_not_mem_of_mem_lineChars (hLines ▸ List.mem_cons_self)

theorem not_loneReturn_of_endsLine (h : EndsLine cs) : ¬ LoneReturn n cs := by
  rintro ⟨before, after, rfl, -, hBefore, hAfter⟩
  cases before with
  | nil =>
    obtain hLine | ⟨-, hHead⟩ := endsLine_cons_iff.1 h
    · exact absurd hLine (by decide)
    · exact hAfter hHead
  | cons b before =>
    rw [List.mem_cons, not_or] at hBefore
    obtain hLine | ⟨-, hHead⟩ := endsLine_cons_iff.1 h
    · exact hBefore.1 hLine.symm
    · cases before with
      | nil => cases hHead
      | cons d before => exact hBefore.2 (Option.some.inj hHead ▸ List.mem_cons_self)

theorem loneReturn_cons_iff (h : ¬ EndsLine (c :: cs)) :
    LoneReturn (n + 1) (c :: cs) ↔ c = '\r' ∨ LoneReturn n cs := by
  rw [endsLine_cons_iff, not_or, not_and] at h
  constructor
  · rintro ⟨before, after, hSplit, hLength, hBefore, hAfter⟩
    cases before with
    | nil => exact Or.inl (List.cons.inj hSplit).1
    | cons b before =>
      rw [List.mem_cons, not_or] at hBefore
      exact Or.inr ⟨before, after, (List.cons.inj hSplit).2, Nat.lt_of_succ_lt_succ hLength,
        hBefore.2, hAfter⟩
  · rintro (rfl | ⟨before, after, rfl, hLength, hBefore, hAfter⟩)
    · exact ⟨[], cs, rfl, Nat.succ_pos n, List.not_mem_nil, h.2 rfl⟩
    · refine ⟨c :: before, after, rfl, Nat.succ_lt_succ hLength, ?_, hAfter⟩
      rw [List.mem_cons, not_or]
      exact ⟨Ne.symm h.1, hBefore⟩

theorem return_mem_take_firstLine_iff : '\r' ∈ (firstLine cs).take n ↔ LoneReturn n cs := by
  have hEnded : ∀ {cs n}, EndsLine cs → ('\r' ∈ (firstLine cs).take n ↔ LoneReturn n cs) := by
    intro cs n hEnds
    rw [firstLine_of_endsLine hEnds, List.take_nil]
    exact ⟨fun h => absurd h List.not_mem_nil, fun h => (not_loneReturn_of_endsLine hEnds h).elim⟩
  induction cs generalizing n with
  | nil => exact hEnded trivial
  | cons c cs ih =>
    by_cases hEnds : EndsLine (c :: cs)
    · exact hEnded hEnds
    · cases n with
      | zero =>
        rw [List.take_zero]
        refine ⟨fun h => absurd h List.not_mem_nil, ?_⟩
        rintro ⟨_, _, _, hNone, _⟩
        exact absurd hNone (Nat.not_lt_zero _)
      | succ n =>
        rw [firstLine_cons hEnds, List.take_succ_cons, List.mem_cons, loneReturn_cons_iff hEnds,
          eq_comm, or_congr_right ih]

end FirstLine

end Text

namespace Dot

open Text

/-! ## What is shown of a token -/

/-- A text without a line break, of either kind. -/
def OneLine (text : String) : Prop := '\n' ∉ text.toList ∧ '\r' ∉ text.toList

theorem OneLine.append {text more : String} (h : OneLine text) (h' : OneLine more) :
    OneLine (text ++ more) := by
  unfold OneLine
  rw [String.toList_append, List.mem_append, List.mem_append, not_or, not_or]
  exact ⟨⟨h.1, h'.1⟩, h.2, h'.2⟩

theorem oneLine_describe (t : Token) : OneLine t.describe := by
  unfold OneLine
  cases t with
  | keyword k => cases k <;> decide
  | mark m => cases m <;> decide
  | ident | str | unrecognized | eof => simp [Token.describe]

theorem Reader.Expectation.oneLine {expected : String} (h : Expectation expected) :
    OneLine expected := by
  cases h with
  | token t => exact oneLine_describe t
  | name => exact ⟨by decide, by decide⟩

theorem Reader.Reports.oneLine {t : Located} {d : Diagnostic} (h : Reports t d) :
    OneLine d.message := by
  obtain ⟨expected, hExpected, rfl⟩ := h
  have hWords : OneLine "expected " ∧ OneLine ", got " :=
    ⟨⟨by decide, by decide⟩, by decide, by decide⟩
  exact ((hWords.1.append hExpected.oneLine).append hWords.2).append (oneLine_describe t.token)

namespace Document

theorem toList_shownText (text : String) :
    (shownText text).toList = (firstLine text.toList).take shownLength :=
  String.toList_ofList

theorem shownText_prefix (text : String) : (shownText text).toList <+: text.toList := by
  have hLine : firstLine text.toList <+: text.toList := firstLine_prefix _
  rw [toList_shownText]
  exact (List.take_prefix _ _).trans hLine

theorem shownText_length_le (text : String) : (shownText text).length ≤ shownLength := by
  rw [← String.length_toList, toList_shownText]
  exact List.length_take_le _ _

/-- Something is shown of unrecognized text, since it does not start with a blank character. -/
theorem shownText_length_pos {ks : KeywordSet} {source text : String} {t : Located}
    (hMem : t ∈ TokenStream.ofText ks source) (hToken : t.token = .unrecognized text) :
    0 < (shownText text).length := by
  obtain ⟨hLeft, hText⟩ := mem_ofText_unrecognized.1 ⟨t, hMem, hToken⟩
  obtain ⟨c, more, hStart⟩ := List.exists_cons_of_ne_nil hLeft
  have hBlank : ¬ isBlank c := not_isBlank_of_leftOver hStart
  have hStarts : ¬ EndsLine (c :: more) := by
    rw [endsLine_cons_iff]
    rintro (rfl | ⟨rfl, -⟩)
    · exact hBlank (by decide)
    · exact hBlank (by decide)
  rw [← String.length_toList, toList_shownText, hText, hStart, firstLine_cons hStarts]
  exact Nat.succ_pos _

/-! ## Messages -/

theorem mem_diagnostics_ofText {options : Options} {source : String} {d : Diagnostic} :
    d ∈ (ofText options source).diagnostics ↔
      (∃ t ∈ TokenStream.ofText options.keywords source, lexDiagnostic? t = some d) ∨
        d ∈ (ofTokens options.mode (TokenStream.ofText options.keywords source)).diagnostics := by
  rw [← List.mem_filterMap, ← List.mem_append]
  rfl

theorem lexDiagnostic?_eq_some_iff {t : Located} {d : Diagnostic} :
    lexDiagnostic? t = some d ↔ ∃ text, t.token = .unrecognized text ∧
      d = ⟨.lex, t.line, "unrecognized input: " ++ shownText text⟩ := by
  unfold lexDiagnostic?
  cases t.token <;> simp [eq_comm]

theorem newline_not_mem_lexMessage (text : String) :
    '\n' ∉ ("unrecognized input: " ++ shownText text).toList := by
  have hShown : '\n' ∉ (shownText text).toList := by
    rw [toList_shownText]
    exact fun h => newline_not_mem_firstLine _ (List.mem_of_mem_take h)
  rw [String.toList_append, List.mem_append, not_or]
  exact ⟨by decide, hShown⟩

theorem return_mem_lexMessage_iff {text : String} :
    '\r' ∈ ("unrecognized input: " ++ shownText text).toList ↔
      LoneReturn shownLength text.toList := by
  rw [String.toList_append, List.mem_append, or_iff_right (by decide), toList_shownText,
    return_mem_take_firstLine_iff]

/-- What a diagnostic for a stream says: what is missed at a token, without a carriage return, or
some of the beginning of unrecognized text, with its lone carriage returns. -/
inductive Worded (tokens : TokenStream) (d : Diagnostic) : Prop
  | parse (hStage : d.stage = .parse) (hReturn : '\r' ∉ d.message.toList) : Worded tokens d
  | lex {t : Located} {text shown : String} (hStage : d.stage = .lex) (hMem : t ∈ tokens)
      (hToken : t.token = .unrecognized text) (hLine : d.line = t.line)
      (hMessage : d.message = "unrecognized input: " ++ shown)
      (hShown : shown.toList <+: text.toList ∧ 0 < shown.length ∧ shown.length ≤ 40)
      (hReturn : '\r' ∈ d.message.toList ↔ LoneReturn 40 text.toList) : Worded tokens d

/-- No message has a newline, and one that has a carriage return shows unrecognized text with a lone
one. -/
theorem message_broken_only_by_lone_return (options : Options) (source : String) :
    ∀ d ∈ (ofText options source).diagnostics, '\n' ∉ d.message.toList ∧
      Worded (TokenStream.ofText options.keywords source) d := by
  intro d hd
  rcases mem_diagnostics_ofText.1 hd with ⟨t, hMem, hLex⟩ | hRead
  · obtain ⟨text, hToken, rfl⟩ := lexDiagnostic?_eq_some_iff.1 hLex
    have hBeginning := shownText_prefix text
    have hShown := shownText_length_pos hMem hToken
    exact ⟨newline_not_mem_lexMessage text, .lex rfl hMem hToken rfl rfl
      ⟨hBeginning, hShown, shownText_length_le text⟩ return_mem_lexMessage_iff⟩
  · have hSome := TokenStream.ofText_ne_nil options.keywords source
    obtain ⟨t, -, hReports⟩ := reports_ofTokens options.mode hSome d hRead
    exact ⟨hReports.oneLine.1, .parse hReports.stage hReports.oneLine.2⟩

/-- An arrow that breaks off, with a carriage return behind it that goes with no newline. -/
def brokenText : String := "digraph G \x7b a - \r b; \x7d"

theorem worded_brokenText :
    let d : Diagnostic := ⟨.lex, 1, "unrecognized input: - \r b; \x7d"⟩
    d ∈ (ofText {} brokenText).diagnostics ∧ '\r' ∈ d.message.toList ∧
      '\n' ∉ d.message.toList ∧ Worded (TokenStream.ofText .extended brokenText) d := by
  intro d
  have hMem : d ∈ (ofText {} brokenText).diagnostics := by decide +kernel
  exact ⟨hMem, by decide, message_broken_only_by_lone_return {} brokenText d hMem⟩

/-- A lone carriage return of the source gets into a message. -/
theorem not_message_on_one_line :
    ¬ ∀ options source, ∀ d ∈ (ofText options source).diagnostics,
      '\n' ∉ d.message.toList ∧ '\r' ∉ d.message.toList := by
  intro h
  have hMessage := h {} brokenText ⟨.lex, 1, "unrecognized input: - \r b; \x7d"⟩
    (by decide +kernel)
  exact hMessage.2 (by decide)

end Document

end Dot

end GraphMarkup
