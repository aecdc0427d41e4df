import GraphMarkup.ControlFlow.Extraction
import GraphMarkup.Proofs.Dot.LeftOver
import GraphMarkup.Proofs.Dot.Lockstep
import GraphMarkup.Proofs.Text.Lines

/-!
# Line endings

A text can end its lines with newlines, or with a carriage return in front of each of them. The two
front ends have their own ideas of a line, and to neither of them this makes a difference
(`line_endings_inert`), as long as the text has no carriage returns of its own.

* A listing is read line by line, and a carriage return in front of a newline goes with it
  (`lines_crlf`).
* In a document a newline is one more blank character, and so is a carriage return. The text is cut
  at the same places (`pieces_crlfChars`), with as many newlines in front of each token. Apart from
  blanks a newline can stand in a comment, which no token tells of, in a string, where it would make
  a difference, and in what no rule covers. Of the latter only the first line is shown, and the
  reading does not ask what it is (`besideLeftOver`).
-/

namespace GraphMarkup

/-! ## Texts -/

namespace Text

/-- The characters with a carriage return in front of every newline. -/
def crlfChars (cs : List Char) : List Char :=
  cs.flatMap fun c => if c = '\n' then ['\r', '\n'] else [c]

/-- The text with a carriage return in front of every newline. -/
def crlf (text : String) : String := String.ofList (crlfChars text.toList)

section Chars

variable {c d : Char} {cs later : List Char}

@[simp] theorem crlfChars_nil : crlfChars [] = [] := rfl

@[simp] theorem crlfChars_newline (cs : List Char) :
    crlfChars ('\n' :: cs) = '\r' :: '\n' :: crlfChars cs := rfl

theorem crlfChars_cons (h : c ≠ '\n') (cs : List Char) :
    crlfChars (c :: cs) = c :: crlfChars cs := by
  rw [crlfChars, List.flatMap_cons, if_neg h]
  rfl

theorem crlfChars_eq_self (h : '\n' ∉ cs) : crlfChars cs = cs := by
  induction cs with
  | nil => rfl
  | cons c cs ih =>
    rw [List.mem_cons, not_or] at h
    rw [crlfChars_cons (Ne.symm h.1), ih h.2]

theorem crlfChars_eq_nil : crlfChars cs = [] ↔ cs = [] := by
  cases cs with
  | nil => simp
  | cons c cs =>
    by_cases hNewline : c = '\n'
    · simp [hNewline]
    · simp [crlfChars_cons hNewline]

/-- Where the changed text does not go on with a carriage return, neither was changed. -/
theorem exists_of_crlfChars_eq_cons (h : crlfChars cs = d :: later) (hReturn : d ≠ '\r') :
    ∃ more, cs = d :: more ∧ later = crlfChars more := by
  cases cs with
  | nil => cases h
  | cons c cs =>
    by_cases hNewline : c = '\n'
    · subst hNewline
      cases h
      exact absurd rfl hReturn
    · rw [crlfChars_cons hNewline] at h
      obtain ⟨rfl, rfl⟩ := List.cons.inj h
      exact ⟨cs, rfl, rfl⟩

@[simp] theorem newlines_crlfChars (cs : List Char) : newlines (crlfChars cs) = newlines cs := by
  induction cs with
  | nil => rfl
  | cons c cs ih =>
    by_cases hNewline : c = '\n'
    · subst hNewline
      simpa [newlines] using ih
    · simpa [crlfChars_cons hNewline, newlines, hNewline] using ih

/-- The lines do not tell how they ended. -/
theorem lineChars_crlfChars (h : '\r' ∉ cs) : lineChars (crlfChars cs) = lineChars cs := by
  induction cs with
  | nil => rfl
  | cons c cs ih =>
    rw [List.mem_cons, not_or] at h
    by_cases hNewline : c = '\n'
    · subst hNewline
      rw [crlfChars_newline, lineChars, lineChars, ih h.2]
    · have hReturn : c ≠ '\r' := Ne.symm h.1
      rw [crlfChars_cons hNewline, lineChars_cons hNewline fun hc => absurd hc hReturn, ih h.2,
        lineChars_cons hNewline fun hc => absurd hc hReturn]

/-- Of a class with no newline and no carriage return in it, the changed text has as many characters
in front. -/
theorem takeWhile_crlfChars (inside : Char → Bool) (hNewline : inside '\n' = false)
    (hReturn : inside '\r' = false) (cs : List Char) :
    (crlfChars cs).takeWhile inside = cs.takeWhile inside ∧
      (crlfChars cs).dropWhile inside = crlfChars (cs.dropWhile inside) := by
  induction cs with
  | nil => exact ⟨rfl, rfl⟩
  | cons c cs ih =>
    by_cases hc : c = '\n'
    · subst hc
      simp [hNewline, hReturn]
    · rw [crlfChars_cons hc]
      cases hInside : inside c with
      | true => simp [hInside, ih]
      | false => simp [hInside, crlfChars_cons hc]

end Chars

theorem lines_crlf {text : String} (h : '\r' ∉ text.toList) : lines (crlf text) = lines text := by
  rw [lines, crlf, String.toList_ofList, lineChars_crlfChars h]
  rfl

end Text

/-! ## Pieces -/

namespace Dot

open Text (crlfChars)

theorem untilQuote?_crlfChars (cs : List Char) :
    untilQuote? (crlfChars cs) =
      (untilQuote? cs).map fun (body, after) => (crlfChars body, crlfChars after) := by
  fun_induction untilQuote? cs with
  | case1 => rfl
  | case2 rest => rfl
  | case3 c rest hQuote ih =>
    by_cases hNewline : c = '\n'
    · subst hNewline
      rw [Text.crlfChars_newline, untilQuote?, untilQuote?, ih]
      · cases untilQuote? rest <;> rfl
      · decide
      · decide
    · rw [Text.crlfChars_cons hNewline, untilQuote?, ih]
      · cases untilQuote? rest with
        | none => rfl
        | some found => simp [Text.crlfChars_cons hNewline]
      · exact hQuote

theorem untilCommentEnd?_crlfChars (cs : List Char) :
    untilCommentEnd? (crlfChars cs) =
      (untilCommentEnd? cs).map fun (body, after) => (crlfChars body, crlfChars after) := by
  fun_induction untilCommentEnd? cs with
  | case1 => rfl
  | case2 rest => rfl
  | case3 c rest hEnd ih =>
    by_cases hNewline : c = '\n'
    · subst hNewline
      rw [Text.crlfChars_newline, untilCommentEnd?, untilCommentEnd?, ih]
      · cases untilCommentEnd? rest <;> rfl
      · simp
      · simp
    · rw [Text.crlfChars_cons hNewline, untilCommentEnd?, ih]
      · cases untilCommentEnd? rest with
        | none => rfl
        | some found => simp [Text.crlfChars_cons hNewline]
      · intro later hStar hSlash
        obtain ⟨more, hRest, -⟩ := Text.exists_of_crlfChars_eq_cons hSlash (by decide)
        exact hEnd more hStar hRest

/-- The piece with the newlines in it changed. -/
def Piece.crlfBody : Piece → Piece
  | .string body => .string (crlfChars body)
  | .comment body => .comment (crlfChars body)
  | p => p

/-- What becomes of a piece: a newline by itself becomes two blanks. -/
def Piece.crlf (p : Piece) : List Piece :=
  if p = .blank '\n' then [.blank '\r', .blank '\n'] else [p.crlfBody]

theorem scan?_crlfChars {cs : List Char} (h : cs.head? ≠ some '\n') :
    scan? (crlfChars cs) = (scan? cs).map fun (p, rest) => (p.crlfBody, crlfChars rest) := by
  rw [scan?.eq_def cs]
  split
  · rfl
  · rfl
  · next rest =>
    show (untilCommentEnd? (crlfChars rest)).map _ = _
    rw [untilCommentEnd?_crlfChars]
    cases untilCommentEnd? rest <;> rfl
  · next rest =>
    show (untilQuote? (crlfChars rest)).map _ = _
    rw [untilQuote?_crlfChars]
    cases untilQuote? rest <;> rfl
  · next c rest hArrow hComment hQuote =>
    have hNewline : c ≠ '\n' := fun hc => h (by rw [hc, List.head?_cons])
    obtain ⟨hTaken, hDropped⟩ := Text.takeWhile_crlfChars isWordPart rfl rfl rest
    rw [Text.crlfChars_cons hNewline, scan?, hTaken, hDropped]
    · split_ifs
      · rfl
      · rfl
      · cases Mark.ofChar? c <;> rfl
    · intro later hMinus hLater
      obtain ⟨more, hRest, -⟩ := Text.exists_of_crlfChars_eq_cons hLater (by decide)
      exact hArrow more hMinus hRest
    · intro later hSlash hLater
      obtain ⟨more, hRest, -⟩ := Text.exists_of_crlfChars_eq_cons hLater (by decide)
      exact hComment more hSlash hRest
    · exact hQuote

theorem scan?_newline (rest : List Char) : scan? ('\n' :: rest) = some (.blank '\n', rest) := rfl

theorem pieces_crlfChars (cs : List Char) :
    pieces (crlfChars cs) = ((pieces cs).1.flatMap Piece.crlf, crlfChars (pieces cs).2) := by
  fun_induction pieces cs with
  | case1 cs hScan =>
    have hHead : cs.head? ≠ some '\n' := by
      intro hHead
      obtain ⟨more, rfl⟩ := List.head?_eq_some_iff.1 hHead
      cases hScan
    have hNone := scan?_crlfChars hHead
    rw [hScan] at hNone
    rw [pieces_of_none hNone]
    rfl
  | case2 cs p rest hScan _ later ih =>
    by_cases hHead : cs.head? = some '\n'
    · obtain ⟨more, rfl⟩ := List.head?_eq_some_iff.1 hHead
      cases hScan
      have hReturn : scan? ('\r' :: '\n' :: crlfChars rest) =
        some (.blank '\r', '\n' :: crlfChars rest) := rfl
      rw [Text.crlfChars_newline, pieces_of_some hReturn, pieces_of_some (scan?_newline _), ih]
      rfl
    · have hOther : p ≠ .blank '\n' := by
        rintro rfl
        exact hHead (by rw [← Piece.text_append_of_scan? hScan]; rfl)
      have hFirst := scan?_crlfChars hHead
      rw [hScan] at hFirst
      rw [pieces_of_some hFirst, ih, List.flatMap_cons, Piece.crlf, if_neg hOther]
      rfl

/-! ## Tokens -/

section Tokens

variable {ks : KeywordSet}

theorem Piece.lineAfter_crlfBody (line : UInt32) (q : Piece) :
    q.crlfBody.lineAfter line = q.lineAfter line := by
  have hText : Text.newlines q.crlfBody.text = Text.newlines q.text := by
    cases q with
    | string body => simpa [crlfBody, text, Text.newlines] using Text.newlines_crlfChars body
    | comment body => simpa [crlfBody, text, Text.newlines] using Text.newlines_crlfChars body
    | word | mark | blank => rfl
  rw [lineAfter, hText, lineAfter]

theorem Piece.token?_crlfBody {q : Piece} (h : ∀ body, q = .string body → '\n' ∉ body) :
    q.crlfBody.token? ks = q.token? ks := by
  cases q with
  | string body => rw [crlfBody, Text.crlfChars_eq_self (h body rfl)]
  | word | mark | blank | comment => rfl

/-- If no string goes over a line, the changed pieces are the same tokens on the same lines. -/
theorem locate_crlf (ks : KeywordSet) (line : UInt32) {qs : List Piece}
    (h : ∀ body, .string body ∈ qs → '\n' ∉ body) :
    locate ks line (qs.flatMap Piece.crlf) = locate ks line qs := by
  induction qs generalizing line with
  | nil => rfl
  | cons q qs ih =>
    have hLater := fun line => ih line fun body hBody => h body (List.mem_cons_of_mem q hBody)
    by_cases hBreak : q = .blank '\n'
    · subst hBreak
      have hReturn : (Piece.blank '\r').lineAfter line = line := UInt32.add_zero line
      rw [List.flatMap_cons, Piece.crlf, if_pos rfl, List.cons_append, List.cons_append, locate,
        locate, hReturn, List.nil_append, hLater, locate]
      rfl
    · have hString : ∀ body, q = .string body → '\n' ∉ body :=
        fun body hq => h body (hq ▸ List.mem_cons_self)
      rw [List.flatMap_cons, Piece.crlf, if_neg hBreak, List.singleton_append, locate,
        q.lineAfter_crlfBody, hLater, Piece.token?_crlfBody hString, locate]

theorem exists_mem_locate {q : Piece} {qs : List Piece} {t : Token}
    (hToken : q.token? ks = some t) (hMem : q ∈ qs) (line : UInt32) :
    ∃ u ∈ (locate ks line qs).1, u.token = t := by
  induction qs generalizing line with
  | nil => cases hMem
  | cons first qs ih =>
    rw [locate]
    rcases List.mem_cons.1 hMem with rfl | hLater
    · rw [hToken]
      exact ⟨_, List.mem_cons_self, rfl⟩
    · obtain ⟨u, hu, hSame⟩ := ih hLater (first.lineAfter line)
      cases first.token? ks with
      | none => exact ⟨u, hu, hSame⟩
      | some => exact ⟨u, List.mem_cons_of_mem _ hu, hSame⟩

/-- The strings of a text are tokens of it. -/
theorem newline_not_mem_string {source : String}
    (h : ∀ t ∈ TokenStream.ofText ks source, t.token.isString → '\n' ∉ t.token.text)
    {body : List Char} (hBody : .string body ∈ (pieces source.toList).1) : '\n' ∉ body := by
  have hPiece : (Piece.string body).token? ks = some (.str (String.ofList body)) := rfl
  obtain ⟨t, ht, hToken⟩ := exists_mem_locate hPiece hBody 1
  have hString : '\n' ∉ (Token.str (String.ofList body)).text :=
    hToken ▸ h t (List.mem_append_left _ ht) (by rw [hToken]; rfl)
  simpa [Token.text] using hString

/-- The changed text has the same tokens, but for what no rule covers. -/
theorem ofText_crlf {source : String}
    (h : ∀ t ∈ TokenStream.ofText ks source, t.token.isString → '\n' ∉ t.token.text) :
    ∃ body line, TokenStream.ofText ks source = body ++ ending line (pieces source.toList).2 ∧
      TokenStream.ofText ks (Text.crlf source) =
        body ++ ending line (crlfChars (pieces source.toList).2) := by
  refine ⟨_, _, rfl, ?_⟩
  have hPieces := pieces_crlfChars source.toList
  have hLocate := locate_crlf ks 1 fun body => newline_not_mem_string h
  simp only [TokenStream.ofText, Text.crlf, String.toList_ofList, hPieces, hLocate]

end Tokens

/-! ## Documents -/

/-- The same token, or other text that no rule covers in place of such text. -/
inductive Token.SameButLeftOver : Token → Token → Prop
  | same (t : Token) : SameButLeftOver t t
  | leftOver (text other : String) : SameButLeftOver (.unrecognized text) (.unrecognized other)

/-- On one line the same token, but for what no rule covers. -/
structure Located.SameButLeftOver (t u : Located) : Prop where
  token : t.token.SameButLeftOver u.token
  line : u.line = t.line

theorem Located.SameButLeftOver.refl (t : Located) : t.SameButLeftOver t := ⟨.same t.token, rfl⟩

section SameButLeftOver

variable {t u : Token}

theorem Token.SameButLeftOver.alike (h : t.SameButLeftOver u) : t.Alike u := by
  cases h with
  | same => exact .refl t
  | leftOver text other => exact ⟨by simp, by simp, by simp, rfl, rfl, rfl⟩

theorem Token.SameButLeftOver.isString (h : t.SameButLeftOver u) : u.isString = t.isString := by
  cases h <;> rfl

theorem Token.SameButLeftOver.describe (h : t.SameButLeftOver u) : u.describe = t.describe := by
  cases h <;> rfl

end SameButLeftOver

/-- A reading does not ask which text no rule covers, and does not report it. -/
def besideLeftOver (mode : Mode) : Comparison where
  mode := mode
  Tokens := Located.SameButLeftOver
  Diagnostics ds es := es = ds
  refl := .refl
  alike _ _ h := h.token.alike
  silent := rfl
  missed t u h expected ds es hSame := by
    rw [hSame, Located.missed, Located.missed, h.token.describe, h.line]
  string t u h := .inl h.token.isString

section Ending

variable {left : List Char}

theorem sameButLeftOver_ending (line : UInt32) (left : List Char) :
    List.Forall₂ Located.SameButLeftOver (ending line left) (ending line (crlfChars left)) := by
  by_cases hLeft : left = []
  · subst hLeft
    exact .cons (.refl _) .nil
  · rw [ending_of_ne_nil hLeft, ending_of_ne_nil (mt Text.crlfChars_eq_nil.1 hLeft)]
    exact .cons ⟨.leftOver _ _, rfl⟩ (.cons (.refl _) .nil)

/-- The first line of what no rule covers is all that is shown of it. -/
theorem lexDiagnostics_ending (line : UInt32) (hReturn : '\r' ∉ left) :
    (ending line (crlfChars left)).filterMap Document.lexDiagnostic? =
      (ending line left).filterMap Document.lexDiagnostic? := by
  by_cases hLeft : left = []
  · subst hLeft
    rfl
  · have hShown : Document.shownText (String.ofList (crlfChars left)) =
        Document.shownText (String.ofList left) := by
      simp only [Document.shownText, String.toList_ofList, Text.lineChars_crlfChars hReturn]
    rw [ending_of_ne_nil hLeft, ending_of_ne_nil (mt Text.crlfChars_eq_nil.1 hLeft)]
    simp only [List.filterMap_cons, Document.lexDiagnostic?, hShown]

end Ending

namespace Document

theorem eq_of_sameDocument {mode : Mode} {d d' : Document}
    (h : (besideLeftOver mode).SameDocument d d') : d' = d := by
  obtain ⟨hName, hGraph, hDiagnostics, hStopped, hEffort⟩ := h
  cases d
  cases d'
  exact (mk.injEq ..).mpr ⟨hName, hGraph, hDiagnostics, hStopped, hEffort⟩

theorem ofText_crlf {options : Options} {source : String} (hReturn : '\r' ∉ source.toList)
    (hStrings : ∀ t ∈ TokenStream.ofText options.keywords source,
      t.token.isString → '\n' ∉ t.token.text) :
    ofText options (Text.crlf source) = ofText options source := by
  obtain ⟨body, line, hTokens, hOthers⟩ := Dot.ofText_crlf hStrings
  have hLeft : '\r' ∉ (pieces source.toList).2 :=
    fun hMem => hReturn ((leftOver_suffix source.toList).mem hMem)
  have hSame : List.Forall₂ Located.SameButLeftOver
      (TokenStream.ofText options.keywords source)
      (TokenStream.ofText options.keywords (Text.crlf source)) := by
    rw [hTokens, hOthers]
    exact List.rel_append (List.forall₂_same.2 fun t _ => .refl t) (sameButLeftOver_ending _ _)
  have hRead : ofTokens options.mode (TokenStream.ofText options.keywords (Text.crlf source)) =
      ofTokens options.mode (TokenStream.ofText options.keywords source) :=
    eq_of_sameDocument ((besideLeftOver options.mode).sameDocument hSame)
  simp only [ofText, hRead]
  rw [hTokens, hOthers, List.filterMap_append, lexDiagnostics_ending line hLeft,
    List.filterMap_append]

end Document

end Dot

/-! ## Both front ends -/

open Dot (Options TokenStream Document)
open ControlFlow (extract)

/-- Line endings do not matter. A listing with a carriage return in front of every newline has the
same functions and the same diagnostics, and a document has the same name, the same graph and the
same diagnostics, however it is read, if none of its strings goes over a line. -/
theorem line_endings_inert {text : String} (hReturn : '\r' ∉ text.toList) :
    extract (Text.crlf text) = extract text ∧
      ∀ options : Options,
        (∀ t ∈ TokenStream.ofText options.keywords text,
          t.token.isString → '\n' ∉ t.token.text) →
        Document.ofText options (Text.crlf text) = Document.ofText options text := by
  refine ⟨?_, fun options hStrings => Document.ofText_crlf hReturn hStrings⟩
  rw [extract, Text.lines_crlf hReturn]
  rfl

/-- A document with a comment over two lines, and behind it a listing, which no rule for tokens
covers from the name of its function on. -/
def mixedText : String :=
  "digraph G \x7b\nsize = \"1,1\"; /* a\n */ a -> b;\n\x7d\n" ++
    "define void @f() \x7b\nentry:\n  br label %x\n"

theorem line_endings_inert_mixedText :
    '\r' ∉ mixedText.toList ∧
      (∀ t ∈ TokenStream.ofText .minimal mixedText, t.token.isString → '\n' ∉ t.token.text) ∧
      TokenStream.ofText .minimal (Text.crlf mixedText) ≠ TokenStream.ofText .minimal mixedText ∧
      extract (Text.crlf mixedText) = extract mixedText ∧
      Document.ofText ⟨.minimal, .recover⟩ (Text.crlf mixedText) =
        Document.ofText ⟨.minimal, .recover⟩ mixedText :=
  have hReturn : '\r' ∉ mixedText.toList := by decide
  have hStrings : ∀ t ∈ TokenStream.ofText .minimal mixedText,
      t.token.isString → '\n' ∉ t.token.text := by decide +kernel
  have hSame := line_endings_inert hReturn
  ⟨hReturn, hStrings, by decide +kernel, hSame.1, hSame.2 ⟨.minimal, .recover⟩ hStrings⟩

end GraphMarkup
