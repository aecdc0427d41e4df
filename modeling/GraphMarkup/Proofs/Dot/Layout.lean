import GraphMarkup.Dot.TokenStream
import GraphMarkup.Proofs.Dot.Pieces

/-!
# How tokens lie in a text

A text is laid out as tokens with gaps between them: `Placed` is a token with the gap in front of
it, `printed` the text of a list of them, and `numbered` gives each token the line that its text
starts on. A gap is made of blanks and comments, and its pieces stand for no token.

`place` puts the pieces of a text together to placed tokens and a last gap. `locate_eq` says that
the line counter of `locate` is right at every piece, by induction on the pieces with the text in
front of them as a variable: wherever a token starts, the counter is one more than the newlines
before it, in thirty-two bits.

The main result is `ofText_lossless`: the tokens of every text and the gaps between them make up the
text, on the right lines. What no rule covers is the text of one last token.
-/

namespace GraphMarkup.Dot

/-! ## Gaps -/

/-- A text of blank characters and comments. -/
inductive IsGap : List Char → Prop
  | nil : IsGap []
  | blank {c : Char} {cs : List Char} (hBlank : Text.isBlank c) (rest : IsGap cs) : IsGap (c :: cs)
  | comment {body cs : List Char} (hBody : ¬ commentEnd <:+: body) (rest : IsGap cs) :
      IsGap ('/' :: '*' :: body ++ commentEnd ++ cs)

theorem IsGap.append {cs ds : List Char} (h : IsGap cs) (h' : IsGap ds) : IsGap (cs ++ ds) := by
  induction h with
  | nil => exact h'
  | blank hBlank _ ih => exact .blank hBlank ih
  | comment hBody _ ih =>
    rw [List.append_assoc]
    exact .comment hBody ih

/-! ## Tokens in a text -/

/-- The text of a token. The end of input has none. -/
def Token.text : Token → List Char
  | .ident text => text.toList
  | .str text => '"' :: text.toList ++ ['"']
  | .keyword k => k.word.toList
  | .mark m => m.text.toList
  | .unrecognized text => text.toList
  | .eof => []

/-- What a token may be under some reserved words: a name that is spelled like one and not reserved,
a reserved word, a string without quotes in it, or a mark. -/
def Token.Legal (ks : KeywordSet) : Token → Prop
  | .ident text => IsWord text.toList ∧ ∀ k, ks.contains k → text ≠ k.word
  | .str text => '"' ∉ text.toList
  | .keyword k => ks.contains k
  | .mark _ => True
  | .unrecognized _ => False
  | .eof => False

def Token.isUnrecognized : Token → Bool
  | .unrecognized _ => true
  | _ => false

/-- A token and the gap in front of it. -/
structure Placed where
  gap : List Char
  token : Token
deriving DecidableEq, Repr

/-- The text of placed tokens. -/
def printed (ps : List Placed) : List Char := ps.flatMap fun p => p.gap ++ p.token.text

/-- The line on which the text after `before` starts. -/
def lineAt (before : List Char) : Nat := 1 + Text.newlines before

/-- Tokens, each with the line on which its text starts, where `before` is the text in front. -/
def numbered (before : List Char) : List Placed → List (Token × Nat)
  | [] => []
  | p :: ps =>
    (p.token, lineAt (before ++ p.gap)) :: numbered (before ++ p.gap ++ p.token.text) ps

/-- A located token with its line as a number. -/
def Located.numbered (t : Located) : Token × Nat := (t.token, t.line.toNat)

theorem printed_cons (p : Placed) (ps : List Placed) :
    printed (p :: ps) = p.gap ++ p.token.text ++ printed ps := rfl

theorem numbered_concat (before : List Char) (ps : List Placed) (p : Placed) :
    numbered before (ps ++ [p]) =
      numbered before ps ++ [(p.token, lineAt (before ++ printed ps ++ p.gap))] := by
  induction ps generalizing before with
  | nil => simp [numbered, printed]
  | cons q qs ih => simp [numbered, printed_cons, ih]

/-! ## From pieces to placed tokens -/

namespace Piece

variable {ks : KeywordSet} {q : Piece} {t : Token} {word : List Char} {k : Keyword}

theorem token?_word_of_some (h : ks.lookup (String.ofList word) = some k) :
    (Piece.word word).token? ks = some (.keyword k) := by
  simp only [token?, h]

theorem token?_word_of_none (h : ks.lookup (String.ofList word) = none) :
    (Piece.word word).token? ks = some (.ident (String.ofList word)) := by
  simp only [token?, h]

theorem text_of_token? (hToken : q.token? ks = some t) : t.text = q.text := by
  cases q with
  | word word =>
    cases hLookup : ks.lookup (String.ofList word) with
    | some k =>
      rw [token?_word_of_some hLookup] at hToken
      cases hToken
      have hWord := (KeywordSet.lookup_eq_some.1 hLookup).1
      simp only [Token.text, Piece.text, ← hWord, String.toList_ofList]
    | none =>
      rw [token?_word_of_none hLookup] at hToken
      cases hToken
      simp only [Token.text, Piece.text, String.toList_ofList]
  | string body =>
    cases hToken
    simp only [Token.text, Piece.text, String.toList_ofList]
  | mark m =>
    cases hToken
    rfl
  | blank | comment => cases hToken

/-- A legal piece stands for a legal token. -/
theorem legal_of_token? (hLegal : q.Legal) (hToken : q.token? ks = some t) : t.Legal ks := by
  cases q with
  | word word =>
    cases hLookup : ks.lookup (String.ofList word) with
    | some k =>
      rw [token?_word_of_some hLookup] at hToken
      cases hToken
      exact (KeywordSet.lookup_eq_some.1 hLookup).2
    | none =>
      rw [token?_word_of_none hLookup] at hToken
      cases hToken
      refine ⟨by rw [String.toList_ofList]; exact hLegal, fun k hReserved hWord => ?_⟩
      rw [KeywordSet.lookup_eq_some.2 ⟨hWord, hReserved⟩] at hLookup
      cases hLookup
  | string body =>
    cases hToken
    have hBody : '"' ∉ body := hLegal
    simpa only [Token.Legal, String.toList_ofList] using hBody
  | mark m =>
    cases hToken
    trivial
  | blank | comment => cases hToken

theorem isGap_text (hLegal : q.Legal) (hToken : q.token? ks = none) : IsGap q.text := by
  cases q with
  | word word =>
    cases hLookup : ks.lookup (String.ofList word) with
    | some k =>
      rw [token?_word_of_some hLookup] at hToken
      cases hToken
    | none =>
      rw [token?_word_of_none hLookup] at hToken
      cases hToken
  | string | mark => cases hToken
  | blank c => exact .blank hLegal .nil
  | comment body =>
    have hGap := IsGap.comment hLegal .nil
    rwa [List.append_nil] at hGap

end Piece

/-- Pieces put together to placed tokens and a last gap, where `gap` is what has been seen of the
first gap. -/
def place (ks : KeywordSet) (gap : List Char) : List Piece → List Placed × List Char
  | [] => ([], gap)
  | q :: qs =>
    match q.token? ks with
    | some t => (⟨gap, t⟩ :: (place ks [] qs).1, (place ks [] qs).2)
    | none => place ks (gap ++ q.text) qs

section Place

variable {ks : KeywordSet} {q : Piece} {t : Token}

theorem place_of_some (hToken : q.token? ks = some t) (gap : List Char) (qs : List Piece) :
    place ks gap (q :: qs) = (⟨gap, t⟩ :: (place ks [] qs).1, (place ks [] qs).2) := by
  rw [place, hToken]

theorem place_of_none (hToken : q.token? ks = none) (gap : List Char) (qs : List Piece) :
    place ks gap (q :: qs) = place ks (gap ++ q.text) qs := by
  rw [place, hToken]

theorem printed_place (ks : KeywordSet) (gap : List Char) (qs : List Piece) :
    printed (place ks gap qs).1 ++ (place ks gap qs).2 = gap ++ qs.flatMap Piece.text := by
  induction qs generalizing gap with
  | nil => simp [place, printed]
  | cons q qs ih =>
    cases hToken : q.token? ks with
    | some t =>
      rw [place_of_some hToken, printed_cons, Piece.text_of_token? hToken, List.append_assoc, ih]
      simp
    | none =>
      rw [place_of_none hToken, ih]
      simp

theorem isGap_place (ks : KeywordSet) {gap : List Char} {qs : List Piece} (hGap : IsGap gap)
    (hLegal : ∀ q ∈ qs, q.Legal) :
    (∀ p ∈ (place ks gap qs).1, IsGap p.gap) ∧ IsGap (place ks gap qs).2 := by
  induction qs generalizing gap with
  | nil => exact ⟨by simp [place], hGap⟩
  | cons q qs ih =>
    obtain ⟨hFirst, hLater⟩ := List.forall_mem_cons.1 hLegal
    cases hToken : q.token? ks with
    | some t =>
      rw [place_of_some hToken]
      obtain ⟨hGaps, hLast⟩ := ih .nil hLater
      exact ⟨List.forall_mem_cons.2 ⟨hGap, hGaps⟩, hLast⟩
    | none =>
      rw [place_of_none hToken]
      exact ih (hGap.append (Piece.isGap_text hFirst hToken)) hLater

theorem legal_place (ks : KeywordSet) (gap : List Char) {qs : List Piece}
    (hLegal : ∀ q ∈ qs, q.Legal) : ∀ p ∈ (place ks gap qs).1, p.token.Legal ks := by
  induction qs generalizing gap with
  | nil => simp [place]
  | cons q qs ih =>
    obtain ⟨hFirst, hLater⟩ := List.forall_mem_cons.1 hLegal
    cases hToken : q.token? ks with
    | some t =>
      rw [place_of_some hToken]
      exact List.forall_mem_cons.2 ⟨Piece.legal_of_token? hFirst hToken, ih [] hLater⟩
    | none =>
      rw [place_of_none hToken]
      exact ih (gap ++ q.text) hLater

end Place

/-! ## Lines -/

theorem newlines_lt_of_append {cs ds : List Char} {n : Nat}
    (h : Text.newlines (cs ++ ds) < n) : Text.newlines cs < n := by
  rw [Text.newlines_append] at h
  omega

/-- A line as it is counted. -/
def lineOf (before : List Char) : UInt32 := UInt32.ofNat (lineAt before)

theorem lineOf_nil : lineOf [] = 1 := rfl

theorem lineAfter_lineOf (before : List Char) (q : Piece) :
    q.lineAfter (lineOf before) = lineOf (before ++ q.text) := by
  simp only [Piece.lineAfter, lineOf, lineAt, Text.newlines_append, ← Nat.add_assoc]
  exact (UInt32.ofNat_add _ _).symm

theorem toNat_lineOf {before : List Char} (hShort : Text.newlines before < UInt32.size - 1) :
    (lineOf before).toNat = lineAt before := by
  unfold lineOf lineAt
  rw [UInt32.toNat_ofNat_of_lt']
  show 1 + Text.newlines before < UInt32.size
  omega

/-- Placed tokens with their lines as they are counted. -/
def located (before : List Char) : List Placed → TokenStream
  | [] => []
  | p :: ps =>
    ⟨p.token, lineOf (before ++ p.gap)⟩ :: located (before ++ p.gap ++ p.token.text) ps

/-- Wherever a token starts, the counter has counted the newlines in front of it. -/
theorem locate_eq (ks : KeywordSet) (before gap : List Char) (qs : List Piece) :
    locate ks (lineOf (before ++ gap)) qs =
      (located before (place ks gap qs).1, lineOf (before ++ gap ++ qs.flatMap Piece.text)) := by
  induction qs generalizing before gap with
  | nil => simp [locate, place, located]
  | cons q qs ih =>
    rw [locate, lineAfter_lineOf]
    cases hToken : q.token? ks with
    | some t =>
      have hLater := ih (before ++ gap ++ q.text) []
      rw [List.append_nil] at hLater
      rw [place_of_some hToken, hLater, located, Piece.text_of_token? hToken]
      simp
    | none =>
      have hLater := ih before (gap ++ q.text)
      rw [← List.append_assoc] at hLater
      rw [place_of_none hToken, hLater]
      simp

theorem map_numbered_located {before : List Char} {ps : List Placed}
    (hShort : Text.newlines (before ++ printed ps) < UInt32.size - 1) :
    (located before ps).map Located.numbered = numbered before ps := by
  induction ps generalizing before with
  | nil => rfl
  | cons p ps ih =>
    rw [printed_cons, ← List.append_assoc, ← List.append_assoc] at hShort
    have hGap : Text.newlines (before ++ p.gap) < UInt32.size - 1 :=
      newlines_lt_of_append (newlines_lt_of_append hShort)
    rw [located, List.map_cons, ih hShort, numbered, Located.numbered, toNat_lineOf hGap]

/-! ## The whole text -/

theorem ofText_eq (ks : KeywordSet) (source : String) :
    TokenStream.ofText ks source =
      located [] (place ks [] (pieces source.toList).1).1 ++
        ending (lineOf ((pieces source.toList).1.flatMap Piece.text)) (pieces source.toList).2 := by
  have hLocate := locate_eq ks [] [] (pieces source.toList).1
  rw [List.append_nil, lineOf_nil, List.nil_append] at hLocate
  simp only [TokenStream.ofText, hLocate]

theorem Piece.token?_ne_eof (ks : KeywordSet) (q : Piece) : q.token? ks ≠ some .eof := by
  cases q with
  | word word => cases hLookup : ks.lookup (String.ofList word) <;> simp [token?, hLookup]
  | string | mark | blank | comment => simp [token?]

theorem token_ne_eof_of_mem_locate {ks : KeywordSet} {line : UInt32} {qs : List Piece} {t : Located}
    (hMem : t ∈ (locate ks line qs).1) : t.token ≠ .eof := by
  induction qs generalizing line with
  | nil => cases hMem
  | cons q qs ih =>
    rw [locate] at hMem
    cases hToken : q.token? ks with
    | none =>
      simp only [hToken] at hMem
      exact ih hMem
    | some token =>
      simp only [hToken] at hMem
      rcases List.mem_cons.1 hMem with rfl | hLater
      · exact fun hEof => q.token?_ne_eof ks (hToken.trans (congrArg some hEof))
      · exact ih hLater

/-- The end of input stands at the end of a stream and nowhere else. -/
theorem TokenStream.exists_ofText_eq (ks : KeywordSet) (source : String) :
    ∃ body line, ofText ks source = body ++ [⟨.eof, line⟩] ∧ ∀ t ∈ body, t.token ≠ .eof := by
  have hBody : ∀ t ∈ (locate ks 1 (pieces source.toList).1).1, t.token ≠ .eof :=
    fun t => token_ne_eof_of_mem_locate
  simp only [ofText, ending]
  split_ifs with hLeft
  · exact ⟨_, _, rfl, hBody⟩
  · refine ⟨_, _, List.append_cons _ _ _, ?_⟩
    exact List.forall_mem_append.2 ⟨hBody, by simp⟩

theorem TokenStream.ofText_ne_nil (ks : KeywordSet) (source : String) : ofText ks source ≠ [] := by
  obtain ⟨body, line, hStream, -⟩ := exists_ofText_eq ks source
  simp [hStream]

theorem TokenStream.getLast?_ofText (ks : KeywordSet) (source : String) :
    ∃ t ∈ (ofText ks source).getLast?, t.token = .eof := by
  obtain ⟨body, line, hStream, -⟩ := exists_ofText_eq ks source
  exact ⟨⟨.eof, line⟩, by simp [hStream], rfl⟩

/-- A token stream covers a text: its tokens and the gaps between them make up the text, each on
the line on which it starts. What no rule covers is the last token and reaches to the end of the
text, and the end of input is on its line then. -/
structure TokenStream.Covers (ks : KeywordSet) (stream : TokenStream) (source : List Char)
    (ps : List Placed) (last : List Char) : Prop where
  text : source = printed ps ++ last
  gaps : ∀ p ∈ ps, IsGap p.gap
  lastGap : IsGap last
  tokens : ∀ p ∈ ps, p.token.Legal ks ∨ p.token.isUnrecognized
  leftOver : ∀ before p after, ps = before ++ p :: after → p.token.isUnrecognized →
    after = [] ∧ last = []
  lines : ∃ line, stream.map Located.numbered = numbered [] ps ++ [(.eof, line)] ∧
    ((∀ p ∈ ps, ¬ p.token.isUnrecognized) → line = lineAt source) ∧
    ∀ t ∈ numbered [] ps, t.1.isUnrecognized → line = t.2

theorem Token.Legal.not_isUnrecognized {ks : KeywordSet} {t : Token} (h : t.Legal ks) :
    ¬ t.isUnrecognized := by
  cases t with
  | unrecognized => exact h.elim
  | _ => exact Bool.false_ne_true

theorem not_isUnrecognized_of_mem_numbered {ks : KeywordSet} {before : List Char}
    {ps : List Placed} {t : Token × Nat} (hLegal : ∀ p ∈ ps, p.token.Legal ks)
    (hMem : t ∈ numbered before ps) : ¬ t.1.isUnrecognized := by
  induction ps generalizing before with
  | nil => cases hMem
  | cons p ps ih =>
    obtain ⟨hFirst, hLater⟩ := List.forall_mem_cons.1 hLegal
    rcases List.mem_cons.1 hMem with rfl | hRest
    · exact hFirst.not_isUnrecognized
    · exact ih hLater hRest

section Covers

variable {ks : KeywordSet} {source : List Char} {ps : List Placed} {last : List Char}

/-- A text without anything left over is covered by its tokens. -/
theorem covers_of_legal (hText : source = printed ps ++ last) (hGaps : ∀ p ∈ ps, IsGap p.gap)
    (hLast : IsGap last) (hLegal : ∀ p ∈ ps, p.token.Legal ks)
    (hShort : Text.newlines source < UInt32.size - 1) :
    TokenStream.Covers ks (located [] ps ++ [⟨.eof, lineOf source⟩]) source ps last where
  text := hText
  gaps := hGaps
  lastGap := hLast
  tokens p hp := Or.inl (hLegal p hp)
  leftOver before p after hSplit hUnrecognized := by
    have hp : p ∈ ps := by rw [hSplit]; simp
    exact absurd hUnrecognized (hLegal p hp).not_isUnrecognized
  lines := by
    have hPrinted : Text.newlines ([] ++ printed ps) < UInt32.size - 1 :=
      newlines_lt_of_append (hText ▸ hShort)
    refine ⟨lineAt source, ?_, fun _ => rfl, fun t hMem hUnrecognized => ?_⟩
    · rw [List.map_append, map_numbered_located hPrinted, ← toNat_lineOf hShort]
      rfl
    · exact absurd hUnrecognized (not_isUnrecognized_of_mem_numbered hLegal hMem)

/-- What is left over of a text is one more token at its end. -/
theorem covers_of_leftOver {left : List Char} (hText : source = printed ps ++ last ++ left)
    (hGaps : ∀ p ∈ ps, IsGap p.gap) (hLast : IsGap last)
    (hLegal : ∀ p ∈ ps, p.token.Legal ks) (hShort : Text.newlines source < UInt32.size - 1) :
    TokenStream.Covers ks
      (located [] ps ++ [⟨.unrecognized (String.ofList left), lineOf (printed ps ++ last)⟩,
        ⟨.eof, lineOf (printed ps ++ last)⟩])
      source (ps ++ [⟨last, .unrecognized (String.ofList left)⟩]) [] where
  text := by
    rw [hText]
    simp [printed, Token.text]
  gaps := List.forall_mem_append.2 ⟨hGaps, List.forall_mem_singleton.2 hLast⟩
  lastGap := .nil
  tokens := List.forall_mem_append.2
    ⟨fun p hp => Or.inl (hLegal p hp), List.forall_mem_singleton.2 (Or.inr rfl)⟩
  leftOver before p after hSplit hUnrecognized := by
    refine ⟨?_, rfl⟩
    rcases List.eq_nil_or_concat after with rfl | ⟨later, q, rfl⟩
    · rfl
    · have hInit : ps = before ++ p :: later := by
        rw [List.concat_eq_append, ← List.cons_append, ← List.append_assoc] at hSplit
        exact (List.append_inj' hSplit rfl).1
      have hp : p ∈ ps := by rw [hInit]; simp
      exact absurd hUnrecognized (hLegal p hp).not_isUnrecognized
  lines := by
    have hBefore : Text.newlines (printed ps ++ last) < UInt32.size - 1 :=
      newlines_lt_of_append (hText ▸ hShort)
    have hPrinted : Text.newlines ([] ++ printed ps) < UInt32.size - 1 :=
      newlines_lt_of_append hBefore
    refine ⟨lineAt (printed ps ++ last), ?_, fun hNone => ?_, fun t hMem hUnrecognized => ?_⟩
    · rw [List.map_append, map_numbered_located hPrinted, numbered_concat, ← toNat_lineOf hBefore,
        List.nil_append, ← toNat_lineOf hBefore, List.append_assoc]
      rfl
    · exact absurd rfl (hNone ⟨last, .unrecognized (String.ofList left)⟩ (by simp))
    · rw [numbered_concat] at hMem
      rcases List.mem_append.1 hMem with hOld | hNew
      · exact absurd hUnrecognized (not_isUnrecognized_of_mem_numbered hLegal hOld)
      · rw [List.mem_singleton.1 hNew]
        rfl

end Covers

/-- Nothing of a text is lost when it becomes tokens, and every token has its line. -/
theorem ofText_lossless (ks : KeywordSet) (source : String)
    (hShort : Text.newlines source.toList < UInt32.size - 1) :
    ∃ ps last, (TokenStream.ofText ks source).Covers ks source.toList ps last := by
  let qs := (pieces source.toList).1
  let left := (pieces source.toList).2
  have hLegal : ∀ q ∈ qs, q.Legal := fun q hq => Piece.legal_of_mem_pieces hq
  obtain ⟨hGaps, hLast⟩ := isGap_place ks .nil hLegal
  have hTokens := legal_place ks [] hLegal
  have hPlaced : printed (place ks [] qs).1 ++ (place ks [] qs).2 = qs.flatMap Piece.text :=
    printed_place ks [] qs
  have hText : source.toList = qs.flatMap Piece.text ++ left :=
    (texts_append_pieces source.toList).symm
  rw [ofText_eq, ending]
  split
  next hEmpty =>
    have hLeft : left = [] := List.isEmpty_iff.1 hEmpty
    rw [hLeft, List.append_nil] at hText
    rw [← hText]
    exact ⟨_, _, covers_of_legal (hText.trans hPlaced.symm) hGaps hLast hTokens hShort⟩
  next hLeft =>
    rw [← hPlaced] at hText ⊢
    exact ⟨_, _, covers_of_leftOver hText hGaps hLast hTokens hShort⟩

/-- A comment and a string over two lines each, and a character that no rule knows. -/
def strayText : String := "digraph/* \n**/\"/*\n\" size_ ? a"

theorem covers_strayText :
    Text.newlines strayText.toList < UInt32.size - 1 ∧
      ∃ ps last, (TokenStream.ofText .minimal strayText).Covers .minimal strayText.toList ps last :=
  ⟨by decide, ofText_lossless .minimal strayText (by decide)⟩

end GraphMarkup.Dot
