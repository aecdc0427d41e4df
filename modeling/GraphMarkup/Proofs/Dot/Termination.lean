import GraphMarkup.Proofs.Dot.Layout
import GraphMarkup.Proofs.Dot.Regular

/-!
# Which readings come to an end

`loop` stops as soon as a round has not moved on. Here its rounds are repeated with nothing to stop
them: `Ends` says that this comes to an end, and `loop_attributeRound_endless_iff` and
`loop_statementRound_endless_iff` say that `loop` stops as endless exactly when it does not. So
`Stop.endless` is no limit of this library, it stands for rounds without end.

The main result is `terminates_iff_last_token`: a reading that fails fast always comes to an
end, a reading that recovers does so on no tokens and on any tokens with the end of input at
the end, and no other last token can promise it (`not_terminates_truncated`).
-/

namespace GraphMarkup.Dot

namespace Reader

variable {α β σ : Type}

/-- Rounds repeated with nothing to stop them come to an end, by a way out or by halting. A round
that is itself without end has none. -/
inductive Ends (round : σ → Reader (Round σ β)) : σ → Reading → Prop
  | leave {s : σ} {r r' : Reading} {result : β} (hRun : round s r = .ok (.leave result) r') :
      Ends round s r
  | halt {s : σ} {r r' : Reading} (hRun : round s r = .error .halted r') : Ends round s r
  | again {s s' : σ} {r r' : Reading} (hRun : round s r = .ok (.again s') r')
      (later : Ends round s' r') : Ends round s r

theorem ends_of_loop {round : σ → Reader (Round σ β)} {s : σ} {r : Reading}
    (h : ∀ r', loop round s r ≠ .error .endless r') : Ends round s r := by
  fun_induction loop round s r with
  | case1 s r stop r' hRun =>
    cases stop with
    | halted => exact .halt hRun
    | endless => exact absurd rfl (h r')
  | case2 s r result r' hRun => exact .leave hRun
  | case3 s r s' r' hRun _ ih => exact .again hRun (ih h)
  | case4 s r s' r' hRun _ => exact absurd rfl (h r')

/-- Readings from which every round leads to another one of them, or is itself without end. -/
def Trap (round : σ → Reader (Round σ β)) (P : Reading → Prop) : Prop :=
  ∀ s r, P r → (∃ s' r', round s r = .ok (.again s') r' ∧ P r') ∨
    ∃ r', round s r = .error .endless r'

theorem Trap.not_ends {round : σ → Reader (Round σ β)} {P : Reading → Prop}
    (hTrap : Trap round P) {s : σ} {r : Reading} (hr : P r) : ¬ Ends round s r := by
  intro hEnds
  induction hEnds with
  | @leave s r _ _ hRun =>
    rcases hTrap s r hr with ⟨s', r', hNext, -⟩ | ⟨r', hNext⟩
    · rw [hRun] at hNext
      cases hNext
    · rw [hRun] at hNext
      cases hNext
  | @halt s r _ hRun =>
    rcases hTrap s r hr with ⟨s', r', hNext, -⟩ | ⟨r', hNext⟩
    · rw [hRun] at hNext
      cases hNext
    · rw [hRun] at hNext
      cases hNext
  | @again s _ r _ hRun _ ih =>
    rcases hTrap s r hr with ⟨s', r', hNext, hr'⟩ | ⟨r', hNext⟩
    · rw [hRun] at hNext
      cases hNext
      exact ih hr'
    · rw [hRun] at hNext
      cases hNext

/-- Where a round that does not move on falls into a trap, `loop` is endless as its rounds are. -/
theorem loop_endless_iff {round : σ → Reader (Round σ β)} {P : Reading → Prop}
    (hTrap : Trap round P)
    (hFall : ∀ s r s' r', round s r = .ok (.again s') r' →
      r'.rest.length < r.rest.length ∨ P r') (s : σ) (r : Reading) :
    (∃ r', loop round s r = .error .endless r') ↔ ¬ Ends round s r := by
  constructor
  · rintro ⟨r', hLoop⟩ hEnds
    induction hEnds with
    | leave hRun =>
      rw [loop, hRun] at hLoop
      cases hLoop
    | halt hRun =>
      rw [loop, hRun] at hLoop
      cases hLoop
    | @again s s' r r'' hRun later ih =>
      rw [loop, hRun] at hLoop
      simp only at hLoop
      split_ifs at hLoop with hLt
      · exact ih hLoop
      · exact hTrap.not_ends ((hFall s r s' r'' hRun).resolve_left hLt) later
  · intro hEnds
    by_contra hLoop
    exact hEnds (ends_of_loop fun r' hRun => hLoop ⟨r', hRun⟩)

/-! ## At the last token -/

section Recover

variable {r : Reading} (hMode : r.mode = .recover)

include hMode

theorem exists_expect_eq_ok (token : Token) : ∃ r', expect token r = .ok () r' := by
  have hNot : ¬ r.mode = .failFast := by simp [hMode]
  rw [expect_apply, if_neg hNot]
  split_ifs
  · exact ⟨_, rfl⟩
  · exact ⟨_, rfl⟩

theorem exists_readName_eq_ok : ∃ name r', readName r = .ok name r' := by
  have hNot : ¬ r.mode = .failFast := by simp [hMode]
  rw [readName_apply, if_neg hNot]
  split
  · exact ⟨_, _, rfl⟩
  · exact ⟨_, _, rfl⟩

theorem exists_readAttribute_eq_ok (isFirst : Bool) :
    ∃ a r', readAttribute isFirst r = .ok a r' := by
  obtain ⟨r₁, hComma⟩ :
      ∃ r₁, (if isFirst then pure () else expect (.mark .comma)) r = .ok () r₁ := by
    cases isFirst with
    | true => exact ⟨r, rfl⟩
    | false => exact exists_expect_eq_ok hMode _
  have hMoves₁ := (regular_ite (.pure ()) (.expect _)).moves hComma
  have hMode₁ := hMoves₁.mode_eq.trans hMode
  obtain ⟨name, r₂, hName⟩ := exists_readName_eq_ok hMode₁
  have hMode₂ := (Regular.readName.moves hName).mode_eq.trans hMode₁
  obtain ⟨r₃, hEquals⟩ := exists_expect_eq_ok hMode₂ (.mark .equals)
  have hMode₃ := ((Regular.expect _).moves hEquals).mode_eq.trans hMode₂
  obtain ⟨value, r₄, hValue⟩ := exists_readName_eq_ok hMode₃
  exact ⟨(name, value), r₄, readAttribute_eq_ok.2 ⟨r₁, r₂, r₃, hComma, hName, hEquals, hValue⟩⟩

end Recover

/-- At a last token that a list does not end with, in a reading that recovers. -/
structure StuckAtLast (ending : Token → Prop) (r : Reading) : Prop where
  mode : r.mode = .recover
  last : r.rest.length ≤ 1
  goesOn : ¬ ending r.current.token

theorem StuckAtLast.of_moves {ending : Token → Prop} {r r' : Reading}
    (h : StuckAtLast ending r) (hMoves : Moves r r') : StuckAtLast ending r' where
  mode := hMoves.mode_eq.trans h.mode
  last := hMoves.length_rest_le.trans h.last
  goesOn := by
    rw [Reading.current, hMoves.rest_eq_of_length_le h.last]
    exact h.goesOn

/-- What the attribute list ends with. -/
def EndsAttributeList (t : Token) : Prop := t = .mark .rightBracket ∨ t.endsAttributes

/-- What the statement list ends with. -/
def EndsStatementList (t : Token) : Prop := t = .mark .rightBrace ∨ t = .eof

theorem trap_attributeRound : Trap attributeRound (StuckAtLast EndsAttributeList) := by
  intro attributes r hStuck
  have hOpen := hStuck.goesOn
  simp only [EndsAttributeList, not_or] at hOpen
  have hMode : r.countAttribute.mode = .recover := hStuck.mode
  obtain ⟨a, r', hAttribute⟩ := exists_readAttribute_eq_ok hMode attributes.isEmpty
  have hMoves : Moves r r' := .head (.count r _) ((regular_readAttribute _).moves hAttribute)
  refine Or.inl ⟨a :: attributes, r', ?_, hStuck.of_moves hMoves⟩
  rw [attributeRound_apply, if_neg hOpen.1, if_neg hOpen.2, bind_apply, hAttribute]
  rfl

theorem trap_statementRound : Trap statementRound (StuckAtLast EndsStatementList) := by
  intro u r hStuck
  have hOpen := hStuck.goesOn
  simp only [EndsStatementList, not_or] at hOpen
  have hOutcome := (regular_statementRound u).outcome_nil r
  cases hRun : statementRound u r with
  | error stop r' =>
    rw [hRun] at hOutcome
    cases stop with
    | halted =>
      have hMode := hOutcome.halted r' rfl
      rw [hStuck.mode] at hMode
      cases hMode
    | endless => exact Or.inr ⟨r', rfl⟩
  | ok way r' =>
    rw [hRun] at hOutcome
    rw [statementRound_apply, if_neg hOpen.1, if_neg hOpen.2] at hRun
    obtain ⟨-, r₁, -, hLater⟩ := bind_eq_ok.1 hRun
    obtain ⟨-, r₂, -, hPure⟩ := bind_eq_ok.1 hLater
    cases hPure
    exact Or.inl ⟨(), r', rfl, hStuck.of_moves hOutcome.moves⟩

theorem loop_attributeRound_endless_iff (attributes : Attributes) (r : Reading) :
    (∃ r', loop attributeRound attributes r = .error .endless r')
      ↔ ¬ Ends attributeRound attributes r := by
  refine loop_endless_iff trap_attributeRound (fun s r s' r' hRun => ?_) attributes r
  rcases attributeRound_moves_on hRun with hLt | ⟨hMode, hLast⟩
  · exact Or.inl hLt
  · obtain ⟨hClosed, hEnd, -⟩ := attributeRound_eq_again hRun
    have hStuck : StuckAtLast EndsAttributeList r :=
      ⟨hMode, hLast, not_or.2 ⟨hClosed, hEnd⟩⟩
    exact Or.inr (hStuck.of_moves ((regular_attributeRound s).moves hRun))

theorem loop_statementRound_endless_iff (u : Unit) (r : Reading) :
    (∃ r', loop statementRound u r = .error .endless r') ↔ ¬ Ends statementRound u r := by
  refine loop_endless_iff trap_statementRound (fun s r s' r' hRun => ?_) u r
  rcases statementRound_moves_on hRun with hLt | ⟨hMode, hLast⟩
  · exact Or.inl hLt
  · obtain ⟨hClosed, hEnd, -⟩ := statementRound_eq_again hRun
    have hStuck : StuckAtLast EndsStatementList r :=
      ⟨hMode, hLast, not_or.2 ⟨hClosed, hEnd⟩⟩
    exact Or.inr (hStuck.of_moves ((regular_statementRound s).moves hRun))

end Reader

/-! ## Whole readings -/

namespace Document

open Reader

/-- The statement list of a reading, if the reading gets to it, comes to an end. -/
def Terminates (mode : Mode) (tokens : TokenStream) : Prop :=
  ∀ r, readHeader { mode := mode, rest := tokens } = .ok () r → Ends statementRound () r

theorem expect_ne_endless (token : Token) (r r' : Reading) :
    expect token r ≠ .error .endless r' := by
  rw [expect_apply]
  split_ifs <;> simp

theorem readHeader_ne_endless (r r' : Reading) : readHeader r ≠ .error .endless r' := by
  simp only [readHeader, bind_apply, modify_apply]
  cases hKeyword : expect (.keyword .digraph) r with
  | error stop r₁ =>
    intro hStop
    cases hStop
    exact expect_ne_endless _ _ _ hKeyword
  | ok u r₁ =>
    simp only [readName_apply]
    split
    next name r₂ _ => exact expect_ne_endless _ _ _
    next stop r₂ hName =>
      intro hStop
      cases hStop
      split at hName
      · cases hName
      · split_ifs at hName
        cases hName

theorem readHeader_eq_ok {u : Unit} {r r' : Reading} :
    readHeader r = .ok u r' ↔
      ∃ r₁ name r₂, expect (.keyword .digraph) r = .ok () r₁ ∧ readName r₁ = .ok name r₂ ∧
        expect (.mark .leftBrace) { r₂ with name := some name } = .ok () r' := by
  simp only [readHeader, bind_eq_ok, modify_apply, EStateM.Result.ok.injEq]
  constructor
  · rintro ⟨⟨⟩, r₁, hKeyword, name, r₂, hName, ⟨⟩, r₃, ⟨-, rfl⟩, hBrace⟩
    exact ⟨r₁, name, r₂, hKeyword, hName, hBrace⟩
  · rintro ⟨r₁, name, r₂, hKeyword, hName, hBrace⟩
    exact ⟨(), r₁, hKeyword, name, r₂, hName, (), _, ⟨trivial, rfl⟩, hBrace⟩

theorem unclosed_of_readHeader {r r' : Reading} (hRun : readHeader r = .ok () r') :
    r'.Unclosed ↔ r.Unclosed := by
  obtain ⟨r₁, name, r₂, hKeyword, hName, hBrace⟩ := readHeader_eq_ok.1 hRun
  rw [((Regular.expect _).moves hBrace).unclosed_iff,
    ← ((Regular.expect _).moves hKeyword).unclosed_iff,
    ← (Regular.readName.moves hName).unclosed_iff]
  rfl

theorem stopped_eq_endless_iff (mode : Mode) (tokens : TokenStream) :
    (ofTokens mode tokens).stopped = some .endless ↔ ¬ Terminates mode tokens := by
  unfold ofTokens Terminates
  simp only [readDocument, bind_apply]
  cases hHeader : readHeader { mode := mode, rest := tokens } with
  | error stop r =>
    cases stop with
    | halted => simp
    | endless => exact absurd hHeader (readHeader_ne_endless _ _)
  | ok u r =>
    have hEnds := loop_statementRound_endless_iff () r
    simp only [EStateM.Result.ok.injEq, true_and, forall_eq']
    rw [← hEnds]
    cases hLoop : loop statementRound () r with
    | error stop r' => cases stop <;> simp
    | ok u r' =>
      simp only
      cases hEof : expect .eof r' with
      | ok u r'' => simp
      | error stop r'' =>
        cases stop with
        | halted => simp
        | endless => exact absurd hEof (expect_ne_endless _ _ _)

/-- A reading of a closed stream, and one that fails fast, comes to an end. -/
theorem terminates_of_not_unclosed {mode : Mode} {tokens : TokenStream}
    (hClosed : ¬ ({ mode := mode, rest := tokens } : Reading).Unclosed) :
    Terminates mode tokens := by
  intro r hHeader
  refine ends_of_loop fun r' hRun => hClosed ?_
  rw [← unclosed_of_readHeader hHeader]
  exact (regular_statements.outcome_nil r).endless r' hRun

theorem terminates_of_eof {mode : Mode} {tokens : TokenStream}
    (hEof : ∃ t ∈ tokens.getLast?, t.token = .eof) : Terminates mode tokens :=
  terminates_of_not_unclosed (Reading.not_unclosed_of_eof hEof)

theorem terminates_ofText (mode : Mode) (ks : KeywordSet) (source : String) :
    Terminates mode (TokenStream.ofText ks source) :=
  terminates_of_eof (TokenStream.getLast?_ofText ks source)

theorem stopped_ofText_ne_endless (options : Options) (source : String) :
    (ofText options source).stopped ≠ some .endless := by
  show (ofTokens options.mode (TokenStream.ofText options.keywords source)).stopped ≠ _
  rw [ne_eq, stopped_eq_endless_iff, not_not]
  exact terminates_ofText _ _ _

/-- The beginning of a document, up to its opening brace. -/
def opening : TokenStream :=
  [⟨.keyword .digraph, 1⟩, ⟨.ident "G", 1⟩, ⟨.mark .leftBrace, 1⟩]

theorem not_terminates_opening {last : Located} (hEof : last.token ≠ .eof)
    (hBrace : last.token ≠ .mark .rightBrace) :
    ¬ Terminates .recover (opening ++ [last]) := by
  intro hEnds
  have hStuck : StuckAtLast EndsStatementList
      { mode := .recover, rest := [last], name := some "G" } :=
    ⟨rfl, le_rfl, not_or.2 ⟨hBrace, hEof⟩⟩
  exact trap_statementRound.not_ends hStuck (hEnds _ rfl)

/-- The closing brace of a document does not end an attribute list. -/
theorem not_terminates_attributes {last : Located} (hBrace : last.token = .mark .rightBrace) :
    ¬ Terminates .recover
      (opening ++ [⟨.ident "a", 1⟩, ⟨.mark .leftBracket, 1⟩] ++ [last]) := by
  intro hEnds
  let r : Reading :=
    { mode := .recover, name := some "G", rest := [⟨.ident "a", 1⟩, ⟨.mark .leftBracket, 1⟩, last] }
  let named : Reading := { r.countStatement.advance with graph := (r.graph.intern "a").2 }
  have hOpen : ¬ EndsAttributeList named.advance.current.token := by
    show ¬ EndsAttributeList last.token
    rw [hBrace]
    simp [EndsAttributeList, Token.endsAttributes]
  have hStuck : StuckAtLast EndsAttributeList named.advance := ⟨rfl, le_rfl, hOpen⟩
  obtain ⟨r', hLoop⟩ :=
    (loop_attributeRound_endless_iff [] named.advance).2 (trap_attributeRound.not_ends hStuck)
  have hLabel : readLabel 0 false named = .error .endless r' := by
    show (readAttributes >>= _) named = _
    exact bind_of_error ((bind_of_ok rfl).trans hLoop)
  have hVertices : readVertices r.countStatement = .error .endless r' :=
    (bind_of_ok rfl).trans ((bind_of_ok rfl).trans ((bind_of_ok rfl).trans hLabel))
  have hRound : statementRound () r = .error .endless r' := by
    rw [statementRound_apply, if_neg (by simp [r, Reading.current]),
      if_neg (by simp [r, Reading.current])]
    exact bind_of_error hVertices
  cases hEnds r rfl with
  | leave hRun => rw [hRound] at hRun; cases hRun
  | halt hRun => rw [hRound] at hRun; cases hRun
  | again hRun => rw [hRound] at hRun; cases hRun

/-- Reading comes to an end whatever the tokens if it fails fast, and on no tokens if it recovers.
On some tokens it is their last one that decides: the end of input makes every reading end, and
any other token ends some stream that is read for ever. -/
theorem terminates_iff_last_token :
    (∀ mode tokens, Terminates mode tokens ↔ (ofTokens mode tokens).stopped ≠ some .endless) ∧
      (∀ tokens, Terminates .failFast tokens) ∧
      Terminates .recover [] ∧
      ∀ last : Located, (∀ before, Terminates .recover (before ++ [last])) ↔ last.token = .eof := by
  refine ⟨fun mode tokens => ?_, fun tokens => ?_, ?_, fun last => ⟨fun hEnds => ?_, ?_⟩⟩
  · rw [ne_eq, stopped_eq_endless_iff, not_not]
  · exact terminates_of_not_unclosed fun hUnclosed => by cases hUnclosed.1
  · exact terminates_of_not_unclosed fun hUnclosed => by simp [Reading.Unclosed] at hUnclosed
  · by_contra hEof
    by_cases hBrace : last.token = .mark .rightBrace
    · exact not_terminates_attributes hBrace (hEnds _)
    · exact not_terminates_opening hEof hBrace (hEnds _)
  · intro hEof before
    refine terminates_of_not_unclosed fun hUnclosed => ?_
    obtain ⟨t, hLast, hToken⟩ := hUnclosed.2
    rw [List.getLast?_concat, Option.mem_some_iff] at hLast
    exact hToken (hLast ▸ hEof)

/-- A document that breaks off after a bare word, without the end of input, is read for ever. -/
theorem not_terminates_truncated : ¬ Terminates .recover (opening ++ [⟨.ident "a", 1⟩]) :=
  not_terminates_opening (by simp) (by simp)

end Document

end GraphMarkup.Dot
