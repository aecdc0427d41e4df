import GraphMarkup.Proofs.Dot.Moves

/-!
# What a reading is made of

`Regular places x` says how a procedure `x` is put together: of steps at single tokens, of changes
to the graph, and of rounds repeated by `loop`. An edge joins only places that were interned before
it; `places` are those known so far. Every procedure for the statements of a document is regular
(`regular_statements`), so what an induction on `Regular` proves holds of all of them at once.

The first such induction is `Regular.outcome`: a regular procedure only makes moves, halts only
in a reading that fails fast, and runs for ever only in one that recovers on a stream whose last
token is not the end of input (`Reading.Unclosed`).
-/

namespace GraphMarkup.Dot

/-- A reading that goes on after a fault, on tokens that do not end with the end of input. -/
def Reading.Unclosed (r : Reading) : Prop :=
  r.mode = .recover ∧ ∃ t ∈ r.rest.getLast?, t.token ≠ .eof

theorem Moves.unclosed_iff {r r' : Reading} (h : Moves r r') : r'.Unclosed ↔ r.Unclosed := by
  unfold Reading.Unclosed
  rw [h.mode_eq, h.getLast?_rest]

theorem Reading.not_unclosed_of_eof {r : Reading} (hEof : ∃ t ∈ r.rest.getLast?, t.token = .eof) :
    ¬ r.Unclosed := by
  rintro ⟨-, t, hLast, hToken⟩
  obtain ⟨t', hLast', hEof⟩ := hEof
  rw [Option.mem_def] at hLast hLast'
  rw [hLast, Option.some.injEq] at hLast'
  exact hToken (hLast' ▸ hEof)

/-- At the last token of a closed stream in a reading that recovers, the input is at its end. -/
theorem Reading.current_eq_eof {r : Reading} (hMode : r.mode = .recover) (hClosed : ¬ r.Unclosed)
    (hLast : r.rest.length ≤ 1) : r.current.token = .eof := by
  match hRest : r.rest with
  | [] => simp [Reading.current, hRest]
  | [t] =>
    by_contra hToken
    refine hClosed ⟨hMode, t, by simp [hRest], ?_⟩
    simpa [Reading.current, hRest] using hToken
  | _ :: _ :: _ => simp [hRest] at hLast

/-- What the attribute list gives up at, without its closing bracket. -/
def Token.endsAttributes : Token → Bool
  | .unrecognized _ => true
  | .eof => true
  | _ => false

def Reading.countAttribute (r : Reading) : Reading :=
  { r with effort.attributes := r.effort.attributes + 1 }

def Reading.countStatement (r : Reading) : Reading :=
  { r with effort.statements := r.effort.statements + 1 }

namespace Reader

variable {α β σ : Type}

/-- How a procedure is put together, given the places that are known to be in the graph. -/
inductive Regular : List VertexId → {α : Type} → Reader α → Prop
  | pure {places : List VertexId} {α : Type} (a : α) : Regular places (pure a : Reader α)
  | bind {places : List VertexId} {α β : Type} {x : Reader α} {f : α → Reader β}
      (first : Regular places x) (later : ∀ a, Regular places (f a)) : Regular places (x >>= f)
  | peek {places : List VertexId} : Regular places peek
  | advance {places : List VertexId} : Regular places advance
  | eat {places : List VertexId} (token : Token) : Regular places (eat token)
  | reportExpected {places : List VertexId} (expected : String) :
      Regular places (reportExpected expected)
  | expect {places : List VertexId} (token : Token) : Regular places (expect token)
  | expectString {places : List VertexId} : Regular places expectString
  | readName {places : List VertexId} : Regular places readName
  | count {places : List VertexId} (tick : Effort → Effort) :
      Regular places (modify fun r => { r with effort := tick r.effort } : Reader Unit)
  | setLabel {places : List VertexId} (id : VertexId) (label : String) :
      Regular places (modify fun r => { r with graph := r.graph.setLabel id label } : Reader Unit)
  | intern {places : List VertexId} {α : Type} (name : String) {f : VertexId → Reader α}
      (later : ∀ id, Regular (id :: places) (f id)) : Regular places (intern name >>= f)
  | addEdge {places : List VertexId} {src dst : VertexId} (hSrc : src ∈ places)
      (hDst : dst ∈ places) :
      Regular places (modify fun r => { r with graph := r.graph.addEdge src dst } : Reader Unit)
  | loop {places : List VertexId} {σ β : Type} {round : σ → Reader (Round σ β)}
      (rounds : ∀ s, Regular places (round s))
      (progress : ∀ s r s' r', round s r = .ok (.again s') r' → ¬ r.Unclosed →
        r'.rest.length < r.rest.length)
      (s : σ) : Regular places (loop round s)

/-- What a procedure may come to from a reading. -/
structure Outcome (r : Reading) (result : EStateM.Result Stop Reading α) : Prop where
  moves : Moves r (final result)
  halted : ∀ r', result = .error .halted r' → r.mode = .failFast
  endless : ∀ r', result = .error .endless r' → r.Unclosed

namespace Outcome

variable {r r' : Reading}

theorem ok {a : α} (h : Moves r r') : Outcome r (.ok a r') :=
  ⟨h, by simp, by simp⟩

theorem missed (h : Moves r r') (hMode : r.mode = .failFast) :
    Outcome r (.error .halted r' : EStateM.Result Stop Reading α) :=
  ⟨h, fun _ _ => hMode, by simp⟩

/-- What comes after some moves is judged as from where they started. -/
theorem after {result : EStateM.Result Stop Reading α} (h : Moves r r')
    (later : Outcome r' result) : Outcome r result where
  moves := h.trans later.moves
  halted r'' hStop := by rw [← h.mode_eq]; exact later.halted r'' hStop
  endless r'' hStop := h.unclosed_iff.1 (later.endless r'' hStop)

/-- A stop is passed on as it is. -/
theorem stop {stop : Stop} (h : Outcome r (.error stop r' : EStateM.Result Stop Reading α)) :
    Outcome r (.error stop r' : EStateM.Result Stop Reading β) where
  moves := h.moves
  halted r'' hStop := h.halted r'' (by cases hStop; rfl)
  endless r'' hStop := h.endless r'' (by cases hStop; rfl)

end Outcome

theorem outcome_bind {x : Reader α} {f : α → Reader β} {r : Reading} (hx : Outcome r (x r))
    (hf : ∀ a r', x r = .ok a r' → Outcome r' (f a r')) : Outcome r ((x >>= f) r) := by
  rw [bind_apply]
  cases hRun : x r with
  | ok a r' =>
    rw [hRun] at hx
    exact Outcome.after hx.moves (hf a r' hRun)
  | error stop r' =>
    rw [hRun] at hx
    exact hx.stop

theorem outcome_loop {P : Reading → Prop} (hP : ∀ r r', Moves r r' → P r → P r')
    {round : σ → Reader (Round σ β)} (hRound : ∀ s r, P r → Outcome r (round s r))
    (hProgress : ∀ s r s' r', round s r = .ok (.again s') r' → ¬ r.Unclosed →
      r'.rest.length < r.rest.length)
    {s : σ} {r : Reading} (hr : P r) : Outcome r (loop round s r) := by
  have hFirst := hRound s r hr
  fun_induction loop round s r with
  | case1 s r stop r' hRun =>
    rw [hRun] at hFirst
    exact hFirst.stop
  | case2 s r result r' hRun =>
    rw [hRun] at hFirst
    exact .ok hFirst.moves
  | case3 s r s' r' hRun _ ih =>
    rw [hRun] at hFirst
    have hr' : P r' := hP r r' hFirst.moves hr
    exact .after hFirst.moves (ih hr' (hRound s' r' hr'))
  | case4 s r s' r' hRun hStay =>
    rw [hRun] at hFirst
    refine ⟨hFirst.moves, by simp, fun _ _ => ?_⟩
    by_contra hClosed
    exact hStay (hProgress s r s' r' hRun hClosed)

theorem Regular.outcome {places : List VertexId} {x : Reader α} (hx : Regular places x) :
    ∀ r : Reading, (∀ id ∈ places, id < r.graph.vertexCount) → Outcome r (x r) := by
  induction hx with
  | pure a => exact fun r _ => .ok .refl
  | bind _ _ ihFirst ihLater =>
    intro r hPlaces
    have hFirst := ihFirst r hPlaces
    refine outcome_bind hFirst fun a r' hRun => ihLater a r' fun id hId => ?_
    rw [hRun] at hFirst
    exact (hPlaces id hId).trans_le hFirst.moves.vertexCount_le
  | peek => exact fun r _ => .ok .refl
  | advance => exact fun r _ => .ok (.single (.advance r))
  | eat token =>
    intro r _
    rw [eat_apply]
    split_ifs
    · exact .ok (.single (.advance r))
    · exact .ok .refl
  | reportExpected expected =>
    intro r _
    rw [reportExpected_apply]
    split_ifs with hMode
    · exact .missed (.single (.record r _)) hMode
    · exact .ok (.single (.record r _))
  | expect token =>
    intro r _
    rw [expect_apply]
    split_ifs with hToken hMode
    · exact .ok (.single (.advance r))
    · exact .missed (.single (.record r _)) hMode
    · exact .ok (.tail (.single (.record r _)) (.advance _))
  | expectString =>
    intro r _
    rw [expectString_apply]
    split_ifs with hToken hMode
    · exact .ok (.single (.advance r))
    · exact .missed (.single (.record r _)) hMode
    · exact .ok (.tail (.single (.record r _)) (.advance _))
  | readName =>
    intro r _
    rw [readName_apply]
    split
    · exact .ok (.single (.advance r))
    · split_ifs with hMode
      · exact .missed (.single (.record r _)) hMode
      · exact .ok (.single (.record r _))
  | count tick => exact fun r _ => .ok (.single (.count r _))
  | setLabel id label => exact fun r _ => .ok (.single (.setLabel r id label))
  | intern name _ ih =>
    intro r hPlaces
    have hIntern : Moves r { r with graph := (r.graph.intern name).2 } := .single (.intern r name)
    rw [bind_apply, intern_apply]
    exact .after hIntern (ih _ _ (Graph.places_lt_intern hPlaces name))
  | addEdge hSrc hDst =>
    exact fun r hPlaces => .ok (.single (.addEdge (hPlaces _ hSrc) (hPlaces _ hDst)))
  | loop _ progress s ih =>
    intro r hPlaces
    refine outcome_loop (fun r r' hMoves hPlaces id hId => ?_) ih progress hPlaces
    exact (hPlaces id hId).trans_le hMoves.vertexCount_le

theorem Regular.outcome_nil {x : Reader α} (hx : Regular [] x) (r : Reading) : Outcome r (x r) :=
  hx.outcome r fun _ hId => absurd hId List.not_mem_nil

theorem Regular.moves {x : Reader α} (hx : Regular [] x) {a : α} {r r' : Reading}
    (hRun : x r = .ok a r') : Moves r r' := by
  have hOutcome := hx.outcome_nil r
  rw [hRun] at hOutcome
  exact hOutcome.moves

theorem regular_ite {places : List VertexId} {c : Prop} [Decidable c] {x y : Reader α}
    (hx : Regular places x) (hy : Regular places y) : Regular places (if c then x else y) := by
  split
  · exact hx
  · exact hy

/-! ## Progress

A token that is expected is passed, found or not, so a round that expects one moves on unless it
started at the last token. There a closed stream has nothing but the end of input, and a reading
that fails fast cannot expect two different things of one token. -/

theorem length_lt_of_expect {token : Token} {u : Unit} {r₀ r r' : Reading} (hMoves : Moves r₀ r)
    (hRun : expect token r = .ok u r') (hLong : 1 < r₀.rest.length) :
    r'.rest.length < r₀.rest.length := by
  have hLe : r'.rest.length ≤ r.rest.length :=
    ((Regular.expect token).moves hRun).length_rest_le
  by_cases hLast : r.rest.length ≤ 1
  · omega
  · have hAdvance : r'.rest.length < r.rest.length := by
      rw [expect_apply] at hRun
      split_ifs at hRun
      · cases hRun
        exact Reading.length_rest_advance_lt (by omega)
      · cases hRun
        exact Reading.length_rest_advance_lt (r := r.miss token.describe)
          (Nat.lt_of_not_le hLast)
    exact hAdvance.trans_le hMoves.length_rest_le

theorem regular_readAttribute {places : List VertexId} (isFirst : Bool) :
    Regular places (readAttribute isFirst) := by
  have hAttribute : ∀ _ : Unit, Regular places (do
      let name ← readName
      expect (.mark .equals)
      let value ← readName
      return (name, value)) := fun _ =>
    .bind .readName fun _ => .bind (.expect _) fun _ => .bind .readName fun _ => .pure _
  exact regular_ite (hAttribute ()) (.bind (.expect _) hAttribute)

theorem readAttribute_eq_ok {isFirst : Bool} {a : String × String} {r r' : Reading} :
    readAttribute isFirst r = .ok a r' ↔
      ∃ r₁ r₂ r₃, (if isFirst then pure () else expect (.mark .comma)) r = .ok () r₁ ∧
        readName r₁ = .ok a.1 r₂ ∧ expect (.mark .equals) r₂ = .ok () r₃ ∧
        readName r₃ = .ok a.2 r' := by
  cases isFirst <;> simp only [readAttribute, bind_eq_ok, pure_apply, if_true, Bool.false_eq_true,
    if_false, EStateM.Result.ok.injEq]
  · constructor
    · rintro ⟨⟨⟩, r₁, hComma, name, r₂, hName, ⟨⟩, r₃, hEquals, value, r₄, hValue, rfl, rfl⟩
      exact ⟨r₁, r₂, r₃, hComma, hName, hEquals, hValue⟩
    · rintro ⟨r₁, r₂, r₃, hComma, hName, hEquals, hValue⟩
      exact ⟨(), r₁, hComma, a.1, r₂, hName, (), r₃, hEquals, a.2, r', hValue, rfl, rfl⟩
  · constructor
    · rintro ⟨name, r₂, hName, ⟨⟩, r₃, hEquals, value, r₄, hValue, rfl, rfl⟩
      exact ⟨r, r₂, r₃, ⟨trivial, rfl⟩, hName, hEquals, hValue⟩
    · rintro ⟨r₁, r₂, r₃, ⟨-, rfl⟩, hName, hEquals, hValue⟩
      exact ⟨a.1, r₂, hName, (), r₃, hEquals, a.2, r', hValue, rfl, rfl⟩

theorem attributeRound_apply (attributes : Attributes) (r : Reading) :
    attributeRound attributes r =
      if r.current.token = .mark .rightBracket then
        .ok (.leave attributes) r.countAttribute.advance
      else if r.current.token.endsAttributes then
        .ok (.leave attributes) r.countAttribute
      else
        (readAttribute attributes.isEmpty >>= fun a => pure (.again (a :: attributes)))
          r.countAttribute := by
  have hCurrent : r.countAttribute.current = r.current := rfl
  show (eat (.mark .rightBracket) >>= _) r.countAttribute = _
  rw [bind_apply, eat_apply, hCurrent]
  split_ifs with hClosed hEnd
  · rfl
  · show (peek >>= _) r.countAttribute = _
    rw [bind_apply, peek_apply, hCurrent]
    cases hToken : r.current.token <;> simp_all [Token.endsAttributes]
  · show (peek >>= _) r.countAttribute = _
    rw [bind_apply, peek_apply, hCurrent]
    cases hToken : r.current.token <;> simp_all [Token.endsAttributes]

theorem attributeRound_eq_again {attributes newer : Attributes} {r r' : Reading}
    (hRun : attributeRound attributes r = .ok (.again newer) r') :
    r.current.token ≠ .mark .rightBracket ∧ ¬ r.current.token.endsAttributes ∧
      ∃ a, newer = a :: attributes ∧
        readAttribute attributes.isEmpty r.countAttribute = .ok a r' := by
  rw [attributeRound_apply] at hRun
  split_ifs at hRun with hClosed hEnd
  · cases hRun
  · cases hRun
  · obtain ⟨a, r'', hAttribute, hPure⟩ := bind_eq_ok.1 hRun
    cases hPure
    exact ⟨hClosed, hEnd, a, rfl, hAttribute⟩

/-- A round that read an attribute has moved on, or goes on after a fault at the last token. -/
theorem attributeRound_moves_on {attributes newer : Attributes} {r r' : Reading}
    (hRun : attributeRound attributes r = .ok (.again newer) r') :
    r'.rest.length < r.rest.length ∨ (r.mode = .recover ∧ r.rest.length ≤ 1) := by
  obtain ⟨-, -, a, -, hAttribute⟩ := attributeRound_eq_again hRun
  obtain ⟨r₁, r₂, r₃, hComma, hName, hEquals, hValue⟩ := readAttribute_eq_ok.1 hAttribute
  have hMoves₁ : Moves r r₁ := .head (.count r _)
    ((regular_ite (.pure ()) (.expect _)).moves hComma)
  have hMoves₂ : Moves r₁ r₂ := Regular.readName.moves hName
  by_cases hLong : 1 < r.rest.length
  · have hPassed := length_lt_of_expect (hMoves₁.trans hMoves₂) hEquals hLong
    exact Or.inl ((Regular.readName.moves hValue).length_rest_le.trans_lt hPassed)
  refine Or.inr ⟨?_, Nat.le_of_not_lt hLong⟩
  cases hMode : r.mode with
  | recover => rfl
  | failFast =>
    have hMode₁ : r₁.mode = .failFast := hMoves₁.mode_eq.trans hMode
    have hLast : r₁.rest.length ≤ 1 := hMoves₁.length_rest_le.trans (Nat.le_of_not_lt hLong)
    obtain ⟨hIsName, hStay⟩ := (readName_eq_ok hMode₁).1 hName
    rw [Reading.advance_eq_of_length_le hLast] at hStay
    subst hStay
    rw [((expect_eq_ok hMode₁).1 hEquals).1] at hIsName
    cases hIsName

theorem progress_attributeRound (attributes : Attributes) (r : Reading) (newer : Attributes)
    (r' : Reading) (hRun : attributeRound attributes r = .ok (.again newer) r')
    (hClosed : ¬ r.Unclosed) : r'.rest.length < r.rest.length := by
  rcases attributeRound_moves_on hRun with hLt | ⟨hMode, hLast⟩
  · exact hLt
  · have hOpen := (attributeRound_eq_again hRun).2.1
    rw [Reading.current_eq_eof hMode hClosed hLast] at hOpen
    exact absurd rfl hOpen

theorem regular_attributeRound {places : List VertexId} (attributes : Attributes) :
    Regular places (attributeRound attributes) := by
  refine .bind (.count fun e => { e with attributes := e.attributes + 1 }) fun _ => ?_
  refine .bind (.eat _) fun isClosed => regular_ite (.pure _) (.bind .peek fun token => ?_)
  split
  · exact .pure _
  · exact .pure _
  · exact .bind (regular_readAttribute _) fun _ => .pure _

/-! ## Statements -/

theorem regular_readAttributes {places : List VertexId} : Regular places readAttributes :=
  .bind (.expect _) fun _ => .loop regular_attributeRound progress_attributeRound _

theorem regular_readDirective {places : List VertexId} : Regular places readDirective :=
  .bind .advance fun _ => .bind (.expect _) fun _ => .expectString

theorem regular_readTarget {places : List VertexId} {src : VertexId} (hSrc : src ∈ places) :
    Regular places (readTarget src) := by
  refine .bind (.eat _) fun isEdge => regular_ite ?_ (.pure _)
  refine .bind .readName fun name => .intern name fun dst => ?_
  exact .bind (.addEdge (List.mem_cons_of_mem _ hSrc) List.mem_cons_self) fun _ => .pure _

theorem regular_readLabel {places : List VertexId} (src : VertexId) (isEdge : Bool) :
    Regular places (readLabel src isEdge) := by
  refine .bind .peek fun token => regular_ite ?_ (.pure _)
  refine .bind regular_readAttributes fun attributes => regular_ite (.pure _) ?_
  split
  · exact .setLabel _ _
  · exact .pure _

theorem regular_readVertices {places : List VertexId} : Regular places readVertices :=
  .bind .readName fun name => .intern name fun src =>
    .bind (regular_readTarget List.mem_cons_self) fun isEdge => regular_readLabel src isEdge

theorem regular_readStatement {places : List VertexId} : Regular places readStatement := by
  refine .bind .peek fun token => ?_
  split
  · exact regular_ite regular_readDirective regular_readVertices
  · exact regular_readVertices

theorem statementRound_apply (u : Unit) (r : Reading) :
    statementRound u r =
      if r.current.token = .mark .rightBrace then .ok (.leave ()) r.countStatement.advance
      else if r.current.token = .eof then
        (reportExpected (Token.mark .rightBrace).describe >>= fun _ => pure (.leave ()))
          r.countStatement
      else
        (readStatement >>= fun _ => expect (.mark .semicolon) >>= fun _ => pure (.again ()))
          r.countStatement := by
  have hCurrent : r.countStatement.current = r.current := rfl
  show (eat (.mark .rightBrace) >>= _) r.countStatement = _
  rw [bind_apply, eat_apply, hCurrent]
  split_ifs with hClosed hEnd
  · rfl
  · show (peek >>= _) r.countStatement = _
    rw [bind_apply, peek_apply, hCurrent]
    simp [hEnd]
  · show (peek >>= _) r.countStatement = _
    rw [bind_apply, peek_apply, hCurrent]
    simp [hEnd]

theorem statementRound_eq_again {u u' : Unit} {r r' : Reading}
    (hRun : statementRound u r = .ok (.again u') r') :
    r.current.token ≠ .mark .rightBrace ∧ r.current.token ≠ .eof ∧
      ∃ r'', readStatement r.countStatement = .ok () r'' ∧
        expect (.mark .semicolon) r'' = .ok () r' := by
  rw [statementRound_apply] at hRun
  split_ifs at hRun with hClosed hEnd
  · cases hRun
  · obtain ⟨-, r'', -, hPure⟩ := bind_eq_ok.1 hRun
    cases hPure
  · obtain ⟨⟨⟩, r'', hStatement, hLater⟩ := bind_eq_ok.1 hRun
    obtain ⟨⟨⟩, r₃, hSemicolon, hPure⟩ := bind_eq_ok.1 hLater
    cases hPure
    exact ⟨hClosed, hEnd, r'', hStatement, hSemicolon⟩

/-- A reading that fails fast does not take a semicolon for a statement. -/
theorem readStatement_ne_ok_of_semicolon {r r' : Reading} (hMode : r.mode = .failFast)
    (hToken : r.current.token = .mark .semicolon) : readStatement r ≠ .ok () r' := by
  intro hRun
  obtain ⟨token, r₁, hPeek, hVertices⟩ := bind_eq_ok.1 hRun
  rw [peek_apply, hToken] at hPeek
  cases hPeek
  obtain ⟨name, r₂, hName, -⟩ := bind_eq_ok.1 hVertices
  have hIsName := ((readName_eq_ok hMode).1 hName).1
  rw [hToken] at hIsName
  cases hIsName

/-- A round that read a statement has moved on, or goes on after a fault at the last token. -/
theorem statementRound_moves_on {u u' : Unit} {r r' : Reading}
    (hRun : statementRound u r = .ok (.again u') r') :
    r'.rest.length < r.rest.length ∨ (r.mode = .recover ∧ r.rest.length ≤ 1) := by
  obtain ⟨-, -, r'', hStatement, hSemicolon⟩ := statementRound_eq_again hRun
  have hMoves : Moves r r'' := .head (.count r _) (regular_readStatement.moves hStatement)
  by_cases hLong : 1 < r.rest.length
  · exact Or.inl (length_lt_of_expect hMoves hSemicolon hLong)
  refine Or.inr ⟨?_, Nat.le_of_not_lt hLong⟩
  cases hMode : r.mode with
  | recover => rfl
  | failFast =>
    have hToken := ((expect_eq_ok (hMoves.mode_eq.trans hMode)).1 hSemicolon).1
    rw [Reading.current, hMoves.rest_eq_of_length_le (Nat.le_of_not_lt hLong)] at hToken
    exact absurd hStatement
      (readStatement_ne_ok_of_semicolon (r := r.countStatement) hMode hToken)

theorem progress_statementRound (u : Unit) (r : Reading) (u' : Unit) (r' : Reading)
    (hRun : statementRound u r = .ok (.again u') r') (hClosed : ¬ r.Unclosed) :
    r'.rest.length < r.rest.length := by
  rcases statementRound_moves_on hRun with hLt | ⟨hMode, hLast⟩
  · exact hLt
  · exact absurd (Reading.current_eq_eof hMode hClosed hLast) (statementRound_eq_again hRun).2.1

theorem regular_statementRound {places : List VertexId} (u : Unit) :
    Regular places (statementRound u) := by
  refine .bind (.count fun e => { e with statements := e.statements + 1 }) fun _ => ?_
  refine .bind (.eat _) fun isClosed => regular_ite (.pure _) (.bind .peek fun token => ?_)
  refine regular_ite (.bind (.reportExpected _) fun _ => .pure _) ?_
  exact .bind regular_readStatement fun _ => .bind (.expect _) fun _ => .pure _

theorem regular_statements {places : List VertexId} : Regular places (loop statementRound ()) :=
  .loop regular_statementRound progress_statementRound _

end Reader

end GraphMarkup.Dot
