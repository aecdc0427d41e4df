import GraphMarkup.Proofs.Dot.Accounts
import GraphMarkup.Proofs.Dot.Termination

/-!
# The effort of a reading

On a stream that ends with the end of input a reading is through after no more rounds than there are
tokens, and reports no more than two diagnostics for each token and three besides
(`effort_bounded`).

Diagnostics are counted in a reading that recovers, since one that fails fast reports at most one. A
missed name is reported without going on, so a token can be reported more than once. But where a
name may be missed, a token that is expected comes next, found or not; going over it pays for both.
The load of a reading is the number of its diagnostics with two more for each token left
(`Reading.load`); it grows by one with a missed name, and falls by at least one with a token that is
expected. At the last token nothing pays any more, and each thing expected may cost one: `Laden k e`
bounds the load by `k` before the last token and by `e` at it. What is missed at the end of input,
in the middle of an attribute, makes for the three besides.
-/

namespace GraphMarkup.Dot

/-- The diagnostics so far, with two more for each token left. -/
def Reading.load (r : Reading) : Nat := r.diagnostics.size + 2 * r.rest.length

namespace Reader

/-- A reading that recovers, with a load of no more than `inside` before the last token and of no
more than `atLast` at it. -/
structure Laden (inside atLast : Int) (r : Reading) : Prop where
  mode : r.mode = .recover
  ends : r.EndsInEof
  inside : 1 < r.rest.length → (r.load : Int) ≤ inside
  atLast : r.rest.length = 1 → (r.load : Int) ≤ atLast

section Laden

variable {k e k' e' : Int} {r : Reading}

theorem Laden.mono (h : Laden k e r) (hInside : k ≤ k') (hLast : e ≤ e') : Laden k' e' r := by
  refine ⟨h.mode, h.ends, fun hLong => ?_, fun hOne => ?_⟩
  · have hLoad := h.inside hLong
    omega
  · have hLoad := h.atLast hOne
    omega

theorem Laden.not_failFast (h : Laden k e r) : ¬ r.mode = .failFast := by
  simp [h.mode]

/-- Neither the graph, the name nor the rounds weigh anything. -/
theorem Laden.of_eq (h : Laden k e r) {r' : Reading} (hMode : r'.mode = r.mode)
    (hRest : r'.rest = r.rest) (hDiagnostics : r'.diagnostics = r.diagnostics) :
    Laden k e r' := by
  have hLoad : r'.load = r.load := by rw [Reading.load, Reading.load, hRest, hDiagnostics]
  refine ⟨hMode.trans h.mode, ?_, ?_, ?_⟩
  · rw [Reading.endsInEof_iff, hRest]
    exact Reading.endsInEof_iff.1 h.ends
  · rw [hRest, hLoad]
    exact h.inside
  · rw [hRest, hLoad]
    exact h.atLast

/-- The last token is the end of input, so at another one there is no bound to keep. -/
theorem Laden.of_ne_eof (h : Laden k e r) (hNe : r.current.token ≠ .eof) : Laden k e' r := by
  refine ⟨h.mode, h.ends, h.inside, fun hOne => absurd ?_ hNe⟩
  exact Reading.current_eq_eof h.mode h.ends.not_unclosed hOne.le

theorem Laden.record (h : Laden k e r) (message : String) :
    Laden (k + 1) (e + 1) (r.record message) := by
  have hLoad : (r.record message).load = r.load + 1 := by
    simp only [Reading.load, Reading.record, Array.size_push]
    omega
  refine ⟨h.mode, h.ends, fun hLong => ?_, fun hOne => ?_⟩
  · have hInside := h.inside hLong
    omega
  · have hLast := h.atLast hOne
    omega

/-- Going over a token takes two from the load; the last token is not gone over. -/
theorem Laden.advance (h : Laden k e r) : Laden (k - 2) (max (k - 2) e) r.advance := by
  have hMoves : Moves r r.advance := .single (.advance r)
  have hPos := h.ends.length_rest_pos
  by_cases hLong : 1 < r.rest.length
  · have hInside := h.inside hLong
    have hLength := Reading.length_rest_advance hLong
    have hLoad : r.load = r.advance.load + 2 := by
      simp only [Reading.load, r.diagnostics_advance]
      omega
    exact ⟨hMoves.mode_eq.trans h.mode, h.ends.of_moves hMoves, fun _ => by omega,
      fun _ => by omega⟩
  · have hLast := h.atLast (by omega)
    rw [Reading.advance_eq_of_length_le (by omega)]
    exact ⟨h.mode, h.ends, fun hLong' => absurd hLong' hLong, fun _ => by omega⟩

/-- A token in front of the last one is paid for in full. -/
theorem Laden.pass (h : Laden k e r) (hNe : r.current.token ≠ .eof) :
    Laden (k - 2) (k - 2) r.advance := by
  have hFree : Laden k (k - 2) r := h.of_ne_eof hNe
  exact hFree.advance.mono (by omega) (by omega)

end Laden

/-! ## Procedures -/

/-- Started with one load, a procedure that gets through leaves another. -/
abbrev Loads {α : Type} (k e : Int) (x : Reader α) (k' e' : Int) : Prop :=
  Meets (Laden k e) x (fun _ => Laden k' e') fun _ => True

section Procedures

variable {k e k' e' : Int}

theorem Loads.weaken {α : Type} {x : Reader α} {k₁ e₁ : Int} (h : Loads k e x k₁ e₁)
    (hInside : k₁ ≤ k') (hLast : e₁ ≤ e') : Loads k e x k' e' :=
  h.mono (fun _ h => h) (fun _ _ h => h.mono hInside hLast) fun _ h => h

theorem Loads.bind {α β : Type} {x : Reader α} {f : α → Reader β} {k₁ e₁ : Int}
    (hx : Loads k e x k₁ e₁) (hf : ∀ a, Loads k₁ e₁ (f a) k' e') : Loads k e (x >>= f) k' e' :=
  Meets.bind hx hf

theorem loads_pure {α : Type} (a : α) : Loads k e (pure a) k e :=
  meets_pure fun _ h => h

theorem loads_reportExpected (expected : String) :
    Loads k e (reportExpected expected) (k + 1) (e + 1) := by
  intro r hr
  rw [reportExpected_apply, if_neg hr.not_failFast]
  exact hr.record _

theorem loads_expect (token : Token) : Loads k e (expect token) (k - 1) (max (k - 1) (e + 1)) := by
  intro r hr
  rw [expect_apply, if_neg hr.not_failFast]
  split_ifs
  · exact hr.advance.mono (by omega) (by omega)
  · exact (hr.record _).advance.mono (by omega) (by omega)

theorem loads_expectString : Loads k e expectString (k - 1) (max (k - 1) (e + 1)) := by
  intro r hr
  rw [expectString_apply, if_neg hr.not_failFast]
  split_ifs
  · exact hr.advance.mono (by omega) (by omega)
  · exact (hr.record _).advance.mono (by omega) (by omega)

theorem loads_readName : Loads k e readName (k + 1) (max (k - 2) (e + 1)) := by
  intro r hr
  rw [readName_apply, if_neg hr.not_failFast]
  split
  · exact hr.advance.mono (by omega) (by omega)
  · exact (hr.record _).mono (by omega) (by omega)

theorem loads_intern (name : String) : Loads k e (intern name) k e :=
  meets_intern fun _ h => h.of_eq rfl rfl rfl

/-- The equals sign pays for one of the two names. -/
theorem loads_readAttribute_first :
    Loads k e (readAttribute true) (k + 1) (max (k + 1) (e + 3)) := by
  have hAttribute : Loads k e (readAttribute true) _ _ :=
    loads_readName.bind fun _ => (loads_expect _).bind fun _ =>
      loads_readName.bind fun _ => loads_pure _
  exact hAttribute.weaken (by omega) (by omega)

/-- The comma pays for the other one. -/
theorem loads_readAttribute_later :
    Loads k e (readAttribute false) k (max (k + 2) (e + 4)) := by
  have hAttribute : Loads k e (readAttribute false) _ _ :=
    (loads_expect _).bind fun _ => loads_readAttribute_first
  exact hAttribute.weaken (by omega) (by omega)

/-- The load in front of a round. The first attribute is read without a comma. -/
def RoundLaden (k e : Int) : Attributes → Reading → Prop
  | [] => Laden k e
  | _ :: _ => Laden (k + 1) (max e (k + 3))

theorem loads_attributeRound (attributes : Attributes) :
    Meets (RoundLaden k e attributes) (attributeRound attributes)
      (RoundLands (RoundLaden k e) fun _ => Laden (k + 1) (max e (k + 3))) fun _ => True := by
  intro r hr
  have hLaden : Laden (k + 1) (max e (k + 3)) r := by
    cases attributes with
    | nil => exact Laden.mono hr (by omega) (by omega)
    | cons => exact hr
  have hCounted : Laden (k + 1) (max e (k + 3)) r.countAttribute := hLaden.of_eq rfl rfl rfl
  rw [attributeRound_apply]
  split_ifs with hClosed hEnd
  · exact hCounted.advance.mono (by omega) (by omega)
  · exact hCounted
  · have hNe : r.countAttribute.current.token ≠ .eof := fun hEof => hEnd (by
      show r.countAttribute.current.token.endsAttributes
      rw [hEof]
      rfl)
    -- At this token nothing is asked of the bound at the last one, so it may start low again.
    have hRead : Lands (fun _ => Laden (k + 1) (max e (k + 3))) (fun _ => True)
        (readAttribute attributes.isEmpty r.countAttribute) := by
      cases attributes with
      | nil =>
        have hFirst : Laden k e r.countAttribute := Laden.of_eq hr rfl rfl rfl
        have hFree : Laden k (k - 2) r.countAttribute := hFirst.of_ne_eof hNe
        exact loads_readAttribute_first.weaken (by omega) (by omega) _ hFree
      | cons =>
        have hFree : Laden (k + 1) (k - 1) r.countAttribute := hCounted.of_ne_eof hNe
        exact loads_readAttribute_later.weaken (by omega) (by omega) _ hFree
    exact hRead.bind fun _ => meets_pure fun _ h => h

/-- The bracket pays for the name that is missed in excess. -/
theorem loads_readAttributes :
    Meets (fun r => Laden k e r ∧ r.current.token = .mark .leftBracket) readAttributes
      (fun _ => Laden k (max e (k + 1))) fun _ => True := by
  rintro r ⟨hr, hBracket⟩
  have hPassed : RoundLaden (k - 2) (k - 2) [] r.advance := hr.pass (by rw [hBracket]; simp)
  have hAttributes := meets_loop (fun _ _ _ => trivial) loads_attributeRound [] _ hPassed
  rw [readAttributes_of_leftBracket hBracket]
  exact hAttributes.mono (fun _ _ h => h.mono (by omega) (by omega)) fun _ h => h

theorem loads_readLabel (src : VertexId) (isEdge : Bool) :
    Loads k e (readLabel src isEdge) k (max e (k + 1)) := by
  intro r hr
  rw [readLabel_apply]
  split_ifs with hBracket
  · exact (loads_readAttributes r ⟨hr, hBracket⟩).bind fun attributes =>
      meets_modify fun _ h => h.of_eq rfl rfl rfl
  · exact hr.mono (by omega) (by omega)

/-- The arrow pays for the name that comes after it. -/
theorem loads_readTarget (src : VertexId) :
    Loads k e (readTarget src) k (max e (k - 1)) := by
  intro r hr
  rw [readTarget_apply]
  split_ifs with hArrow
  · have hPassed : Laden (k - 2) (k - 2) r.advance := hr.pass (by rw [hArrow]; simp)
    have hName : Loads (k - 2) (k - 2) readName k (max e (k - 1)) :=
      loads_readName.weaken (by omega) (by omega)
    refine Lands.bind (hName _ hPassed) fun name => (loads_intern name).bind fun dst => ?_
    exact .bind (meets_modify fun _ h => h.of_eq rfl rfl rfl) fun _ => loads_pure _
  · exact hr.mono (by omega) (by omega)

theorem loads_readVertices : Loads k (k - 3) readVertices (k + 1) (k + 2) := by
  have hVertices : Loads k (k - 3) readVertices _ _ :=
    loads_readName.bind fun name => (loads_intern name).bind fun src =>
      (loads_readTarget src).bind fun isEdge => loads_readLabel src isEdge
  exact hVertices.weaken (by omega) (by omega)

theorem loads_advance : Loads k e advance (k - 2) (max (k - 2) e) :=
  meets_modify fun _ h => h.advance

theorem loads_readDirective : Loads k (k - 3) readDirective (k + 1) (k + 2) := by
  have hDirective : Loads k (k - 3) readDirective _ _ :=
    loads_advance.bind fun _ => (loads_expect _).bind fun _ => loads_expectString
  exact hDirective.weaken (by omega) (by omega)

theorem loads_readStatement : Loads k (k - 3) readStatement (k + 1) (k + 2) := by
  intro r hr
  rw [readStatement_apply]
  split_ifs
  · exact loads_readDirective r hr
  · exact loads_readVertices r hr

/-- The semicolon pays for the name that a statement starts with. -/
theorem loads_statementRound (hLast : k + 3 ≤ e) (u : Unit) :
    Meets (Laden k e) (statementRound u)
      (RoundLands (fun _ => Laden k e) fun _ => Laden (k + 1) (e + 1)) fun _ => True := by
  intro r hr
  have hCounted : Laden k e r.countStatement := hr.of_eq rfl rfl rfl
  rw [statementRound_apply]
  split_ifs with hClosed hEnd
  · exact hCounted.advance.mono (by omega) (by omega)
  · exact Lands.bind (loads_reportExpected _ _ hCounted) fun _ => meets_pure fun _ h => h
  · have hFree : Laden k (k - 3) r.countStatement := hCounted.of_ne_eof hEnd
    have hSemicolon : Loads (k + 1) (k + 2) (expect (.mark .semicolon)) k e :=
      (loads_expect _).weaken (by omega) (by omega)
    exact Lands.bind (loads_readStatement _ hFree) fun _ => Meets.bind hSemicolon fun _ =>
      meets_pure fun _ h => h

theorem loads_readDocument : Loads k k readDocument (k - 1) (k + 5) := by
  have hTitle : Loads k k readHeader _ _ :=
    (loads_expect _).bind fun _ => loads_readName.bind fun name =>
      Loads.bind (meets_modify fun _ h => h.of_eq rfl rfl rfl) fun _ => loads_expect _
  have hHeader : Loads k k readHeader (k - 1) (k + 3) := hTitle.weaken (by omega) (by omega)
  have hRounds : Loads (k - 1) (k + 3) (loop statementRound ()) _ _ :=
    meets_loop (fun _ _ _ => trivial) (loads_statementRound (by omega)) ()
  have hLoop : Loads (k - 1) (k + 3) (loop statementRound ()) k (k + 4) :=
    hRounds.weaken (by omega) (by omega)
  have hDocument : Loads k k readDocument _ _ :=
    hHeader.bind fun _ => hLoop.bind fun _ => loads_expect _
  exact hDocument.weaken (by omega) (by omega)

end Procedures

end Reader

/-! ## Whole readings -/

namespace Document

open Reader

theorem length_diagnostics_recover {tokens : TokenStream}
    (hEof : ∃ t ∈ tokens.getLast?, t.token = .eof) :
    (ofTokens .recover tokens).diagnostics.length ≤ 2 * tokens.length + 3 := by
  obtain ⟨r, hRun, -⟩ := readDocument_cases hEof
  have hStart : Laden (2 * tokens.length) (2 * tokens.length)
      { mode := .recover, rest := tokens } := by
    refine ⟨rfl, Reading.endsInEof_iff.2 hEof, fun _ => ?_, fun _ => ?_⟩
    all_goals simp [Reading.load]
  have hFinal : Laden (2 * tokens.length - 1) (2 * tokens.length + 5) r := by
    have hLands := loads_readDocument _ hStart
    rwa [hRun] at hLands
  have hLoad : r.load = r.diagnostics.toList.length + 2 * r.rest.length := rfl
  have hPos := hFinal.ends.length_rest_pos
  rw [ofTokens_of_ok hRun]
  show r.diagnostics.toList.length ≤ 2 * tokens.length + 3
  by_cases hLong : 1 < r.rest.length
  · have hInside := hFinal.inside hLong
    omega
  · have hLast := hFinal.atLast (by omega)
    omega

theorem length_diagnostics_failFast {tokens : TokenStream}
    (hEof : ∃ t ∈ tokens.getLast?, t.token = .eof) :
    (ofTokens .failFast tokens).diagnostics.length ≤ 1 := by
  obtain ⟨r, -, hCases⟩ := readDocument_cases hEof
  rcases hCases with ⟨hFast, hSilent⟩ | ⟨fault, d, hFast, hFault, -, -⟩
  · rw [ofTokens_of_ok hFast]
    simp [Reading.failingFast, hSilent]
  · rw [ofTokens_of_error hFast]
    simp [hFault]

/-- On tokens that end with the end of input, reading comes to an end after no more rounds of the
statement list than there are tokens, and no more rounds of all attribute lists together, and
reports no more than twice as many diagnostics and three. The tokens of a text are of this kind. -/
theorem effort_bounded :
    (∀ mode tokens, (∃ t ∈ tokens.getLast?, t.token = .eof) →
      Terminates mode tokens ∧ (ofTokens mode tokens).stopped ≠ some .endless ∧
        (ofTokens mode tokens).effort.statements ≤ tokens.length ∧
        (ofTokens mode tokens).effort.attributes ≤ tokens.length ∧
        (ofTokens mode tokens).diagnostics.length ≤ 2 * tokens.length + 3) ∧
      ∀ options source, Terminates options.mode (TokenStream.ofText options.keywords source) ∧
        (ofText options source).stopped ≠ some .endless := by
  refine ⟨fun mode tokens hEof => ?_, fun options source => ?_⟩
  · have hTerminates : Terminates mode tokens := terminates_of_eof hEof
    obtain ⟨hStatements, hAttributes, -⟩ := accounts_readDocument mode hEof
    have hDiagnostics : (ofTokens mode tokens).diagnostics.length ≤ 2 * tokens.length + 3 := by
      cases mode with
      | recover => exact length_diagnostics_recover hEof
      | failFast =>
        have hOne := length_diagnostics_failFast hEof
        omega
    obtain ⟨stopped, hDocument⟩ := ofTokens_eq_final mode tokens
    refine ⟨hTerminates, ?_, ?_, ?_, hDiagnostics⟩
    · rwa [ne_eq, stopped_eq_endless_iff, not_not]
    · rw [hDocument]
      exact hStatements
    · rw [hDocument]
      exact hAttributes
  · exact ⟨terminates_ofText _ _ _, stopped_ofText_ne_endless options source⟩

/-- A word, and brackets where nothing of the kind is expected. -/
def misplaced : TokenStream :=
  [⟨.ident "a", 1⟩, ⟨.mark .leftBracket, 1⟩, ⟨.mark .leftBracket, 1⟩, ⟨.mark .leftBracket, 1⟩,
    ⟨.mark .leftBracket, 1⟩, ⟨.eof, 1⟩]

theorem effort_bounded_misplaced :
    (∃ t ∈ misplaced.getLast?, t.token = .eof) ∧
      (ofTokens .recover misplaced).diagnostics.length = 13 ∧
      Terminates .recover misplaced ∧
      (ofTokens .recover misplaced).effort.statements ≤ misplaced.length ∧
      (ofTokens .recover misplaced).effort.attributes ≤ misplaced.length ∧
      (ofTokens .recover misplaced).diagnostics.length ≤ 2 * misplaced.length + 3 := by
  have hEof : ∃ t ∈ misplaced.getLast?, t.token = .eof := ⟨⟨.eof, 1⟩, rfl, rfl⟩
  obtain ⟨hTerminates, -, hStatements, hAttributes, hDiagnostics⟩ :=
    effort_bounded.1 .recover misplaced hEof
  exact ⟨hEof, by decide +kernel, hTerminates, hStatements, hAttributes, hDiagnostics⟩

end Document

end GraphMarkup.Dot
