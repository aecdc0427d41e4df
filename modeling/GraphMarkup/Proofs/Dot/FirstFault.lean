import GraphMarkup.Proofs.Dot.Regular

/-!
# The first fault

A reading that fails fast and one that recovers do the same until something unexpected is met.
There the first halts, and the second goes on from where the first one stands. `Parallel` relates
what the two come to; it holds of every regular procedure (`Regular.parallel`), whichever of
them, and however deep inside, meets the fault.

The main result is `failFast_cut_at_first_diagnostic`, for whole documents.
-/

namespace GraphMarkup.Dot

namespace Reading

/-- The reading in the mode that halts at the first fault. -/
def failingFast (r : Reading) : Reading := { r with mode := .failFast }

/-- The reading in the mode that goes on after a fault. -/
def recovering (r : Reading) : Reading := { r with mode := .recover }

theorem advance_failingFast (r : Reading) : r.failingFast.advance = r.advance.failingFast := by
  unfold advance failingFast
  dsimp only
  split <;> rfl

theorem mode_failingFast (r : Reading) : r.failingFast.mode = .failFast := rfl

theorem current_failingFast (r : Reading) : r.failingFast.current = r.current := rfl

theorem recovering_failingFast {r : Reading} (hMode : r.mode = .recover) :
    r.failingFast.recovering = r := by
  unfold failingFast recovering
  rw [← hMode]

end Reading

namespace Reader

variable {α β σ : Type}

/-- What a reading that recovers comes to from `r`, and what one that fails fast comes to: the same
in silence, or a halt at the first fault from which the other has moved on. -/
inductive Parallel (r : Reading) :
    EStateM.Result Stop Reading α → EStateM.Result Stop Reading α → Prop
  | ok {a : α} {r' : Reading} (hSilent : r'.diagnostics = r.diagnostics) :
      Parallel r (.ok a r') (.ok a r'.failingFast)
  | endless {r' : Reading} (hSilent : r'.diagnostics = r.diagnostics) :
      Parallel r (.error .endless r') (.error .endless r'.failingFast)
  | cut {result : EStateM.Result Stop Reading α} {fault : Reading} {d : Diagnostic}
      (hFault : fault.diagnostics = r.diagnostics.push d)
      (hMoves : Moves fault.recovering (final result)) : Parallel r result (.error .halted fault)

theorem Parallel.rebase {r r' : Reading} {slow fast : EStateM.Result Stop Reading α}
    (h : Parallel r' slow fast) (hSilent : r'.diagnostics = r.diagnostics) :
    Parallel r slow fast := by
  cases h with
  | ok h => exact .ok (h.trans hSilent)
  | endless h => exact .endless (h.trans hSilent)
  | cut hFault hMoves => exact .cut (hSilent ▸ hFault) hMoves

/-- A fault met before the end stays the first one. -/
theorem Parallel.cut_of_moves {r r' fault : Reading} {d : Diagnostic}
    {slow : EStateM.Result Stop Reading α} (hFault : fault.diagnostics = r.diagnostics.push d)
    (hMoves : Moves fault.recovering r') (later : Outcome r' slow) :
    Parallel r slow (.error .halted fault) :=
  .cut hFault (hMoves.trans later.moves)

theorem parallel_bind {x : Reader α} {f : α → Reader β} {r : Reading}
    (hx : Parallel r (x r) (x r.failingFast))
    (hf : ∀ a r', x r = .ok a r' →
      Outcome r' (f a r') ∧ Parallel r' (f a r') (f a r'.failingFast)) :
    Parallel r ((x >>= f) r) ((x >>= f) r.failingFast) := by
  generalize hSlow : x r = slow at hx
  generalize hFast : x r.failingFast = fast at hx
  cases hx with
  | ok hSilent =>
    rw [bind_of_ok hSlow, bind_of_ok hFast]
    exact (hf _ _ hSlow).2.rebase hSilent
  | endless hSilent =>
    rw [bind_of_error hSlow, bind_of_error hFast]
    exact .endless hSilent
  | cut hFault hMoves =>
    rw [bind_of_error hFast]
    cases slow with
    | ok a r' =>
      rw [bind_of_ok hSlow]
      exact .cut_of_moves hFault hMoves (hf a r' hSlow).1
    | error stop r' =>
      rw [bind_of_error hSlow]
      exact .cut hFault hMoves

theorem parallel_missed {r : Reading} (hMode : r.mode = .recover) (expected : String) {a : α}
    {r' : Reading} (hMoves : Moves (r.miss expected) r') :
    Parallel r (.ok a r') (.error .halted (r.failingFast.miss expected)) := by
  refine .cut rfl ?_
  have hSame : (r.failingFast.miss expected).recovering = r.miss expected :=
    Reading.recovering_failingFast (r := r.miss expected) hMode
  rw [hSame]
  exact hMoves

theorem parallel_loop {P : Reading → Prop} (hP : ∀ r r', Moves r r' → P r → P r')
    {round : σ → Reader (Round σ β)} (hRound : ∀ s r, P r → Outcome r (round s r))
    (hLoop : ∀ s r, P r → Outcome r (loop round s r))
    (hParallel : ∀ s r, P r → r.mode = .recover →
      Parallel r (round s r) (round s r.failingFast))
    {s : σ} {r : Reading} (hr : P r) (hMode : r.mode = .recover) :
    Parallel r (loop round s r) (loop round s r.failingFast) := by
  have hFirst := hParallel s r hr hMode
  have hOutcome := hRound s r hr
  fun_induction loop round s r with
  | case1 s r stop r' hRun =>
    rw [hRun] at hFirst
    generalize hFast : round s r.failingFast = fast at hFirst
    cases hFirst with
    | endless hSilent =>
      rw [loop_of_error hFast]
      exact .endless hSilent
    | cut hFault hMoves =>
      rw [loop_of_error hFast]
      exact .cut hFault hMoves
  | case2 s r result r' hRun =>
    rw [hRun] at hFirst
    generalize hFast : round s r.failingFast = fast at hFirst
    cases hFirst with
    | ok hSilent =>
      rw [loop_of_leave hFast]
      exact .ok hSilent
    | cut hFault hMoves =>
      rw [loop_of_error hFast]
      exact .cut hFault hMoves
  | case3 s r s' r' hRun hLt ih =>
    rw [hRun] at hFirst hOutcome
    have hr' : P r' := hP r r' hOutcome.moves hr
    have hMode' : r'.mode = .recover := hOutcome.moves.mode_eq.trans hMode
    generalize hFast : round s r.failingFast = fast at hFirst
    cases hFirst with
    | ok hSilent =>
      rw [loop_of_again hFast hLt]
      exact (ih hr' hMode' (hParallel s' r' hr' hMode') (hRound s' r' hr')).rebase hSilent
    | cut hFault hMoves =>
      rw [loop_of_error hFast]
      exact .cut_of_moves hFault hMoves (hLoop s' r' hr')
  | case4 s r s' r' hRun hStay =>
    rw [hRun] at hFirst
    generalize hFast : round s r.failingFast = fast at hFirst
    cases hFirst with
    | ok hSilent =>
      rw [loop_of_stay hFast hStay]
      exact .endless hSilent
    | cut hFault hMoves =>
      rw [loop_of_error hFast]
      exact .cut hFault hMoves

theorem Regular.parallel {places : List VertexId} {x : Reader α} (hx : Regular places x) :
    ∀ r : Reading, (∀ id ∈ places, id < r.graph.vertexCount) → r.mode = .recover →
      Parallel r (x r) (x r.failingFast) := by
  induction hx with
  | pure a => exact fun r _ _ => .ok rfl
  | bind first later ihFirst ihLater =>
    intro r hPlaces hMode
    refine parallel_bind (ihFirst r hPlaces hMode) fun a r' hRun => ?_
    have hFirst := first.outcome r hPlaces
    rw [hRun] at hFirst
    have hPlaces' : ∀ id ∈ _, id < r'.graph.vertexCount := fun id hId =>
      (hPlaces id hId).trans_le hFirst.moves.vertexCount_le
    exact ⟨(later a).outcome r' hPlaces',
      ihLater a r' hPlaces' (hFirst.moves.mode_eq.trans hMode)⟩
  | peek => exact fun r _ _ => .ok rfl
  | advance =>
    intro r _ _
    rw [advance_apply, advance_apply, Reading.advance_failingFast]
    exact .ok (Reading.diagnostics_advance r)
  | eat token =>
    intro r _ _
    simp only [eat_apply, Reading.current_failingFast, Reading.advance_failingFast]
    split_ifs
    · exact .ok (Reading.diagnostics_advance r)
    · exact .ok rfl
  | reportExpected expected =>
    intro r _ hMode
    simp only [reportExpected_apply, Reading.mode_failingFast, hMode, reduceCtorEq, if_true,
      if_false]
    exact parallel_missed hMode expected .refl
  | expect token =>
    intro r _ hMode
    simp only [expect_apply, Reading.mode_failingFast, Reading.current_failingFast,
      Reading.advance_failingFast, hMode, reduceCtorEq, if_true, if_false]
    split_ifs
    · exact .ok (Reading.diagnostics_advance r)
    · exact parallel_missed hMode _ (.single (.advance _))
  | expectString =>
    intro r _ hMode
    simp only [expectString_apply, Reading.mode_failingFast, Reading.current_failingFast,
      Reading.advance_failingFast, hMode, reduceCtorEq, if_true, if_false]
    split_ifs
    · exact .ok (Reading.diagnostics_advance r)
    · exact parallel_missed hMode _ (.single (.advance _))
  | readName =>
    intro r _ hMode
    simp only [readName_apply, Reading.mode_failingFast, Reading.current_failingFast,
      Reading.advance_failingFast, hMode, reduceCtorEq, if_true, if_false]
    cases r.current.token.name? with
    | some name => exact .ok (Reading.diagnostics_advance r)
    | none => exact parallel_missed hMode _ .refl
  | count tick => exact fun r _ _ => .ok rfl
  | setLabel id label => exact fun r _ _ => .ok rfl
  | intern name later ih =>
    intro r hPlaces hMode
    let interned : Reading := { r with graph := (r.graph.intern name).2 }
    rw [bind_apply, bind_apply, intern_apply, intern_apply]
    exact (ih _ interned (Graph.places_lt_intern hPlaces name) hMode).rebase rfl
  | addEdge hSrc hDst => exact fun r _ _ => .ok rfl
  | loop rounds progress s ih =>
    intro r hPlaces hMode
    refine parallel_loop (fun r r' hMoves hPlaces id hId => ?_) (fun s => (rounds s).outcome)
      (fun s r => (Regular.loop rounds progress s).outcome r) ih hPlaces hMode
    exact (hPlaces id hId).trans_le hMoves.vertexCount_le

theorem Regular.parallel_nil {x : Reader α} (hx : Regular [] x) {r : Reading}
    (hMode : r.mode = .recover) : Parallel r (x r) (x r.failingFast) :=
  hx.parallel r (fun _ hId => absurd hId List.not_mem_nil) hMode

/-! ## Whole documents

The name of a document is set between two regular parts, the title in front and the body after. -/

/-- What comes in front of the name being set. -/
def readTitle : Reader String :=
  expect (.keyword .digraph) >>= fun _ => readName

/-- What comes after the name. -/
def readBody : Reader Unit :=
  expect (.mark .leftBrace) >>= fun _ => loop statementRound () >>= fun _ => expect .eof

theorem regular_readTitle {places : List VertexId} : Regular places readTitle :=
  .bind (.expect _) fun _ => .readName

theorem regular_readBody {places : List VertexId} : Regular places readBody :=
  .bind (.expect _) fun _ => .bind regular_statements fun _ => .expect _

theorem readDocument_eq :
    readDocument = readTitle >>= fun name =>
      (modify fun r => { r with name := some name }) >>= fun _ => readBody := by
  simp only [readDocument, readHeader, readTitle, readBody, bind_assoc]

theorem readDocument_of_title {r r' : Reading} {name : String}
    (hTitle : readTitle r = .ok name r') :
    readDocument r = readBody { r' with name := some name } := by
  rw [readDocument_eq, bind_of_ok hTitle]
  rfl

/-- A reading that recovers gets through every regular procedure on a closed stream. -/
theorem Regular.exists_eq_ok {x : Reader α} (hx : Regular [] x) {r : Reading}
    (hMode : r.mode = .recover) (hClosed : ¬ r.Unclosed) :
    ∃ a r', x r = .ok a r' ∧ Moves r r' := by
  have hOutcome := hx.outcome_nil r
  cases hRun : x r with
  | ok a r' =>
    rw [hRun] at hOutcome
    exact ⟨a, r', rfl, hOutcome.moves⟩
  | error stop r' =>
    exfalso
    cases stop with
    | halted =>
      have hFast := hOutcome.halted r' hRun
      rw [hMode] at hFast
      cases hFast
    | endless => exact hClosed (hOutcome.endless r' hRun)

end Reader

namespace Document

open Reader

theorem ofTokens_of_ok {mode : Mode} {tokens : TokenStream} {r : Reading}
    (hRun : readDocument { mode := mode, rest := tokens } = .ok () r) :
    ofTokens mode tokens = ⟨r.name, r.graph, r.diagnostics.toList, none, r.effort⟩ := by
  rw [ofTokens, hRun]

theorem ofTokens_of_error {mode : Mode} {tokens : TokenStream} {stop : Stop} {r : Reading}
    (hRun : readDocument { mode := mode, rest := tokens } = .error stop r) :
    ofTokens mode tokens = ⟨r.name, r.graph, r.diagnostics.toList, some stop, r.effort⟩ := by
  rw [ofTokens, hRun]

/-- A document holds what the reading ended with, however it ended. -/
theorem ofTokens_eq_final (mode : Mode) (tokens : TokenStream) :
    ∃ stopped, ofTokens mode tokens =
      ⟨(final (readDocument { mode := mode, rest := tokens })).name,
        (final (readDocument { mode := mode, rest := tokens })).graph,
        (final (readDocument { mode := mode, rest := tokens })).diagnostics.toList, stopped,
        (final (readDocument { mode := mode, rest := tokens })).effort⟩ := by
  cases hRun : readDocument { mode := mode, rest := tokens } with
  | ok u r => exact ⟨none, ofTokens_of_ok hRun⟩
  | error stop r => exact ⟨some stop, ofTokens_of_error hRun⟩

/-- What failing fast leaves of a recovering reading: all of it if nothing was reported, and what
was there at the first diagnostic otherwise. -/
structure CutAtFirst (slow fast : Document) : Prop where
  silent : slow.diagnostics = [] →
    fast.name = slow.name ∧ fast.graph = slow.graph ∧ fast.diagnostics = [] ∧
      fast.stopped = none
  fault : ∀ d later, slow.diagnostics = d :: later →
    fast.diagnostics = [d] ∧ fast.graph.names <+: slow.graph.names ∧
      fast.graph.edges <+: slow.graph.edges ∧ (fast.name = none ∨ fast.name = slow.name) ∧
      fast.stopped = some .halted

theorem cutAtFirst_of_silent {tokens : TokenStream} {r : Reading}
    (hSlow : readDocument { mode := .recover, rest := tokens } = .ok () r)
    (hFast : readDocument { mode := .failFast, rest := tokens } = .ok () r.failingFast)
    (hSilent : r.diagnostics = #[]) :
    CutAtFirst (ofTokens .recover tokens) (ofTokens .failFast tokens) := by
  rw [ofTokens_of_ok hSlow, ofTokens_of_ok hFast]
  have hNone : r.diagnostics.toList = [] := by rw [hSilent]
  refine ⟨fun _ => ⟨rfl, rfl, hNone, rfl⟩, fun d later hFirst => ?_⟩
  rw [hNone] at hFirst
  cases hFirst

theorem cutAtFirst_of_fault {tokens : TokenStream} {r fault : Reading} {d : Diagnostic}
    (hSlow : readDocument { mode := .recover, rest := tokens } = .ok () r)
    (hFast : readDocument { mode := .failFast, rest := tokens } = .error .halted fault)
    (hFault : fault.diagnostics = #[d]) (hGrows : Grows fault r)
    (hName : fault.name = none ∨ fault.name = r.name) :
    CutAtFirst (ofTokens .recover tokens) (ofTokens .failFast tokens) := by
  rw [ofTokens_of_ok hSlow, ofTokens_of_error hFast]
  have hOne : fault.diagnostics.toList = [d] := by rw [hFault]
  obtain ⟨later, hLater⟩ := hGrows.diagnostics
  rw [hOne, List.singleton_append] at hLater
  constructor
  · intro hSilent
    cases hLater.trans hSilent
  · intro d' later' hFirst
    cases hLater.trans hFirst
    exact ⟨hOne, hGrows.names, hGrows.edges, hName, rfl⟩

/-- A recovering reading gets to the end, and one that fails fast either does so in silence or halts
at its first diagnostic. -/
theorem readDocument_cases {tokens : TokenStream} (hEof : ∃ t ∈ tokens.getLast?, t.token = .eof) :
    ∃ r, readDocument { mode := .recover, rest := tokens } = .ok () r ∧
      ((readDocument { mode := .failFast, rest := tokens } = .ok () r.failingFast ∧
          r.diagnostics = #[]) ∨
        ∃ fault d, readDocument { mode := .failFast, rest := tokens } = .error .halted fault ∧
          fault.diagnostics = #[d] ∧ Grows fault r ∧
          (fault.name = none ∨ fault.name = r.name)) := by
  let start : Reading := { mode := .recover, rest := tokens }
  have hClosed : ¬ start.Unclosed := Reading.not_unclosed_of_eof hEof
  obtain ⟨name, r₁, hTitle, hMoves₁⟩ := regular_readTitle.exists_eq_ok rfl hClosed
  let named : Reading := { r₁ with name := some name }
  have hMode₁ : named.mode = .recover := hMoves₁.mode_eq
  have hClosed₁ : ¬ named.Unclosed := fun h => hClosed (hMoves₁.unclosed_iff.1 h)
  obtain ⟨⟨⟩, r₂, hBody, hMoves₂⟩ := regular_readBody.exists_eq_ok hMode₁ hClosed₁
  refine ⟨r₂, (readDocument_of_title hTitle).trans hBody, ?_⟩
  have hTitles := regular_readTitle.parallel_nil (r := start) rfl
  have hBodies := regular_readBody.parallel_nil hMode₁
  rw [hTitle] at hTitles
  rw [hBody] at hBodies
  generalize hFastTitle : readTitle start.failingFast = fastTitle at hTitles
  generalize hFastBody : readBody named.failingFast = fastBody at hBodies
  cases hTitles with
  | ok hSilent₁ =>
    have hFast : readDocument start.failingFast = fastBody :=
      (readDocument_of_title hFastTitle).trans hFastBody
    have hNone : named.diagnostics = #[] := hSilent₁
    cases hBodies with
    | ok hSilent₂ => exact Or.inl ⟨hFast, hSilent₂.trans hNone⟩
    | @cut _ fault d hFault hMoves =>
      rw [hNone] at hFault
      have hGrows : Grows fault.recovering r₂ := hMoves.grows
      exact Or.inr ⟨fault, d, hFast, hFault, ⟨hGrows.1, hGrows.2, hGrows.3⟩,
        Or.inr hMoves.name_eq.symm⟩
  | @cut _ fault d hFault hMoves =>
    have hFast : readDocument start.failingFast = .error .halted fault := by
      rw [readDocument_eq, bind_of_error hFastTitle]
    have hGrows : Grows fault.recovering r₁ := hMoves.grows
    have hGrows' : Grows r₁ r₂ := ⟨hMoves₂.grows.1, hMoves₂.grows.2, hMoves₂.grows.3⟩
    have hNoName : fault.name = none := hMoves.name_eq.symm.trans hMoves₁.name_eq
    have hAll := hGrows.trans hGrows'
    exact Or.inr ⟨fault, d, hFast, hFault, ⟨hAll.1, hAll.2, hAll.3⟩, Or.inl hNoName⟩

/-- On tokens that end with the end of input, a reading that fails fast is the recovering one cut
at its first diagnostic. -/
theorem failFast_cut_at_first_diagnostic {tokens : TokenStream}
    (hEof : ∃ t ∈ tokens.getLast?, t.token = .eof) :
    (ofTokens .recover tokens).stopped = none ∧
      CutAtFirst (ofTokens .recover tokens) (ofTokens .failFast tokens) := by
  obtain ⟨r, hSlow, hCases⟩ := readDocument_cases hEof
  refine ⟨by rw [ofTokens_of_ok hSlow], ?_⟩
  rcases hCases with ⟨hFast, hSilent⟩ | ⟨fault, d, hFast, hFault, hGrows, hName⟩
  · exact cutAtFirst_of_silent hSlow hFast hSilent
  · exact cutAtFirst_of_fault hSlow hFast hFault hGrows hName

/-- A document that lacks a semicolon, then a closing bracket, then its closing brace. -/
def faulty : TokenStream :=
  [⟨.keyword .digraph, 1⟩, ⟨.ident "G", 1⟩, ⟨.mark .leftBrace, 1⟩, ⟨.ident "a", 1⟩,
    ⟨.mark .arrow, 1⟩, ⟨.ident "b", 1⟩, ⟨.ident "c", 2⟩, ⟨.mark .leftBracket, 2⟩, ⟨.eof, 2⟩]

theorem failFast_cut_faulty :
    (∃ t ∈ faulty.getLast?, t.token = .eof) ∧
      (ofTokens .recover faulty).diagnostics.length = 4 ∧
      (ofTokens .failFast faulty).diagnostics = (ofTokens .recover faulty).diagnostics.take 1 ∧
      CutAtFirst (ofTokens .recover faulty) (ofTokens .failFast faulty) :=
  have hEof : ∃ t ∈ faulty.getLast?, t.token = .eof := ⟨⟨.eof, 2⟩, rfl, rfl⟩
  ⟨hEof, by decide +kernel, by decide +kernel, (failFast_cut_at_first_diagnostic hEof).2⟩

end Document

end GraphMarkup.Dot
