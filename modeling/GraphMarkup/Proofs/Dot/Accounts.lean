import GraphMarkup.Proofs.Dot.Contract

/-!
# Accounts of a reading

On a stream that ends with the end of input, going over a token pays for what is done at it. The
opening bracket of an attribute list pays for the round that leaves the list, and each other round
goes over a token of its own; an arrow pays for the edge that it makes. A `Ledger` bounds what was
done by what can still be paid for, and every procedure of a document keeps it
(`keeps_ledger_readStatement`), in either mode and wherever it stops.

The main result is `accounts_readDocument`: no more rounds than tokens, and no more edges than
arrows.
-/

namespace GraphMarkup.Dot

/-- The number of arrows among tokens. -/
def TokenStream.arrows (tokens : TokenStream) : Nat :=
  tokens.countP fun t => t.token == .mark .arrow

namespace Reading

variable {r r' : Reading}

theorem EndsInEof.of_moves (hEnds : r.EndsInEof) (h : Moves r r') : r'.EndsInEof := by
  rw [endsInEof_iff] at hEnds ⊢
  rwa [h.getLast?_rest]

theorem EndsInEof.not_unclosed (hEnds : r.EndsInEof) : ¬ r.Unclosed :=
  not_unclosed_of_eof (endsInEof_iff.1 hEnds)

theorem EndsInEof.length_rest_pos (hEnds : r.EndsInEof) : 0 < r.rest.length := by
  have hTokens := List.length_pos_iff.2 hEnds.tokens_ne_nil
  rwa [tokens, List.length_map] at hTokens

/-- In front of the end of input, going to the next token drops the current one. -/
theorem EndsInEof.rest_eq_cons (hEnds : r.EndsInEof) (hNe : r.current.token ≠ .eof) :
    r.rest = r.current :: r.advance.rest := by
  obtain ⟨more, hTokens, hMore⟩ := tokens_of_ne_eof hEnds hNe
  match hRest : r.rest with
  | [] => simp [tokens, hRest] at hTokens
  | [t] =>
    simp only [tokens, hRest, List.map_cons, List.map_nil, List.cons.injEq] at hTokens
    exact absurd hTokens.2.symm hMore
  | t :: next :: later => simp [advance, current, hRest]

end Reading

namespace Reader

/-- A reading that is not yet at its end, with what was done so far and what may still be done. An
attribute round has a token to pay for it, and an edge has an arrow. -/
structure Ledger (rounds edges statements : Nat) (r : Reading) : Prop where
  ends : r.EndsInEof
  rounds : r.effort.attributes + r.rest.length ≤ rounds
  edges : r.graph.edgeCount + r.rest.arrows ≤ edges
  statements : r.effort.statements = statements

section Ledger

variable {n m s : Nat} {r : Reading}

theorem Ledger.withGraph (h : Ledger n m s r) {g : Graph} (hEdges : g.edges = r.graph.edges) :
    Ledger n m s { r with graph := g } where
  ends := h.ends
  rounds := h.rounds
  edges := by
    have hKept := h.edges
    unfold Graph.edgeCount at hKept ⊢
    rwa [hEdges]
  statements := h.statements

theorem Ledger.withEdge (h : Ledger n m s r) (src dst : VertexId) :
    Ledger n (m + 1) s { r with graph := r.graph.addEdge src dst } where
  ends := h.ends
  rounds := h.rounds
  edges := by
    have hKept := h.edges
    simp only [Graph.edgeCount, Graph.edges_addEdge, List.length_append, List.length_singleton]
      at hKept ⊢
    omega
  statements := h.statements

theorem Ledger.more_rounds (h : Ledger n m s r) : Ledger (n + 1) m s r :=
  ⟨h.ends, h.rounds.trans (Nat.le_succ n), h.edges, h.statements⟩

theorem Ledger.more_edges (h : Ledger n m s r) : Ledger n (m + 1) s r :=
  ⟨h.ends, h.rounds, h.edges.trans (Nat.le_succ m), h.statements⟩

theorem stable_ledger : Stable (Ledger n m s) where
  advance r h := by
    have hSuffix : r.advance.rest <:+ r.rest := (Moves.rest_suffix (.single (.advance r)))
    have hLength := hSuffix.length_le
    have hArrows : r.advance.rest.arrows ≤ r.rest.arrows := hSuffix.sublist.countP_le
    have hRounds := h.rounds
    have hEdges := h.edges
    constructor
    · exact h.ends.of_moves (.single (.advance r))
    · rw [r.effort_advance]
      omega
    · rw [r.graph_advance]
      omega
    · rw [r.effort_advance]
      exact h.statements
  record _ _ h := ⟨h.ends, h.rounds, h.edges, h.statements⟩

theorem stable_effort (effort : Effort) : Stable fun r => r.effort = effort where
  advance r h := r.effort_advance.trans h
  record _ _ h := h

/-- Going over a token pays for a round. -/
theorem Ledger.pass (h : Ledger n m s r) (hNe : r.current.token ≠ .eof) :
    ∃ k, n = k + 1 ∧ Ledger k m s r.advance := by
  have hAdvance := stable_ledger.advance r h
  have hLength := congrArg List.length (h.ends.rest_eq_cons hNe)
  have hRounds := h.rounds
  rw [List.length_cons] at hLength
  refine ⟨n - 1, by omega, hAdvance.ends, ?_, hAdvance.edges, hAdvance.statements⟩
  rw [r.effort_advance]
  omega

/-- Going over an arrow pays for an edge. -/
theorem Ledger.pass_arrow (h : Ledger n m s r) (hArrow : r.current.token = .mark .arrow) :
    ∃ k, m = k + 1 ∧ Ledger n k s r.advance := by
  have hAdvance := stable_ledger.advance r h
  have hArrows : r.rest.arrows = r.advance.rest.arrows + 1 := by
    unfold TokenStream.arrows
    rw [h.ends.rest_eq_cons (by rw [hArrow]; simp), List.countP_cons_of_pos (by simp [hArrow])]
  have hEdges := h.edges
  refine ⟨m - 1, by omega, hAdvance.ends, hAdvance.rounds, ?_, hAdvance.statements⟩
  rw [r.graph_advance]
  omega

end Ledger

/-! ## Procedures -/

section Procedures

variable {n m s : Nat}

/-- The round that leaves the list goes over no token of the list. -/
theorem meets_ledger_attributeRound (attributes : Attributes) :
    Meets (Ledger n m s) (attributeRound attributes)
      (RoundLands (fun _ => Ledger n m s) fun _ => Ledger (n + 1) m s) (Ledger (n + 1) m s) := by
  intro r hr
  have hRounds := hr.rounds
  have hCounted : Ledger (n + 1) m s r.countAttribute := by
    refine ⟨hr.ends, ?_, hr.edges, hr.statements⟩
    show r.effort.attributes + 1 + r.rest.length ≤ n + 1
    omega
  have hLanded : Lands
      (RoundLands (fun _ r' => Ledger (n + 1) m s r' ∧ r'.effort = r.countAttribute.effort)
        fun _ => Ledger (n + 1) m s) (Ledger (n + 1) m s) (attributeRound attributes r) := by
    rw [attributeRound_apply]
    split_ifs
    · exact stable_ledger.advance _ hCounted
    · exact hCounted
    · let spent := r.countAttribute.effort
      have hRead := (stable_ledger.and (stable_effort spent)).patient.readAttribute
        attributes.isEmpty r.countAttribute ⟨hCounted, rfl⟩
      refine (hRead.mono_stop fun _ h => h.1).bind fun a => meets_pure fun _ h => h
  -- A round that does not leave has gone over a token, which pays for it.
  refine hLanded.of_run fun way r' hRun hWay => ?_
  cases way with
  | leave all => exact hWay
  | again newer =>
    obtain ⟨hLedger, hEffort⟩ := hWay
    have hLt := progress_attributeRound _ _ _ _ hRun hr.ends.not_unclosed
    refine ⟨hLedger.ends, ?_, hLedger.edges, hLedger.statements⟩
    rw [hEffort]
    show r.effort.attributes + 1 + r'.rest.length ≤ n
    omega

theorem readAttributes_of_leftBracket {r : Reading}
    (hBracket : r.current.token = .mark .leftBracket) :
    readAttributes r = loop attributeRound [] r.advance := by
  show (expect (.mark .leftBracket) >>= _) r = _
  rw [bind_apply, expect_apply, if_pos hBracket]

theorem meets_ledger_readAttributes :
    Meets (fun r => Ledger n m s r ∧ r.current.token = .mark .leftBracket) readAttributes
      (fun _ => Ledger n m s) (Ledger n m s) := by
  rintro r ⟨hr, hBracket⟩
  obtain ⟨k, rfl, hPassed⟩ := hr.pass (by rw [hBracket]; simp)
  rw [readAttributes_of_leftBracket hBracket]
  exact meets_loop (fun _ _ h => Ledger.more_rounds h) meets_ledger_attributeRound [] _ hPassed

theorem edges_labelled (g : Graph) (src : VertexId) (isEdge : Bool) (attributes : Attributes) :
    (labelled g src isEdge attributes).edges = g.edges := by
  unfold labelled Graph.relabel
  split
  · rfl
  · split <;> rfl

theorem keeps_ledger_readLabel (src : VertexId) (isEdge : Bool) :
    Keeps (Ledger n m s) (readLabel src isEdge) := by
  intro r hr
  rw [readLabel_apply]
  split_ifs with hBracket
  · exact (meets_ledger_readAttributes r ⟨hr, hBracket⟩).bind fun attributes =>
      meets_modify fun r hr => hr.withGraph (edges_labelled _ _ _ _)
  · exact hr

theorem keeps_ledger_intern (name : String) : Keeps (Ledger n m s) (intern name) :=
  meets_intern fun _ h => h.withGraph (Graph.edges_intern _ _)

theorem keeps_ledger_readTarget (src : VertexId) : Keeps (Ledger n m s) (readTarget src) := by
  intro r hr
  rw [readTarget_apply]
  split_ifs with hArrow
  · obtain ⟨k, rfl, hPassed⟩ := hr.pass_arrow hArrow
    have hStop : ∀ r, Ledger n k s r → Ledger n (k + 1) s r := fun _ h => h.more_edges
    refine ((stable_ledger.patient.readName r.advance hPassed).mono_stop hStop).bind fun name => ?_
    refine ((keeps_ledger_intern name).mono_stop hStop).bind fun dst => ?_
    exact .bind (meets_modify fun _ h => h.withEdge src dst) fun _ => meets_pure fun _ h => h
  · exact hr

theorem keeps_ledger_readVertices : Keeps (Ledger n m s) readVertices :=
  .bind stable_ledger.patient.readName fun name =>
    .bind (keeps_ledger_intern name) fun src =>
      .bind (keeps_ledger_readTarget src) fun isEdge => keeps_ledger_readLabel src isEdge

theorem keeps_ledger_readStatement : Keeps (Ledger n m s) readStatement := by
  intro r hr
  rw [readStatement_apply]
  split_ifs
  · exact stable_ledger.patient.readDirective r hr
  · exact keeps_ledger_readVertices r hr

end Procedures

/-! ## Whole documents -/

/-- The ledger of a reading that has begun no more than a number of statement rounds. -/
def Account (n m statements : Nat) (r : Reading) : Prop :=
  ∃ s ≤ statements, Ledger n m s r

/-- The same, with a token for each round that is still to come. -/
def OpenAccount (n m statements : Nat) (r : Reading) : Prop :=
  ∃ s, s + r.rest.length ≤ statements ∧ Ledger n m s r

section Document

variable {n m k : Nat}

theorem stable_account : Stable (Account n m k) where
  advance r := fun ⟨s, hs, h⟩ => ⟨s, hs, stable_ledger.advance r h⟩
  record r message := fun ⟨s, hs, h⟩ => ⟨s, hs, stable_ledger.record r message h⟩

theorem stable_openAccount : Stable (OpenAccount n m k) where
  advance r := by
    rintro ⟨s, hs, h⟩
    have hLe := Moves.length_rest_le (.single (.advance r))
    exact ⟨s, by omega, stable_ledger.advance r h⟩
  record r message := fun ⟨s, hs, h⟩ => ⟨s, hs, stable_ledger.record r message h⟩

theorem OpenAccount.account {r : Reading} (h : OpenAccount n m k r) : Account n m k r := by
  obtain ⟨s, hs, hLedger⟩ := h
  exact ⟨s, by omega, hLedger⟩

theorem meets_openAccount_statementRound (u : Unit) :
    Meets (OpenAccount n m k) (statementRound u)
      (RoundLands (fun _ => OpenAccount n m k) fun _ => Account n m k) (Account n m k) := by
  rintro r ⟨s, hs, hr⟩
  have hPos := hr.ends.length_rest_pos
  have hCounted : Ledger n m (s + 1) r.countStatement :=
    ⟨hr.ends, hr.rounds, hr.edges, congrArg (· + 1) hr.statements⟩
  have hSettled : ∀ r', Ledger n m (s + 1) r' → Account n m k r' := fun r' h =>
    ⟨s + 1, by omega, h⟩
  have hLanded : Lands (RoundLands (fun _ => Ledger n m (s + 1)) fun _ => Account n m k)
      (Account n m k) (statementRound u r) := by
    rw [statementRound_apply]
    split_ifs
    · exact hSettled _ (stable_ledger.advance _ hCounted)
    · have hReport := stable_ledger.patient.reportExpected (.token (.mark .rightBrace)) _ hCounted
      exact (hReport.mono_stop hSettled).bind fun _ => meets_pure hSettled
    · have hRead := keeps_ledger_readStatement _ hCounted
      have hExpect : Keeps (Ledger n m (s + 1)) (expect (.mark .semicolon)) :=
        stable_ledger.patient.expect _
      exact (hRead.mono_stop hSettled).bind fun _ => (hExpect.mono_stop hSettled).bind fun _ =>
        meets_pure fun _ h => h
  refine hLanded.of_run fun way r' hRun hWay => ?_
  cases way with
  | leave result => exact hWay
  | again u' =>
    have hLt := progress_statementRound _ _ _ _ hRun hr.ends.not_unclosed
    exact ⟨s + 1, by omega, hWay⟩

theorem meets_account_readDocument :
    Meets (OpenAccount n m k) readDocument (fun _ => Account n m k) (Account n m k) := by
  have hStop : ∀ r, OpenAccount n m k r → Account n m k r := fun _ h => h.account
  have hExpect : ∀ token, Meets (OpenAccount n m k) (expect token) (fun _ => OpenAccount n m k)
      (Account n m k) := fun token =>
    (stable_openAccount.patient.expect token).mono_stop hStop
  have hName : Meets (OpenAccount n m k) readName (fun _ => OpenAccount n m k) (Account n m k) :=
    stable_openAccount.patient.readName.mono_stop hStop
  have hLoop : Meets (OpenAccount n m k) (loop statementRound ()) (fun _ => Account n m k)
      (Account n m k) := meets_loop (fun _ => hStop) meets_openAccount_statementRound ()
  refine .bind (.bind (hExpect _) fun _ => .bind hName fun name => ?_) fun _ =>
    .bind hLoop fun _ => stable_account.patient.expect _
  refine .bind (meets_modify fun r => ?_) fun _ => hExpect _
  exact fun ⟨s, hs, h⟩ => ⟨s, hs, h.ends, h.rounds, h.edges, h.statements⟩

/-- A reading begins no more rounds of either kind than there are tokens, and makes no more edges
than there are arrows. -/
theorem accounts_readDocument (mode : Mode) {tokens : TokenStream}
    (hEof : ∃ t ∈ tokens.getLast?, t.token = .eof) :
    let r := final (readDocument { mode := mode, rest := tokens })
    r.effort.statements ≤ tokens.length ∧ r.effort.attributes ≤ tokens.length ∧
      r.graph.edgeCount ≤ tokens.arrows := by
  have hEnds : ({ mode := mode, rest := tokens } : Reading).EndsInEof :=
    Reading.endsInEof_iff.2 hEof
  have hOpen : OpenAccount tokens.length tokens.arrows tokens.length
      { mode := mode, rest := tokens } :=
    ⟨0, (Nat.zero_add _).le, hEnds, (Nat.zero_add _).le, (Nat.zero_add _).le, rfl⟩
  intro r
  have hAccount : Account tokens.length tokens.arrows tokens.length r :=
    (meets_account_readDocument _ hOpen).of_final
  obtain ⟨s, hs, hLedger⟩ := hAccount
  have hStatements := hLedger.statements
  have hRounds := hLedger.rounds
  have hEdges := hLedger.edges
  refine ⟨?_, ?_, ?_⟩
  all_goals omega

end Document

end Reader

end GraphMarkup.Dot
