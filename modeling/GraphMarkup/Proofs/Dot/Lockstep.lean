import GraphMarkup.Proofs.Dot.Reports

/-!
# Two readings side by side

What a reading does next depends on little of the current token: whether it is a certain mark, a
certain reserved word or the end of input, whether attributes have to end there, and what name it
is. Two streams whose tokens agree in this are read in the same way, and what is made of them is the
same. Whether a token is a string is asked in one place only, and does not decide where the reading
goes on, so two tokens may differ in that, too, where a fault does not halt the reading.

A `Comparison` says how the tokens of two streams are related, and what that means for the
diagnostics. For each of them the procedures go in lockstep (`Comparison.readDocument`).
-/

namespace GraphMarkup.Dot

/-- Two tokens that a reading takes for the same, unless it asks for a string. -/
structure Token.Alike (t u : Token) : Prop where
  mark : ∀ m, u = .mark m ↔ t = .mark m
  keyword : ∀ k, u = .keyword k ↔ t = .keyword k
  eof : u = .eof ↔ t = .eof
  starts : Grammar.startsDirective u = Grammar.startsDirective t
  ends : u.endsAttributes = t.endsAttributes
  name? : u.name? = t.name?

theorem Token.Alike.refl (t : Token) : t.Alike t :=
  ⟨fun _ => Iff.rfl, fun _ => Iff.rfl, Iff.rfl, rfl, rfl, rfl⟩

namespace Reader

variable {α β σ : Type}

/-- Two ways a procedure can end: with one value, or with one reason to stop, and with related
readings. -/
inductive Abreast (I : Reading → Reading → Prop) :
    EStateM.Result Stop Reading α → EStateM.Result Stop Reading α → Prop
  | ok {a : α} {r r' : Reading} (h : I r r') : Abreast I (.ok a r) (.ok a r')
  | error {stop : Stop} {r r' : Reading} (h : I r r') : Abreast I (.error stop r) (.error stop r')

/-- From related readings a procedure goes the same way. -/
def Lockstep (I : Reading → Reading → Prop) (x : Reader α) : Prop :=
  ∀ r r', I r r' → Abreast I (x r) (x r')

section Rules

variable {I : Reading → Reading → Prop}

theorem Abreast.bind {x : Reader α} {f : α → Reader β} {r r' : Reading}
    (hx : Abreast I (x r) (x r')) (hf : ∀ a, Lockstep I (f a)) :
    Abreast I ((x >>= f) r) ((x >>= f) r') := by
  rw [bind_apply, bind_apply]
  generalize x r = result at hx
  generalize x r' = other at hx
  cases hx with
  | ok h => exact hf _ _ _ h
  | error h => exact .error h

theorem Lockstep.bind {x : Reader α} {f : α → Reader β} (hx : Lockstep I x)
    (hf : ∀ a, Lockstep I (f a)) : Lockstep I (x >>= f) :=
  fun r r' h => (hx r r' h).bind hf

theorem lockstep_pure (a : α) : Lockstep I (pure a) :=
  fun _ _ h => .ok h

theorem lockstep_modify {f : Reading → Reading} (hf : ∀ r r', I r r' → I (f r) (f r')) :
    Lockstep I (modify f) :=
  fun r r' h => .ok (hf r r' h)

/-- Both readings take the same branch. -/
theorem abreast_ite {c c' : Prop} [Decidable c] [Decidable c'] (hSame : c' ↔ c)
    {first second first' second' : EStateM.Result Stop Reading α}
    (hFirst : c → Abreast I first first') (hSecond : ¬ c → Abreast I second second') :
    Abreast I (if c then first else second) (if c' then first' else second') := by
  by_cases hc : c
  · rw [if_pos hc, if_pos (hSame.2 hc)]
    exact hFirst hc
  · rw [if_neg hc, if_neg (mt hSame.1 hc)]
    exact hSecond hc

/-- Rounds that go in lockstep are as many, if there are as many tokens to go over. -/
theorem lockstep_loop {round : σ → Reader (Round σ β)}
    (hLength : ∀ r r', I r r' → r'.rest.length = r.rest.length)
    (hRound : ∀ s, Lockstep I (round s)) (s : σ) : Lockstep I (loop round s) := by
  intro r r' h
  have hFirst := hRound s r r' h
  -- Along the rounds of the first reading. The second one has a round for each of them, since a
  -- loop goes on exactly if there are fewer tokens left.
  generalize hOther : round s r' = other at hFirst
  fun_induction loop round s r generalizing r' other with
  | case1 s r stop r₁ hRun =>
    rw [hRun] at hFirst
    cases hFirst with
    | error h₁ =>
      rw [loop_of_error hOther]
      exact .error h₁
  | case2 s r result r₁ hRun =>
    rw [hRun] at hFirst
    cases hFirst with
    | ok h₁ =>
      rw [loop_of_leave hOther]
      exact .ok h₁
  | case3 s r s₁ r₁ hRun hLt ih =>
    rw [hRun] at hFirst
    cases hFirst with
    | ok h₁ =>
      rw [← hLength _ _ h, ← hLength _ _ h₁] at hLt
      rw [loop_of_again hOther hLt]
      exact ih _ h₁ _ rfl (hRound s₁ _ _ h₁)
  | case4 s r s₁ r₁ hRun hStay =>
    rw [hRun] at hFirst
    cases hFirst with
    | ok h₁ =>
      rw [← hLength _ _ h, ← hLength _ _ h₁] at hStay
      rw [loop_of_stay hOther hStay]
      exact .error h₁

end Rules

end Reader

open Reader

/-! ## Comparisons -/

/-- Streams whose tokens are related one by one, and what is reported of them in one mode. -/
structure Comparison where
  mode : Mode
  Tokens : Located → Located → Prop
  Diagnostics : List Diagnostic → List Diagnostic → Prop
  refl : ∀ t, Tokens t t
  alike : ∀ t u, Tokens t u → t.token.Alike u.token
  silent : Diagnostics [] []
  /-- Something is missed at both tokens. -/
  missed : ∀ t u, Tokens t u → ∀ expected ds es, Diagnostics ds es →
    Diagnostics (ds ++ [t.missed expected]) (es ++ [u.missed expected])
  /-- Only the second token may be a string where the first is none, if missing one is no halt. -/
  string : ∀ t u, Tokens t u → u.token.isString = t.token.isString ∨
    (mode = .recover ∧ u.token.isString ∧ ∀ ds es, Diagnostics ds es →
      Diagnostics (ds ++ [t.missed "string"]) es)

namespace Comparison

variable (C : Comparison)

/-- Two readings that have made the same of related tokens. -/
structure Beside (r r' : Reading) : Prop where
  mode : r.mode = C.mode
  mode' : r'.mode = C.mode
  rest : List.Forall₂ C.Tokens r.rest r'.rest
  name : r'.name = r.name
  graph : r'.graph = r.graph
  diagnostics : C.Diagnostics r.diagnostics.toList r'.diagnostics.toList
  effort : r'.effort = r.effort

namespace Beside

variable {C} {r r' : Reading} (h : C.Beside r r')

include h

theorem length_rest : r'.rest.length = r.rest.length := h.rest.length_eq.symm

theorem current : C.Tokens r.current r'.current := by
  have hRest := h.rest
  unfold Reading.current
  generalize r.rest = tokens at hRest
  generalize r'.rest = others at hRest
  cases hRest with
  | nil => exact C.refl _
  | cons hToken _ => exact hToken

theorem alike : r.current.token.Alike r'.current.token := C.alike _ _ h.current

theorem rest_advance : List.Forall₂ C.Tokens r.advance.rest r'.advance.rest := by
  have hRest := h.rest
  unfold Reading.advance
  generalize hTokens : r.rest = tokens at hRest
  generalize hOthers : r'.rest = others at hRest
  cases hRest with
  | nil => simp [hTokens, hOthers]
  | cons hToken hMore =>
    cases hMore with
    | nil => simpa [hTokens, hOthers] using hToken
    | cons hNext hLater => exact .cons hNext hLater

theorem advance : C.Beside r.advance r'.advance := by
  refine ⟨?_, ?_, h.rest_advance, ?_, ?_, ?_, ?_⟩
  · rw [r.mode_advance, h.mode]
  · rw [r'.mode_advance, h.mode']
  · rw [r.name_advance, r'.name_advance, h.name]
  · rw [r.graph_advance, r'.graph_advance, h.graph]
  · rw [r.diagnostics_advance, r'.diagnostics_advance]
    exact h.diagnostics
  · rw [r.effort_advance, r'.effort_advance, h.effort]

theorem setGraph (g : Graph) : C.Beside { r with graph := g } { r' with graph := g } :=
  ⟨h.mode, h.mode', h.rest, h.name, rfl, h.diagnostics, h.effort⟩

theorem setName (name : String) :
    C.Beside { r with name := some name } { r' with name := some name } :=
  ⟨h.mode, h.mode', h.rest, rfl, h.graph, h.diagnostics, h.effort⟩

theorem countAttribute : C.Beside r.countAttribute r'.countAttribute :=
  ⟨h.mode, h.mode', h.rest, h.name, h.graph, h.diagnostics,
    congrArg (fun e : Effort => { e with attributes := e.attributes + 1 }) h.effort⟩

theorem countStatement : C.Beside r.countStatement r'.countStatement :=
  ⟨h.mode, h.mode', h.rest, h.name, h.graph, h.diagnostics,
    congrArg (fun e : Effort => { e with statements := e.statements + 1 }) h.effort⟩

theorem miss (expected : String) : C.Beside (r.miss expected) (r'.miss expected) := by
  refine ⟨h.mode, h.mode', h.rest, h.name, h.graph, ?_, h.effort⟩
  rw [r.diagnostics_miss, r'.diagnostics_miss]
  exact C.missed _ _ h.current expected _ _ h.diagnostics

/-- Where only the first reading missed something. -/
theorem skip (expected : String)
    (hSkip : ∀ ds es, C.Diagnostics ds es →
      C.Diagnostics (ds ++ [r.current.missed expected]) es) :
    C.Beside (r.miss expected) r' := by
  refine ⟨h.mode, h.mode', h.rest, h.name, h.graph, ?_, h.effort⟩
  rw [r.diagnostics_miss]
  exact hSkip _ _ h.diagnostics

end Beside

/-! ## Procedures in lockstep -/

theorem lockstep_reportExpected (expected : String) :
    Lockstep C.Beside (reportExpected expected) := by
  intro r r' h
  rw [reportExpected_apply, reportExpected_apply, h.mode, h.mode']
  split_ifs
  · exact .error (h.miss expected)
  · exact .ok (h.miss expected)

theorem lockstep_expect {token : Token}
    (hToken : ∀ t u : Token, t.Alike u → (u = token ↔ t = token)) :
    Lockstep C.Beside (expect token) := by
  intro r r' h
  rw [expect_apply, expect_apply, h.mode, h.mode']
  refine abreast_ite (hToken _ _ h.alike) (fun _ => .ok h.advance) fun _ => ?_
  split_ifs
  · exact .error (h.miss _)
  · exact .ok (h.miss _).advance

theorem lockstep_expectString : Lockstep C.Beside expectString := by
  intro r r' h
  rw [expectString_apply, expectString_apply, h.mode, h.mode']
  rcases C.string _ _ h.current with hSame | ⟨hMode, hSecond, hSkip⟩
  · refine abreast_ite (by rw [hSame]) (fun _ => .ok h.advance) fun _ => ?_
    split_ifs
    · exact .error (h.miss _)
    · exact .ok (h.miss _).advance
  · -- The second reading has its string. The first one reports what it has and takes it, too.
    rw [if_pos hSecond]
    split_ifs with hFirst hHalt
    · exact .ok h.advance
    · cases hMode.symm.trans hHalt
    · exact .ok (h.skip _ hSkip).advance

theorem lockstep_readName : Lockstep C.Beside readName := by
  intro r r' h
  rw [readName_apply, readName_apply, h.mode, h.mode', h.alike.name?]
  split
  · exact .ok h.advance
  · split_ifs
    · exact .error (h.miss _)
    · exact .ok (h.miss _)

theorem lockstep_intern (name : String) : Lockstep C.Beside (intern name) := by
  intro r r' h
  rw [intern_apply, intern_apply, h.graph]
  exact .ok (h.setGraph _)

theorem lockstep_readAttribute (isFirst : Bool) : Lockstep C.Beside (readAttribute isFirst) := by
  have hAttribute : ∀ _ : Unit, Lockstep C.Beside (do
      let name ← readName
      expect (.mark .equals)
      let value ← readName
      return (name, value)) := fun _ =>
    C.lockstep_readName.bind fun _ => (C.lockstep_expect fun _ _ h => h.mark _).bind fun _ =>
      C.lockstep_readName.bind fun _ => lockstep_pure _
  cases isFirst with
  | true => exact hAttribute ()
  | false => exact (C.lockstep_expect fun _ _ h => h.mark _).bind hAttribute

theorem lockstep_attributeRound (attributes : Attributes) :
    Lockstep C.Beside (attributeRound attributes) := by
  intro r r' h
  rw [attributeRound_apply, attributeRound_apply]
  refine abreast_ite (h.alike.mark _) (fun _ => .ok h.countAttribute.advance) fun _ => ?_
  refine abreast_ite (by rw [h.alike.ends]) (fun _ => .ok h.countAttribute) fun _ => ?_
  exact ((C.lockstep_readAttribute _).bind fun _ => lockstep_pure _) _ _ h.countAttribute

theorem lockstep_readAttributes : Lockstep C.Beside readAttributes :=
  (C.lockstep_expect fun _ _ h => h.mark _).bind fun _ =>
    lockstep_loop (fun _ _ h => h.length_rest) C.lockstep_attributeRound []

theorem lockstep_readLabel (src : VertexId) (isEdge : Bool) :
    Lockstep C.Beside (readLabel src isEdge) := by
  intro r r' h
  rw [readLabel_apply, readLabel_apply]
  refine abreast_ite (h.alike.mark _) (fun _ => ?_) fun _ => .ok h
  refine (C.lockstep_readAttributes.bind fun attributes => lockstep_modify fun r r' h => ?_) _ _ h
  rw [h.graph]
  exact h.setGraph _

theorem lockstep_readTarget (src : VertexId) : Lockstep C.Beside (readTarget src) := by
  intro r r' h
  rw [readTarget_apply, readTarget_apply]
  refine abreast_ite (h.alike.mark _) (fun _ => ?_) fun _ => .ok h
  refine (C.lockstep_readName.bind fun name => (C.lockstep_intern name).bind fun dst => ?_) _ _
    h.advance
  refine (lockstep_modify fun r r' h => ?_).bind fun _ => lockstep_pure true
  rw [h.graph]
  exact h.setGraph _

theorem lockstep_readVertices : Lockstep C.Beside readVertices :=
  C.lockstep_readName.bind fun name => (C.lockstep_intern name).bind fun src =>
    (C.lockstep_readTarget src).bind fun isEdge => C.lockstep_readLabel src isEdge

theorem lockstep_readDirective : Lockstep C.Beside readDirective :=
  (lockstep_modify fun _ _ h => h.advance).bind fun _ =>
    (C.lockstep_expect fun _ _ h => h.mark _).bind fun _ => C.lockstep_expectString

theorem lockstep_readStatement : Lockstep C.Beside readStatement := by
  intro r r' h
  rw [readStatement_apply, readStatement_apply]
  exact abreast_ite (by rw [h.alike.starts]) (fun _ => C.lockstep_readDirective _ _ h) fun _ =>
    C.lockstep_readVertices _ _ h

theorem lockstep_statementRound (u : Unit) : Lockstep C.Beside (statementRound u) := by
  intro r r' h
  have hCounted := h.countStatement
  rw [statementRound_apply, statementRound_apply]
  refine abreast_ite (h.alike.mark _) (fun _ => .ok hCounted.advance) fun _ => ?_
  refine abreast_ite h.alike.eof (fun _ => ?_) fun _ => ?_
  · exact ((C.lockstep_reportExpected _).bind fun _ => lockstep_pure _) _ _ hCounted
  · exact (C.lockstep_readStatement.bind fun _ =>
      (C.lockstep_expect fun _ _ h => h.mark _).bind fun _ => lockstep_pure _) _ _ hCounted

theorem lockstep_readHeader : Lockstep C.Beside readHeader :=
  (C.lockstep_expect fun _ _ h => h.keyword _).bind fun _ => C.lockstep_readName.bind fun name =>
    (lockstep_modify fun _ _ h => h.setName name).bind fun _ =>
      C.lockstep_expect fun _ _ h => h.mark _

theorem lockstep_readDocument : Lockstep C.Beside readDocument :=
  C.lockstep_readHeader.bind fun _ =>
    (lockstep_loop (fun _ _ h => h.length_rest) C.lockstep_statementRound ()).bind fun _ =>
      C.lockstep_expect fun _ _ h => h.eof

/-- Of two streams with related tokens the same document is read, up to diagnostics. -/
structure SameDocument (d d' : Document) : Prop where
  name : d'.name = d.name
  graph : d'.graph = d.graph
  diagnostics : C.Diagnostics d.diagnostics d'.diagnostics
  stopped : d'.stopped = d.stopped
  effort : d'.effort = d.effort

theorem sameDocument {tokens others : TokenStream} (hTokens : List.Forall₂ C.Tokens tokens others) :
    C.SameDocument (Document.ofTokens C.mode tokens) (Document.ofTokens C.mode others) := by
  have hStart : C.Beside { mode := C.mode, rest := tokens } { mode := C.mode, rest := others } :=
    ⟨rfl, rfl, hTokens, rfl, rfl, C.silent, rfl⟩
  have hRead := C.lockstep_readDocument _ _ hStart
  unfold Document.ofTokens
  generalize readDocument { mode := C.mode, rest := tokens } = result at hRead
  generalize readDocument { mode := C.mode, rest := others } = other at hRead
  cases hRead with
  | ok h => exact ⟨h.name, h.graph, h.diagnostics, rfl, h.effort⟩
  | error h => exact ⟨h.name, h.graph, h.diagnostics, rfl, h.effort⟩

end Comparison

end GraphMarkup.Dot
