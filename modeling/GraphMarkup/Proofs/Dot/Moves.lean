import GraphMarkup.Dot.Document
import GraphMarkup.Proofs.Graph.Places
import Mathlib.Logic.Relation

/-!
# What a reading can do

A reading makes six moves: it goes to the next token, records a diagnostic, finds or makes a
vertex, adds an edge between places that the graph has, relabels a vertex, or counts a round.

* The equations `expect_apply`, `readName_apply` and their like say what happens at a single
  token; after them no procedure for a single token is unfolded again.
* `Moves.mode_eq`, `Moves.name_eq`, `Moves.getLast?_rest`, `Moves.rest_suffix`: what stays.
* `Moves.grows`: diagnostics, vertex names and edges are only ever added to.
* `Moves.mem_diagnostics`: what is reported is reported of a token that was left.

The name of the document is set once, outside the moves, by `readHeader`.
-/

namespace GraphMarkup.Dot

/-- What a token says where a name is read: a bare word, a string or a reserved word. -/
def Token.name? : Token → Option String
  | .ident text => some text
  | .str text => some text
  | .keyword k => some k.word
  | _ => none

/-- Whether a token is a string. -/
def Token.isString : Token → Bool
  | .str _ => true
  | _ => false

namespace Reading

theorem advance_eq_of_length_le {r : Reading} (hLast : r.rest.length ≤ 1) : r.advance = r := by
  unfold advance
  split
  next t next more hRest => simp [hRest] at hLast
  next => rfl

theorem length_rest_advance {r : Reading} (hLong : 1 < r.rest.length) :
    r.advance.rest.length + 1 = r.rest.length := by
  unfold advance
  split
  next t next more hRest => simp [hRest]
  next hShort =>
    match hRest : r.rest with
    | [] => simp [hRest] at hLong
    | [t] => simp [hRest] at hLong
    | t :: next :: more => exact absurd hRest (hShort t next more)

theorem length_rest_advance_lt {r : Reading} (hLong : 1 < r.rest.length) :
    r.advance.rest.length < r.rest.length := by
  have hLength := length_rest_advance hLong
  omega

/-- Going to the next token touches the tokens only. -/
theorem advance_eq (r : Reading) : r.advance = { r with rest := r.advance.rest } := by
  unfold advance
  split <;> rfl

theorem mode_advance (r : Reading) : r.advance.mode = r.mode := by rw [advance_eq]

theorem name_advance (r : Reading) : r.advance.name = r.name := by rw [advance_eq]

theorem graph_advance (r : Reading) : r.advance.graph = r.graph := by rw [advance_eq]

theorem diagnostics_advance (r : Reading) : r.advance.diagnostics = r.diagnostics := by
  rw [advance_eq]

theorem effort_advance (r : Reading) : r.advance.effort = r.effort := by rw [advance_eq]

theorem current_mem {r : Reading} (hLeft : r.rest ≠ []) : r.current ∈ r.rest := by
  cases hRest : r.rest with
  | nil => exact absurd hRest hLeft
  | cons t more => simp [current, hRest]

/-- The reading with one more diagnostic, on the line of the current token. -/
def record (r : Reading) (message : String) : Reading :=
  { r with diagnostics := r.diagnostics.push ⟨.parse, r.current.line, message⟩ }

/-- The reading after it has missed what was expected at the current token. -/
def miss (r : Reading) (expected : String) : Reading :=
  r.record ("expected " ++ expected ++ ", got " ++ r.current.token.describe)

end Reading

namespace Reader

/-- The reading that a step ends with, whether it gives a value or stops. -/
def final {α : Type} : EStateM.Result Stop Reading α → Reading
  | .ok _ r => r
  | .error _ r => r

variable {α β σ : Type}

/-! ## What a single token does -/

theorem bind_apply (x : Reader α) (f : α → Reader β) (r : Reading) :
    (x >>= f) r = match x r with
      | .ok a r' => f a r'
      | .error stop r' => .error stop r' := by
  show EStateM.bind x f r = _
  unfold EStateM.bind
  cases x r <;> rfl

theorem bind_eq_ok {x : Reader α} {f : α → Reader β} {r r'' : Reading} {b : β} :
    (x >>= f) r = .ok b r'' ↔ ∃ a r', x r = .ok a r' ∧ f a r' = .ok b r'' := by
  rw [bind_apply]
  cases hx : x r with
  | ok a r' => simp
  | error stop r' => simp

theorem bind_of_ok {x : Reader α} {f : α → Reader β} {r r' : Reading} {a : α}
    (h : x r = .ok a r') : (x >>= f) r = f a r' := by
  rw [bind_apply, h]

theorem bind_of_error {x : Reader α} {f : α → Reader β} {r r' : Reading} {stop : Stop}
    (h : x r = .error stop r') : (x >>= f) r = .error stop r' := by
  rw [bind_apply, h]

@[simp] theorem pure_apply (a : α) (r : Reading) : (pure a : Reader α) r = .ok a r := rfl

@[simp] theorem modify_apply (f : Reading → Reading) (r : Reading) :
    (modify f : Reader Unit) r = .ok () (f r) := rfl

@[simp] theorem peek_apply (r : Reading) : peek r = .ok r.current.token r := rfl

@[simp] theorem advance_apply (r : Reading) : advance r = .ok () r.advance := rfl

theorem intern_apply (name : String) (r : Reading) :
    intern name r = .ok (r.graph.intern name).1 { r with graph := (r.graph.intern name).2 } := rfl

theorem reportExpected_apply (expected : String) (r : Reading) :
    reportExpected expected r =
      if r.mode = .failFast then .error .halted (r.miss expected)
      else .ok () (r.miss expected) := by
  show (if r.mode = .failFast then throw Stop.halted else pure () : Reader Unit)
    (r.miss expected) = _
  split <;> rfl

theorem eat_apply (token : Token) (r : Reading) :
    eat token r =
      if r.current.token = token then .ok true r.advance else .ok false r := by
  show (if r.current.token = token then _ else _ : Reader Bool) r = _
  split <;> rfl

theorem expect_apply (token : Token) (r : Reading) :
    expect token r =
      if r.current.token = token then .ok () r.advance
      else if r.mode = .failFast then .error .halted (r.miss token.describe)
      else .ok () (r.miss token.describe).advance := by
  simp only [expect, bind_apply, peek_apply]
  by_cases hToken : r.current.token = token
  · simp [hToken]
  · by_cases hMode : r.mode = .failFast
    · simp [hToken, hMode, bind_apply, reportExpected_apply]
    · simp [hToken, hMode, bind_apply, reportExpected_apply]

theorem expectString_apply (r : Reading) :
    expectString r =
      if r.current.token.isString then .ok () r.advance
      else if r.mode = .failFast then .error .halted (r.miss "string")
      else .ok () (r.miss "string").advance := by
  simp only [expectString, bind_apply, peek_apply]
  by_cases hMode : r.mode = .failFast
  · cases r.current.token <;> simp [Token.isString, hMode, bind_apply, reportExpected_apply]
  · cases r.current.token <;> simp [Token.isString, hMode, bind_apply, reportExpected_apply]

theorem readName_apply (r : Reading) :
    readName r =
      match r.current.token.name? with
      | some name => .ok name r.advance
      | none =>
        if r.mode = .failFast then .error .halted (r.miss "identifier or string")
        else .ok invalidName (r.miss "identifier or string") := by
  simp only [readName, bind_apply, peek_apply]
  by_cases hMode : r.mode = .failFast
  · cases r.current.token <;> simp [Token.name?, hMode, bind_apply, reportExpected_apply]
  · cases r.current.token <;> simp [Token.name?, hMode, bind_apply, reportExpected_apply]

/-! ## One round of a loop -/

section Loop

variable {round : σ → Reader (Round σ β)} {s s' : σ} {r r' : Reading}

theorem loop_of_leave {result : β} (h : round s r = .ok (.leave result) r') :
    loop round s r = .ok result r' := by
  rw [loop, h]

theorem loop_of_error {stop : Stop} (h : round s r = .error stop r') :
    loop round s r = .error stop r' := by
  rw [loop, h]

theorem loop_of_again (h : round s r = .ok (.again s') r')
    (hLt : r'.rest.length < r.rest.length) : loop round s r = loop round s' r' := by
  rw [loop, h]
  exact if_pos hLt

theorem loop_of_stay (h : round s r = .ok (.again s') r')
    (hStay : ¬ r'.rest.length < r.rest.length) : loop round s r = .error .endless r' := by
  rw [loop, h]
  exact if_neg hStay

end Loop

/-! ## Single tokens in a reading that fails fast

Such a reading gets past a token only if it is the one expected. -/

theorem expect_eq_ok {token : Token} {u : Unit} {r r' : Reading} (hMode : r.mode = .failFast) :
    expect token r = .ok u r' ↔ r.current.token = token ∧ r' = r.advance := by
  rw [expect_apply, if_pos hMode]
  split_ifs with hToken
  · simp [hToken, eq_comm]
  · simp [hToken]

theorem expectString_eq_ok {u : Unit} {r r' : Reading} (hMode : r.mode = .failFast) :
    expectString r = .ok u r' ↔ r.current.token.isString ∧ r' = r.advance := by
  rw [expectString_apply, if_pos hMode]
  split_ifs with hToken
  · simp [hToken, eq_comm]
  · simp [hToken]

theorem readName_eq_ok {name : String} {r r' : Reading} (hMode : r.mode = .failFast) :
    readName r = .ok name r' ↔ r.current.token.name? = some name ∧ r' = r.advance := by
  rw [readName_apply, if_pos hMode]
  cases r.current.token.name? with
  | none => simp
  | some text => simp [eq_comm]

end Reader

/-! ## Moves -/

/-- What a reading does in one go. -/
inductive Move : Reading → Reading → Prop
  | advance (r : Reading) : Move r r.advance
  | record (r : Reading) (message : String) : Move r (r.record message)
  | intern (r : Reading) (name : String) :
      Move r { r with graph := (r.graph.intern name).2 }
  | addEdge {r : Reading} {src dst : VertexId} (hSrc : src < r.graph.vertexCount)
      (hDst : dst < r.graph.vertexCount) : Move r { r with graph := r.graph.addEdge src dst }
  | setLabel (r : Reading) (id : VertexId) (label : String) :
      Move r { r with graph := r.graph.setLabel id label }
  | count (r : Reading) (effort : Effort) : Move r { r with effort := effort }

/-- Any number of moves. -/
abbrev Moves : Reading → Reading → Prop := Relation.ReflTransGen Move

/-- What is only ever added to while a reading goes on. -/
structure Grows (r r' : Reading) : Prop where
  diagnostics : r.diagnostics.toList <+: r'.diagnostics.toList
  names : r.graph.names <+: r'.graph.names
  edges : r.graph.edges <+: r'.graph.edges

theorem Grows.refl (r : Reading) : Grows r r :=
  ⟨List.prefix_rfl, List.prefix_rfl, List.prefix_rfl⟩

theorem Grows.trans {r r' r'' : Reading} (h : Grows r r') (h' : Grows r' r'') : Grows r r'' :=
  ⟨h.diagnostics.trans h'.diagnostics, h.names.trans h'.names, h.edges.trans h'.edges⟩

namespace Move

variable {r r' : Reading}

theorem mode_eq (h : Move r r') : r'.mode = r.mode := by
  cases h with
  | advance => exact r.mode_advance
  | record | intern | addEdge | setLabel | count => rfl

theorem name_eq (h : Move r r') : r'.name = r.name := by
  cases h with
  | advance => exact r.name_advance
  | record | intern | addEdge | setLabel | count => rfl

/-- Going to the next token drops the current one if it is not the last; nothing else touches
the tokens. -/
theorem rest_cases (h : Move r r') :
    r'.rest = r.rest ∨ ∃ t, r.rest = t :: r'.rest ∧ r'.rest ≠ [] := by
  cases h with
  | advance =>
    unfold Reading.advance
    split
    next t next more hRest => exact Or.inr ⟨t, hRest, List.cons_ne_nil _ _⟩
    next => exact Or.inl rfl
  | record | intern | addEdge | setLabel | count => exact Or.inl rfl

theorem mem_diagnostics (h : Move r r') {d : Diagnostic} (hd : d ∈ r'.diagnostics.toList) :
    d ∈ r.diagnostics.toList ∨ (d.stage = .parse ∧ d.line = r.current.line) := by
  cases h with
  | advance =>
    rw [Reading.diagnostics_advance] at hd
    exact Or.inl hd
  | record message =>
    simp only [Reading.record, Array.toList_push, List.mem_append, List.mem_singleton] at hd
    rcases hd with hOld | rfl
    · exact Or.inl hOld
    · exact Or.inr ⟨rfl, rfl⟩
  | intern | addEdge | setLabel | count => exact Or.inl hd

theorem grows (h : Move r r') : Grows r r' := by
  cases h with
  | advance =>
    unfold Reading.advance
    split
    · exact ⟨List.prefix_rfl, List.prefix_rfl, List.prefix_rfl⟩
    · exact Grows.refl _
  | record message =>
    refine ⟨?_, List.prefix_rfl, List.prefix_rfl⟩
    simp [Reading.record]
  | intern name =>
    refine ⟨List.prefix_rfl, Graph.names_prefix_intern _ _, ?_⟩
    rw [Graph.edges_intern]
  | addEdge hSrc hDst =>
    refine ⟨List.prefix_rfl, List.prefix_rfl, ?_⟩
    simp
  | setLabel id label =>
    refine ⟨List.prefix_rfl, ?_, List.prefix_rfl⟩
    rw [Graph.names_setLabel]
  | count effort => exact ⟨List.prefix_rfl, List.prefix_rfl, List.prefix_rfl⟩

end Move

namespace Moves

variable {r r' : Reading}

theorem mode_eq (h : Moves r r') : r'.mode = r.mode := by
  induction h with
  | refl => rfl
  | tail _ move ih => rw [move.mode_eq, ih]

theorem name_eq (h : Moves r r') : r'.name = r.name := by
  induction h with
  | refl => rfl
  | tail _ move ih => rw [move.name_eq, ih]

theorem grows (h : Moves r r') : Grows r r' := by
  induction h with
  | refl => exact Grows.refl _
  | tail _ move ih => exact ih.trans move.grows

theorem rest_suffix (h : Moves r r') : r'.rest <:+ r.rest := by
  induction h with
  | refl => exact List.suffix_rfl
  | tail _ move ih =>
    rcases move.rest_cases with hSame | ⟨t, hDrop, _⟩
    · rwa [hSame]
    · rw [hDrop] at ih
      exact (List.suffix_cons t _).trans ih

/-- The last token of the stream is never left behind. -/
theorem getLast?_rest (h : Moves r r') : r'.rest.getLast? = r.rest.getLast? := by
  induction h with
  | refl => rfl
  | tail _ move ih =>
    rcases move.rest_cases with hSame | ⟨t, hDrop, hNe⟩
    · rw [hSame, ih]
    · rw [← ih, hDrop, List.getLast?_cons, List.getLast?_eq_some_getLast hNe, Option.getD_some]

theorem rest_ne_nil (h : Moves r r') (hLeft : r.rest ≠ []) : r'.rest ≠ [] := by
  rwa [ne_eq, ← List.getLast?_eq_none_iff, h.getLast?_rest, List.getLast?_eq_none_iff]

/-- Every new diagnostic is on the line of a token that was left. -/
theorem mem_diagnostics (h : Moves r r') (hLeft : r.rest ≠ []) {d : Diagnostic}
    (hd : d ∈ r'.diagnostics.toList) :
    d ∈ r.diagnostics.toList ∨ (d.stage = .parse ∧ ∃ t ∈ r.rest, t.line = d.line) := by
  induction h with
  | refl => exact Or.inl hd
  | @tail r₁ r₂ moves move ih =>
    rcases move.mem_diagnostics hd with hOld | ⟨hStage, hLine⟩
    · exact ih hOld
    · have hCurrent : r₁.current ∈ r₁.rest := Reading.current_mem (rest_ne_nil moves hLeft)
      exact Or.inr ⟨hStage, r₁.current, (rest_suffix moves).subset hCurrent, hLine.symm⟩

theorem length_rest_le (h : Moves r r') : r'.rest.length ≤ r.rest.length :=
  h.rest_suffix.length_le

/-- The last token stays where it is. -/
theorem rest_eq_of_length_le (h : Moves r r') (hLast : r.rest.length ≤ 1) : r'.rest = r.rest := by
  induction h with
  | refl => rfl
  | tail _ move ih =>
    rcases move.rest_cases with hSame | ⟨t, hDrop, hNe⟩
    · rw [hSame, ih]
    · rw [← ih, hDrop, List.length_cons] at hLast
      have hPos := List.length_pos_iff.2 hNe
      omega

theorem vertexCount_le (h : Moves r r') : r.graph.vertexCount ≤ r'.graph.vertexCount :=
  Graph.vertexCount_le_of_prefix h.grows.names

end Moves

end GraphMarkup.Dot
