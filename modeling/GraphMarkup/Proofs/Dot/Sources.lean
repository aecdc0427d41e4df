import GraphMarkup.Proofs.Dot.Accounts
import GraphMarkup.Proofs.Dot.Termination

/-!
# Where the texts of a graph come from

A graph that was read of tokens shows no text but what some token says, and the placeholder for a
name that was missed (`invents_placeholder_only`). That holds in either mode, wherever the reading
stops, and whatever it went over to get there.

What is read as a name is held until it is used, as a vertex or as an attribute, and the attributes
of a list are held until it is closed. So the invariant is about the texts in the graph and those in
hand (`Sourced`): reading a name takes one more in hand, and nothing is put into the graph that is
not in hand.
-/

namespace GraphMarkup

/-! ## Texts of a graph -/

namespace Graph

variable {g : Graph} {text : String}

/-- The names and the labels of the vertices. -/
def texts (g : Graph) : List String := g.vertices.flatMap fun v => [v.name, v.label]

theorem mem_texts : text ∈ g.texts ↔ ∃ v ∈ g.vertices, text = v.name ∨ text = v.label := by
  simp [texts]

theorem mem_texts_of_intern {name : String} (hText : text ∈ (g.intern name).2.texts) :
    text ∈ g.texts ∨ text = name := by
  unfold intern at hText
  split at hText
  · exact Or.inl hText
  · simpa [texts] using hText

theorem mem_texts_of_setLabel {id : VertexId} {label : String}
    (hText : text ∈ (g.setLabel id label).texts) : text ∈ g.texts ∨ text = label := by
  obtain ⟨v, hv, hSaid⟩ := mem_texts.1 hText
  obtain ⟨i, hAt⟩ := List.mem_iff_getElem?.1 hv
  simp only [setLabel, List.getElem?_modify, Option.map_eq_map, Option.map_eq_some_iff] at hAt
  obtain ⟨old, hOld, rfl⟩ := hAt
  have hMem : old ∈ g.vertices := List.mem_of_getElem? hOld
  split_ifs at hSaid with hHere
  · rcases hSaid with hName | hLabel
    · exact Or.inl (mem_texts.2 ⟨old, hMem, Or.inl hName⟩)
    · exact Or.inr hLabel
  · exact Or.inl (mem_texts.2 ⟨old, hMem, hSaid⟩)

end Graph

theorem mem_of_lastSaid? {β : Type} {said : List (String × β)} {name : String} {value : β}
    (h : lastSaid? said name = some value) : (name, value) ∈ said := by
  obtain ⟨entry, hLast, rfl⟩ := Option.map_eq_some_iff.1 h
  obtain ⟨hMem, hName⟩ := List.mem_filter.1 (List.mem_of_getLast? hLast)
  rw [beq_iff_eq] at hName
  exact hName ▸ hMem

/-- What is said where a name is missed. -/
def Diagnostic.MissesName (d : Diagnostic) : Prop :=
  ∃ got, d.message = "expected identifier or string" ++ got

namespace Dot

/-! ## Texts that have a source -/

/-- A text that some token says as a name. -/
def TokenStream.Says (tokens : TokenStream) (text : String) : Prop :=
  ∃ t ∈ tokens, t.token.name? = some text

instance (tokens : TokenStream) (text : String) : Decidable (tokens.Says text) :=
  inferInstanceAs (Decidable (∃ t ∈ tokens, t.token.name? = some text))

namespace Reader

/-- A text that some token says, or the placeholder where a name was missed. -/
def Founded (tokens : TokenStream) (diagnostics : List Diagnostic) (text : String) : Prop :=
  tokens.Says text ∨ (text = invalidName ∧ ∃ d ∈ diagnostics, d.MissesName)

/-- The tokens that are left are of the stream, and each text in the graph or in hand has a
source. -/
structure Sourced (tokens : TokenStream) (inHand : List String) (r : Reading) : Prop where
  rest : r.rest ⊆ tokens
  graph : ∀ text ∈ r.graph.texts, Founded tokens r.diagnostics.toList text
  inHand : ∀ text ∈ inHand, Founded tokens r.diagnostics.toList text

section Sourced

variable {tokens : TokenStream} {inHand inHand' : List String} {r : Reading} {name : String}

theorem Founded.mono {diagnostics later : List Diagnostic} {text : String}
    (h : Founded tokens diagnostics text) (hSub : diagnostics ⊆ later) :
    Founded tokens later text := by
  rcases h with hSays | ⟨hInvalid, d, hMem, hMissed⟩
  · exact Or.inl hSays
  · exact Or.inr ⟨hInvalid, d, hSub hMem, hMissed⟩

theorem Sourced.mono (h : Sourced tokens inHand r) (hSub : inHand' ⊆ inHand) :
    Sourced tokens inHand' r :=
  ⟨h.rest, h.graph, fun text hText => h.inHand text (hSub hText)⟩

theorem Sourced.drop (h : Sourced tokens inHand r) : Sourced tokens [] r :=
  h.mono (List.nil_subset _)

theorem stable_sourced : Stable (Sourced tokens inHand) where
  advance r h := by
    have hSuffix : r.advance.rest <:+ r.rest := (Moves.rest_suffix (.single (.advance r)))
    refine ⟨fun t ht => h.rest (hSuffix.subset ht), ?_, ?_⟩
    · rw [r.graph_advance, r.diagnostics_advance]
      exact h.graph
    · rw [r.diagnostics_advance]
      exact h.inHand
  record r message h := by
    have hSub : r.diagnostics.toList ⊆ (r.record message).diagnostics.toList := by
      simp [Reading.record]
    exact ⟨h.rest, fun text hText => (h.graph text hText).mono hSub,
      fun text hText => (h.inHand text hText).mono hSub⟩

/-- Only texts in hand are put into the graph. -/
theorem Sourced.withGraph (h : Sourced tokens inHand r) {g : Graph}
    (hTexts : ∀ text ∈ g.texts, text ∈ r.graph.texts ∨ text ∈ inHand) :
    Sourced tokens inHand { r with graph := g } where
  rest := h.rest
  graph text hText := (hTexts text hText).elim (h.graph text) (h.inHand text)
  inHand := h.inHand

/-- What a token says is taken in hand. -/
theorem Sourced.take (h : Sourced tokens inHand r) (hName : r.current.token.name? = some name) :
    Sourced tokens (name :: inHand) r := by
  have hLeft : r.rest ≠ [] := by
    intro hNil
    simp [Reading.current, hNil, Token.name?] at hName
  have hMem : r.current ∈ tokens := h.rest (Reading.current_mem hLeft)
  exact ⟨h.rest, h.graph, List.forall_mem_cons.2 ⟨Or.inl ⟨r.current, hMem, hName⟩, h.inHand⟩⟩

/-- Where a name is missed, the placeholder is taken in hand. -/
theorem Sourced.miss (h : Sourced tokens inHand r) :
    Sourced tokens (invalidName :: inHand) (r.miss "identifier or string") := by
  let d : Diagnostic := ⟨.parse, r.current.line,
    "expected " ++ "identifier or string" ++ ", got " ++ r.current.token.describe⟩
  have hMem : d ∈ (r.miss "identifier or string").diagnostics.toList := by
    simp [Reading.miss, Reading.record, d]
  have hMisses : d.MissesName := by
    refine ⟨", got " ++ r.current.token.describe, ?_⟩
    show "expected " ++ "identifier or string" ++ ", got " ++ r.current.token.describe = _
    rw [String.append_assoc]
    rfl
  have hRecorded : Sourced tokens inHand (r.miss "identifier or string") :=
    stable_sourced.record r _ h
  exact ⟨hRecorded.rest, hRecorded.graph,
    List.forall_mem_cons.2 ⟨Or.inr ⟨rfl, d, hMem, hMisses⟩, hRecorded.inHand⟩⟩

end Sourced

/-! ## Procedures -/

/-- Started with some texts in hand, a procedure that gets through leaves others there. -/
abbrev Sources {α : Type} (tokens : TokenStream) (inHand : List String) (x : Reader α)
    (inHand' : α → List String) : Prop :=
  Meets (Sourced tokens inHand) x (fun a => Sourced tokens (inHand' a)) (Sourced tokens [])

section Procedures

variable {tokens : TokenStream} {inHand : List String}

theorem sources_expect (token : Token) : Sources tokens inHand (expect token) fun _ => inHand :=
  (stable_sourced.patient.expect token).mono_stop fun _ h => h.drop

theorem sources_readName : Sources tokens inHand readName fun name => name :: inHand := by
  intro r hr
  rw [readName_apply]
  split
  next name hName => exact stable_sourced.advance r (hr.take hName)
  next =>
    split_ifs
    · exact hr.miss.drop
    · exact hr.miss

theorem sources_intern (name : String) :
    Sources tokens (name :: inHand) (intern name) fun _ => name :: inHand := by
  refine meets_intern fun _ h => h.withGraph fun text hText => ?_
  refine (Graph.mem_texts_of_intern hText).imp_right fun hName => ?_
  rw [hName]
  exact List.mem_cons_self

/-- Of an attribute the value is kept. -/
theorem sources_readAttribute (isFirst : Bool) :
    Sources tokens inHand (readAttribute isFirst) fun a => a.2 :: inHand := by
  have hAttribute : ∀ _ : Unit, Sources tokens inHand (do
      let name ← readName
      expect (.mark .equals)
      let value ← readName
      return (name, value)) fun a => a.2 :: inHand := fun _ =>
    .bind sources_readName fun name => .bind (sources_expect _) fun _ =>
      .bind sources_readName fun value => meets_pure fun _ h => h.mono (by simp)
  exact meets_ite (hAttribute ()) (.bind (sources_expect _) hAttribute)

theorem sources_attributeRound (attributes : Attributes) :
    Meets (Sourced tokens (attributes.map (·.2))) (attributeRound attributes)
      (RoundLands (fun all => Sourced tokens (all.map (·.2))) fun all =>
        Sourced tokens (all.map (·.2))) (Sourced tokens []) := by
  intro r hr
  have hCounted : Sourced tokens (attributes.map (·.2)) r.countAttribute :=
    ⟨hr.rest, hr.graph, hr.inHand⟩
  rw [attributeRound_apply]
  split_ifs
  · exact stable_sourced.advance _ hCounted
  · exact hCounted
  · exact Lands.bind (sources_readAttribute _ _ hCounted) fun a => meets_pure fun _ h => h

theorem sources_readAttributes :
    Sources tokens [] readAttributes fun attributes => attributes.map (·.2) :=
  .bind (sources_expect _) fun _ => meets_loop (fun _ _ h => h.drop) sources_attributeRound []

theorem mem_texts_of_labelled {g : Graph} {src : VertexId} {isEdge : Bool}
    {attributes : Attributes} {text : String}
    (hText : text ∈ (labelled g src isEdge attributes.reverse).texts) :
    text ∈ g.texts ∨ text ∈ attributes.map (·.2) := by
  unfold labelled at hText
  split_ifs at hText
  · exact Or.inl hText
  · cases hLast : lastSaid? attributes.reverse Keyword.label.word with
    | none =>
      rw [hLast] at hText
      exact Or.inl hText
    | some label =>
      rw [hLast] at hText
      refine (Graph.mem_texts_of_setLabel hText).imp_right fun hLabel => ?_
      have hMem := List.mem_reverse.1 (mem_of_lastSaid? hLast)
      exact List.mem_map.2 ⟨_, hMem, hLabel.symm⟩

theorem sources_readLabel (src : VertexId) (isEdge : Bool) :
    Sources tokens [] (readLabel src isEdge) fun _ => [] := by
  intro r hr
  rw [readLabel_apply]
  split_ifs
  · refine Lands.bind (sources_readAttributes r hr) fun attributes => meets_modify fun _ h => ?_
    exact (h.withGraph fun _ => mem_texts_of_labelled).drop
  · exact hr

theorem sources_readTarget (src : VertexId) :
    Sources tokens [] (readTarget src) fun _ => [] := by
  intro r hr
  rw [readTarget_apply]
  split_ifs
  · have hPassed := stable_sourced.advance r hr
    refine Lands.bind (sources_readName _ hPassed) fun name =>
      .bind (sources_intern name) fun dst => ?_
    have hEdge : Sources tokens [name]
        (modify fun r => { r with graph := r.graph.addEdge src dst }) fun _ => [] :=
      meets_modify fun r h => (h.withGraph (g := r.graph.addEdge src dst) fun _ => Or.inl).drop
    exact .bind hEdge fun _ => meets_pure fun _ h => h
  · exact hr

theorem sources_readVertices : Sources tokens [] readVertices fun _ => [] := by
  refine .bind sources_readName fun name => .bind (sources_intern name) fun src => ?_
  -- The name is in the graph by now and need not be held any more.
  have hLater : Sources tokens [] (readTarget src >>= readLabel src) fun _ => [] :=
    .bind (sources_readTarget src) fun isEdge => sources_readLabel src isEdge
  exact fun r hr => hLater r hr.drop

theorem sources_readStatement : Sources tokens [] readStatement fun _ => [] := by
  intro r hr
  rw [readStatement_apply]
  split_ifs
  · exact stable_sourced.patient.readDirective r hr
  · exact sources_readVertices r hr

theorem sources_statementRound (u : Unit) :
    Meets (Sourced tokens []) (statementRound u)
      (RoundLands (fun _ => Sourced tokens []) fun _ => Sourced tokens []) (Sourced tokens []) := by
  intro r hr
  have hCounted : Sourced tokens [] r.countStatement := ⟨hr.rest, hr.graph, hr.inHand⟩
  rw [statementRound_apply]
  split_ifs
  · exact stable_sourced.advance _ hCounted
  · have hReport := stable_sourced.patient.reportExpected (.token (.mark .rightBrace)) _ hCounted
    exact Lands.bind hReport fun _ => meets_pure fun _ h => h
  · exact Lands.bind (sources_readStatement _ hCounted) fun _ =>
      .bind (stable_sourced.patient.expect _) fun _ => meets_pure fun _ h => h

theorem sources_readDocument : Sources tokens [] readDocument fun _ => [] := by
  have hHeader : Sources tokens [] readHeader fun _ => [] := by
    refine .bind (sources_expect _) fun _ => .bind sources_readName fun name =>
      .bind (meets_modify fun _ h => ?_) fun _ => sources_expect _
    exact ⟨h.rest, h.graph, h.drop.inHand⟩
  have hLoop : Sources tokens [] (loop statementRound ()) fun _ => [] :=
    meets_loop (fun _ _ h => Sourced.drop h) sources_statementRound ()
  exact .bind hHeader fun _ => .bind hLoop fun _ => sources_expect _

end Procedures

end Reader

/-! ## Whole documents -/

namespace Document

open Reader

theorem founded_ofTokens (mode : Mode) (tokens : TokenStream) :
    ∀ text ∈ (ofTokens mode tokens).graph.texts,
      Founded tokens (ofTokens mode tokens).diagnostics text := by
  have hStart : Sourced tokens [] { mode := mode, rest := tokens } :=
    ⟨fun _ ht => ht, List.forall_mem_nil _, List.forall_mem_nil _⟩
  have hFinal := (sources_readDocument _ hStart).of_final
  obtain ⟨stopped, hDocument⟩ := ofTokens_eq_final mode tokens
  rw [hDocument]
  exact hFinal.graph

/-- On tokens that end with the end of input, each name and each label of the graph is said by a
token, or it is the placeholder. A placeholder that no token says stands for a name that was missed
and reported. There is an arrow for each edge. -/
theorem invents_placeholder_only (mode : Mode) {tokens : TokenStream}
    (hEof : ∃ t ∈ tokens.getLast?, t.token = .eof) :
    (ofTokens mode tokens).stopped ≠ some .endless ∧
      (∀ v ∈ (ofTokens mode tokens).graph.vertices,
        (tokens.Says v.name ∨ v.name = invalidName) ∧
          (tokens.Says v.label ∨ v.label = invalidName)) ∧
      ((∃ v ∈ (ofTokens mode tokens).graph.vertices,
          v.name = invalidName ∨ v.label = invalidName) → ¬ tokens.Says invalidName →
        ∃ d ∈ (ofTokens mode tokens).diagnostics, d.MissesName) ∧
      (ofTokens mode tokens).graph.edgeCount ≤ tokens.arrows := by
  have hFounded := founded_ofTokens mode tokens
  refine ⟨?_, fun v hv => ⟨?_, ?_⟩, fun hPlaceholder hUnsaid => ?_, ?_⟩
  · rw [ne_eq, stopped_eq_endless_iff, not_not]
    exact terminates_of_eof hEof
  · have hName := hFounded v.name (Graph.mem_texts.2 ⟨v, hv, Or.inl rfl⟩)
    exact hName.imp_right fun hInvalid => hInvalid.1
  · have hLabel := hFounded v.label (Graph.mem_texts.2 ⟨v, hv, Or.inr rfl⟩)
    exact hLabel.imp_right fun hInvalid => hInvalid.1
  · obtain ⟨v, hv, hText⟩ := hPlaceholder
    have hMem : invalidName ∈ (ofTokens mode tokens).graph.texts :=
      Graph.mem_texts.2 ⟨v, hv, hText.imp Eq.symm Eq.symm⟩
    exact ((hFounded invalidName hMem).resolve_left hUnsaid).2
  · obtain ⟨-, -, hEdges⟩ := accounts_readDocument mode hEof
    obtain ⟨stopped, hDocument⟩ := ofTokens_eq_final mode tokens
    rw [hDocument]
    exact hEdges

/-- An edge that lacks the name it starts at, and a label that lacks its text. -/
def nameless : TokenStream :=
  [⟨.keyword .digraph, 1⟩, ⟨.ident "G", 1⟩, ⟨.mark .leftBrace, 1⟩, ⟨.mark .arrow, 1⟩,
    ⟨.ident "b", 1⟩, ⟨.mark .semicolon, 1⟩, ⟨.ident "a", 2⟩, ⟨.mark .leftBracket, 2⟩,
    ⟨.ident "label", 2⟩, ⟨.mark .equals, 2⟩, ⟨.mark .rightBracket, 2⟩, ⟨.mark .semicolon, 2⟩,
    ⟨.mark .rightBrace, 3⟩, ⟨.eof, 3⟩]

theorem invents_placeholder_only_nameless :
    (∃ t ∈ nameless.getLast?, t.token = .eof) ∧ ¬ nameless.Says invalidName ∧
      (ofTokens .recover nameless).graph.vertices =
        [⟨invalidName, invalidName⟩, ⟨"b", "b"⟩, ⟨"a", invalidName⟩] ∧
      (∃ d ∈ (ofTokens .recover nameless).diagnostics, d.MissesName) ∧
      (ofTokens .recover nameless).graph.edgeCount ≤ nameless.arrows := by
  have hEof : ∃ t ∈ nameless.getLast?, t.token = .eof := ⟨⟨.eof, 3⟩, rfl, rfl⟩
  have hUnsaid : ¬ nameless.Says invalidName := by decide
  have hVertices : (ofTokens .recover nameless).graph.vertices =
      [⟨invalidName, invalidName⟩, ⟨"b", "b"⟩, ⟨"a", invalidName⟩] := by decide +kernel
  obtain ⟨-, -, hMisses, hEdges⟩ := invents_placeholder_only .recover hEof
  have hPlaceholder : ∃ v ∈ (ofTokens .recover nameless).graph.vertices,
      v.name = invalidName ∨ v.label = invalidName := by
    rw [hVertices]
    exact ⟨_, List.mem_cons_self, Or.inl rfl⟩
  exact ⟨hEof, hUnsaid, hVertices, hMisses hPlaceholder hUnsaid, hEdges⟩

end Document

end Dot

end GraphMarkup
