import GraphMarkup.Proofs.Dot.Contract

/-!
# What a reading reports

The diagnostics of a reading depend on nothing but the tokens that it goes over and what it misses
at them. An assertion about the tokens left and the diagnostics so far that is kept wherever the
reading goes on, and wherever it misses something, is therefore kept by the whole reading of a
document, in either mode and wherever that stops (`Reporting.readDocument`). What is known of all
diagnostics is proved in this way, with two steps to look at and no procedure.

The first such assertion is `reports_ofTokens`: each diagnostic is on the line of a token of the
stream and says what was expected there, and what stands there instead.
-/

namespace GraphMarkup.Dot

/-- What is said where a token stands in the place of what was expected. -/
def Located.missed (t : Located) (expected : String) : Diagnostic :=
  ⟨.parse, t.line, "expected " ++ expected ++ ", got " ++ t.token.describe⟩

theorem Reading.diagnostics_miss (r : Reading) (expected : String) :
    (r.miss expected).diagnostics.toList = r.diagnostics.toList ++ [r.current.missed expected] :=
  Array.toList_push

namespace Reader

/-- An assertion about the tokens that are left and the diagnostics so far, which is not spoilt by
going on, nor by a miss. -/
structure Reporting (I : Reading → Prop) : Prop extends Patient I where
  of_eq : ∀ r r' : Reading, I r → r'.rest = r.rest → r'.diagnostics = r.diagnostics → I r'

namespace Reporting

variable {I : Reading → Prop} (hI : Reporting I)

include hI

theorem attributeRound (attributes : Attributes) :
    Meets I (attributeRound attributes) (RoundLands (fun _ => I) fun _ => I) I := by
  intro r hr
  have hCounted : I r.countAttribute := hI.of_eq r _ hr rfl rfl
  rw [attributeRound_apply]
  split_ifs
  · exact hI.advance _ hCounted
  · exact hCounted
  · exact (hI.readAttribute _ _ hCounted).bind fun a => meets_pure fun _ h => h

theorem readAttributes : Keeps I readAttributes :=
  .bind (hI.expect _) fun _ => meets_loop (I := fun _ => I) (fun _ _ h => h) hI.attributeRound []

/-- What a reading makes of a graph, of a name or of its effort does not matter. -/
theorem modify {f : Reading → Reading} (hRest : ∀ r, (f r).rest = r.rest)
    (hDiagnostics : ∀ r, (f r).diagnostics = r.diagnostics) : Keeps I (modify f) :=
  meets_modify fun r hr => hI.of_eq r _ hr (hRest r) (hDiagnostics r)

theorem intern (name : String) : Keeps I (intern name) :=
  meets_intern fun r hr => hI.of_eq r _ hr rfl rfl

theorem readLabel (src : VertexId) (isEdge : Bool) : Keeps I (readLabel src isEdge) := by
  intro r hr
  rw [readLabel_apply]
  split_ifs
  · exact (hI.readAttributes r hr).bind fun _ => hI.modify (fun _ => rfl) fun _ => rfl
  · exact hr

theorem readTarget (src : VertexId) : Keeps I (readTarget src) := by
  intro r hr
  rw [readTarget_apply]
  split_ifs
  · refine (hI.readName _ (hI.advance r hr)).bind fun name => .bind (hI.intern name) fun dst => ?_
    exact .bind (hI.modify (fun _ => rfl) fun _ => rfl) fun _ => meets_pure fun _ h => h
  · exact hr

theorem readVertices : Keeps I readVertices :=
  .bind hI.readName fun name => .bind (hI.intern name) fun src =>
    .bind (hI.readTarget src) fun isEdge => hI.readLabel src isEdge

theorem readStatement : Keeps I readStatement := by
  intro r hr
  rw [readStatement_apply]
  split_ifs
  · exact hI.readDirective r hr
  · exact hI.readVertices r hr

theorem statementRound (u : Unit) :
    Meets I (statementRound u) (RoundLands (fun _ => I) fun _ => I) I := by
  intro r hr
  have hCounted : I r.countStatement := hI.of_eq r _ hr rfl rfl
  rw [statementRound_apply]
  split_ifs
  · exact hI.advance _ hCounted
  · have hReport := hI.reportExpected (.token (.mark .rightBrace)) _ hCounted
    exact hReport.bind fun _ => meets_pure fun _ h => h
  · exact (hI.readStatement _ hCounted).bind fun _ => .bind (hI.expect _) fun _ =>
      meets_pure fun _ h => h

theorem readHeader : Keeps I readHeader :=
  .bind (hI.expect _) fun _ => .bind hI.readName fun _ =>
    .bind (hI.modify (fun _ => rfl) fun _ => rfl) fun _ => hI.expect _

theorem readDocument : Keeps I readDocument :=
  .bind hI.readHeader fun _ =>
    .bind (meets_loop (I := fun _ => I) (fun _ _ h => h) hI.statementRound ()) fun _ =>
      hI.expect _

end Reporting

/-! ## What a diagnostic says -/

/-- A diagnostic is of a token at which something was missed. -/
def Reports (t : Located) (d : Diagnostic) : Prop :=
  ∃ expected, Expectation expected ∧ d = t.missed expected

theorem Reports.stage {t : Located} {d : Diagnostic} (h : Reports t d) : d.stage = .parse := by
  obtain ⟨_, -, rfl⟩ := h
  rfl

theorem Reports.line {t : Located} {d : Diagnostic} (h : Reports t d) : d.line = t.line := by
  obtain ⟨_, -, rfl⟩ := h
  rfl

/-- Every diagnostic so far is of a token of the stream, and those left are of it, too. -/
structure Reported (tokens : TokenStream) (r : Reading) : Prop where
  left : r.rest ≠ []
  rest : r.rest ⊆ tokens
  diagnostics : ∀ d ∈ r.diagnostics.toList, ∃ t ∈ tokens, Reports t d

theorem reporting_reported (tokens : TokenStream) : Reporting (Reported tokens) where
  advance r h := by
    have hMoves : Moves r r.advance := .single (.advance r)
    refine ⟨hMoves.rest_ne_nil h.left, fun t ht => h.rest (hMoves.rest_suffix.subset ht), ?_⟩
    rw [r.diagnostics_advance]
    exact h.diagnostics
  miss r expected hExpected h := by
    have hNew : ∃ t ∈ tokens, Reports t (r.current.missed expected) :=
      ⟨r.current, h.rest (Reading.current_mem h.left), expected, hExpected, rfl⟩
    refine ⟨h.left, h.rest, ?_⟩
    rw [r.diagnostics_miss]
    exact List.forall_mem_append.2 ⟨h.diagnostics, List.forall_mem_singleton.2 hNew⟩
  of_eq r r' h hRest hDiagnostics := by
    refine ⟨?_, ?_, ?_⟩
    · rw [hRest]
      exact h.left
    · rw [hRest]
      exact h.rest
    · rw [hDiagnostics]
      exact h.diagnostics

end Reader

namespace Document

open Reader

/-- What holds before any token was read, and is about tokens and diagnostics alone, holds of what
the reading of a document ends with. -/
theorem reporting_final {I : Reading → Prop} (hI : Reporting I) {mode : Mode} {tokens : TokenStream}
    (hStart : I { mode := mode, rest := tokens }) :
    I (final (readDocument { mode := mode, rest := tokens })) :=
  (hI.readDocument _ hStart).of_final

theorem reports_ofTokens (mode : Mode) {tokens : TokenStream} (hSome : tokens ≠ []) :
    ∀ d ∈ (ofTokens mode tokens).diagnostics, ∃ t ∈ tokens, Reports t d := by
  have hStart : Reported tokens { mode := mode, rest := tokens } :=
    ⟨hSome, fun _ ht => ht, List.forall_mem_nil _⟩
  obtain ⟨stopped, hDocument⟩ := ofTokens_eq_final mode tokens
  rw [hDocument]
  exact (reporting_final (reporting_reported tokens) hStart).diagnostics

end Document

end GraphMarkup.Dot
