import GraphMarkup.Proofs.Dot.Regular

/-!
# Getting over tokens

`Passes r ts g r'` says that a reading got from `r` over the tokens `ts` to `r'`, and that nothing
else happened but a change of the graph to `g`. What a single token does is said twice: a reading
that fails fast passes no token but the expected one (`passes_of_expect` and the like), and a
reading in either mode passes that one (`expect_of_tokens` and the like).
-/

namespace GraphMarkup.Dot

namespace Reading

/-- The tokens that are left, without their lines. -/
def tokens (r : Reading) : List Token := r.rest.map (·.token)

theorem current_of_tokens {r : Reading} {t : Token} {more : List Token}
    (h : r.tokens = t :: more) : r.current.token = t := by
  unfold tokens at h
  cases hRest : r.rest with
  | nil => simp [hRest] at h
  | cons head rest => simp_all [current]

theorem exists_tokens_eq {r : Reading} (hLeft : r.tokens ≠ []) :
    ∃ more, r.tokens = r.current.token :: more := by
  cases hTokens : r.tokens with
  | nil => exact absurd hTokens hLeft
  | cons t more => exact ⟨more, by rw [current_of_tokens hTokens]⟩

/-- The stream ends with the end of input. -/
def EndsInEof (r : Reading) : Prop := r.tokens.getLast? = some .eof

theorem endsInEof_iff {r : Reading} : r.EndsInEof ↔ ∃ t ∈ r.rest.getLast?, t.token = .eof := by
  rw [EndsInEof, tokens, List.getLast?_map, Option.map_eq_some_iff]
  rfl

theorem EndsInEof.tokens_ne_nil {r : Reading} (hEnds : r.EndsInEof) : r.tokens ≠ [] := by
  intro hNil
  simp [EndsInEof, hNil] at hEnds

theorem tokens_of_ne_eof {r : Reading} (hEnds : r.EndsInEof) (hNe : r.current.token ≠ .eof) :
    ∃ more, r.tokens = r.current.token :: more ∧ more ≠ [] := by
  obtain ⟨more, hTokens⟩ := exists_tokens_eq hEnds.tokens_ne_nil
  refine ⟨more, hTokens, fun hNil => hNe ?_⟩
  simpa [EndsInEof, hTokens, hNil] using hEnds

theorem tokens_advance {r : Reading} {t : Token} {more : List Token}
    (h : r.tokens = t :: more) (hMore : more ≠ []) : r.advance.tokens = more := by
  unfold tokens at h ⊢
  match hRest : r.rest with
  | [] => simp [hRest] at h
  | [u] => simp_all
  | u :: next :: later => simp_all [advance]

end Reading

/-- `r'` is `r` after some tokens, with a graph `g` and otherwise the same. -/
structure Passes (r : Reading) (ts : List Token) (g : Graph) (r' : Reading) : Prop where
  tokens : r.tokens = ts ++ r'.tokens
  left : r'.tokens ≠ []
  graph : r'.graph = g
  mode : r'.mode = r.mode
  name : r'.name = r.name
  diagnostics : r'.diagnostics = r.diagnostics

namespace Passes

variable {r r₁ r₂ : Reading} {ts us : List Token} {g h : Graph}

theorem refl (hLeft : r.tokens ≠ []) : Passes r [] r.graph r :=
  ⟨rfl, hLeft, rfl, rfl, rfl, rfl⟩

theorem trans (first : Passes r ts g r₁) (later : Passes r₁ us h r₂) :
    Passes r (ts ++ us) h r₂ where
  tokens := by rw [first.tokens, later.tokens, List.append_assoc]
  left := later.left
  graph := later.graph
  mode := later.mode.trans first.mode
  name := later.name.trans first.name
  diagnostics := later.diagnostics.trans first.diagnostics

/-- The second part leaves the graph as it was. -/
theorem keep (first : Passes r ts g r₁) (later : Passes r₁ us r₁.graph r₂) :
    Passes r (ts ++ us) g r₂ := by
  have hAll := first.trans later
  rwa [first.graph] at hAll

theorem endsInEof (first : Passes r ts g r₁) (hEnds : r.EndsInEof) : r₁.EndsInEof := by
  unfold Reading.EndsInEof at hEnds ⊢
  rwa [first.tokens, List.getLast?_append_of_ne_nil _ first.left] at hEnds

theorem advance {t : Token} {more : List Token} (h : r.tokens = t :: more) (hMore : more ≠ []) :
    Passes r [t] r.graph r.advance where
  tokens := by rw [Reading.tokens_advance h hMore, h]; rfl
  left := by rwa [Reading.tokens_advance h hMore]
  graph := r.graph_advance
  mode := r.mode_advance
  name := r.name_advance
  diagnostics := r.diagnostics_advance

/-- In front of the end of input no token is the last. -/
theorem advance_of_ne_eof {t : Token} (hEnds : r.EndsInEof) (hToken : r.current.token = t)
    (hNe : t ≠ .eof) : Passes r [t] r.graph r.advance := by
  subst hToken
  obtain ⟨more, hTokens, hMore⟩ := Reading.tokens_of_ne_eof hEnds hNe
  exact advance hTokens hMore

theorem tokens_left (first : Passes r ts g r₁) {more : List Token}
    (hTokens : r.tokens = ts ++ more) : r₁.tokens = more := by
  rw [first.tokens] at hTokens
  exact List.append_cancel_left hTokens

theorem length_rest_lt {t : Token} (first : Passes r (t :: ts) g r₁) :
    r₁.rest.length < r.rest.length := by
  have hLength := congrArg List.length first.tokens
  simp only [Reading.tokens, List.length_append, List.length_cons, List.length_map] at hLength
  omega

theorem withGraph (first : Passes r ts g r₁) : Passes r ts h { r₁ with graph := h } :=
  ⟨first.tokens, first.left, rfl, first.mode, first.name, first.diagnostics⟩

theorem of_countAttribute (first : Passes r.countAttribute ts g r₁) : Passes r ts g r₁ :=
  ⟨first.tokens, first.left, first.graph, first.mode, first.name, first.diagnostics⟩

theorem of_countStatement (first : Passes r.countStatement ts g r₁) : Passes r ts g r₁ :=
  ⟨first.tokens, first.left, first.graph, first.mode, first.name, first.diagnostics⟩

end Passes

/-- A reading that fails fast, on a stream that ends with the end of input. -/
structure Reading.Strict (r : Reading) : Prop where
  mode : r.mode = .failFast
  ends : r.EndsInEof

theorem Reading.Strict.of_passes {r r' : Reading} {ts : List Token} {g : Graph}
    (hStrict : r.Strict) (h : Passes r ts g r') : r'.Strict :=
  ⟨h.mode.trans hStrict.mode, h.endsInEof hStrict.ends⟩

theorem Token.ne_of_name? {t u : Token} {name : String} (hName : t.name? = some name)
    (hNone : u.name? = none) : t ≠ u := by
  rintro rfl
  rw [hName] at hNone
  cases hNone

theorem Token.not_endsAttributes_of_name? {t : Token} {name : String}
    (hName : t.name? = some name) : ¬ t.endsAttributes := by
  intro hEnd
  cases t with
  | ident | str | keyword | mark => cases hEnd
  | eof | unrecognized => cases hName

namespace Reader

/-! ## Single tokens -/

section Single

variable {r r' : Reading}

theorem passes_of_expect {token : Token} {u : Unit} (hStrict : r.Strict) (hNe : token ≠ .eof)
    (hRun : expect token r = .ok u r') : Passes r [token] r.graph r' := by
  obtain ⟨hToken, rfl⟩ := (expect_eq_ok hStrict.mode).1 hRun
  exact Passes.advance_of_ne_eof hStrict.ends hToken hNe

theorem passes_of_expectString {u : Unit} (hStrict : r.Strict)
    (hRun : expectString r = .ok u r') : ∃ text, Passes r [.str text] r.graph r' := by
  obtain ⟨hToken, rfl⟩ := (expectString_eq_ok hStrict.mode).1 hRun
  cases hCurrent : r.current.token with
  | str text => exact ⟨text, Passes.advance_of_ne_eof hStrict.ends hCurrent (by simp)⟩
  | _ => simp [hCurrent, Token.isString] at hToken

theorem passes_of_readName {name : String} (hStrict : r.Strict)
    (hRun : readName r = .ok name r') :
    r.current.token.name? = some name ∧ Passes r [r.current.token] r.graph r' := by
  obtain ⟨hName, rfl⟩ := (readName_eq_ok hStrict.mode).1 hRun
  refine ⟨hName, Passes.advance_of_ne_eof hStrict.ends rfl fun hEof => ?_⟩
  rw [hEof] at hName
  cases hName

variable {t : Token} {more : List Token}

theorem expect_of_tokens (hTokens : r.tokens = t :: more) (hMore : more ≠ []) :
    ∃ r', expect t r = .ok () r' ∧ Passes r [t] r.graph r' := by
  refine ⟨r.advance, ?_, .advance hTokens hMore⟩
  rw [expect_apply, if_pos (Reading.current_of_tokens hTokens)]

theorem expectString_of_tokens {text : String} (hTokens : r.tokens = .str text :: more)
    (hMore : more ≠ []) :
    ∃ r', expectString r = .ok () r' ∧ Passes r [.str text] r.graph r' := by
  refine ⟨r.advance, ?_, .advance hTokens hMore⟩
  rw [expectString_apply, Reading.current_of_tokens hTokens]
  rfl

theorem readName_of_tokens {name : String} (hTokens : r.tokens = t :: more) (hMore : more ≠ [])
    (hName : t.name? = some name) :
    ∃ r', readName r = .ok name r' ∧ Passes r [t] r.graph r' := by
  refine ⟨r.advance, ?_, .advance hTokens hMore⟩
  rw [readName_apply, Reading.current_of_tokens hTokens, hName]

end Single

end Reader

end GraphMarkup.Dot
