import GraphMarkup.Proofs.Dot.FirstFault
import GraphMarkup.Proofs.Dot.Grammar
import GraphMarkup.Proofs.Dot.Passes

/-!
# Acceptance

A reading reports nothing exactly if its tokens are derived from the grammar, and then it has the
name of the document and the graph that the statements make (`silent_iff_isDocument`).

Both directions are proved for a reading that fails fast, where to get through is to report
nothing; what it has to do with a reading that recovers is known from the first fault. Each
procedure has two lemmas: what it got over is derived from its rule (`isStatement_of_readStatement`
and the like), and it gets over whatever is derived from it (`readStatement_of_isStatement`).
A whole document is read as its beginning, which may be followed by anything
(`readDocument_of_isStatements`), with the closing brace and the end of input behind it.
The attribute list may be left in silence without its closing bracket, in front of the end of input
or of unrecognized text; the semicolon that is expected next cannot be there then.
-/

namespace GraphMarkup.Dot

open Grammar

/-- A statement starts with a token that does not end the statement list. -/
theorem Grammar.IsStatement.head {ts : List Token} {s : Statement} (h : IsStatement ts s) :
    ∃ t us, ts = t :: us ∧ t ≠ .mark .rightBrace ∧ t ≠ .eof := by
  cases h with
  | directive _ => exact ⟨_, _, rfl, by simp, by simp⟩
  | vertex _ hName _ =>
    exact ⟨_, _, rfl, Token.ne_of_name? hName rfl, Token.ne_of_name? hName rfl⟩
  | edge _ hSrc _ _ =>
    exact ⟨_, _, rfl, Token.ne_of_name? hSrc rfl, Token.ne_of_name? hSrc rfl⟩

namespace Reader

/-! ## Attributes -/

theorem attribute_of_readAttribute {isFirst : Bool} {a : String × String} {r r' : Reading}
    (hStrict : r.Strict) (hRun : readAttribute isFirst r = .ok a r') :
    ∃ ts, Attribute ts a ∧
      Passes r (if isFirst then ts else .mark .comma :: ts) r.graph r' := by
  obtain ⟨r₁, r₂, r₃, hComma, hName, hEquals, hValue⟩ := readAttribute_eq_ok.1 hRun
  have hFirst : Passes r (if isFirst then [] else [.mark .comma]) r.graph r₁ := by
    cases isFirst with
    | true =>
      cases hComma
      exact .refl hStrict.ends.tokens_ne_nil
    | false => exact passes_of_expect hStrict (by simp) hComma
  have hStrict₁ := hStrict.of_passes hFirst
  obtain ⟨hIsName, hPasses₂⟩ := passes_of_readName hStrict₁ hName
  have hStrict₂ := hStrict₁.of_passes hPasses₂
  have hPasses₃ := passes_of_expect hStrict₂ (by simp) hEquals
  have hStrict₃ := hStrict₂.of_passes hPasses₃
  obtain ⟨hIsValue, hPasses₄⟩ := passes_of_readName hStrict₃ hValue
  have hAll := ((hFirst.keep hPasses₂).keep hPasses₃).keep hPasses₄
  refine ⟨_, .mk hIsName hIsValue, ?_⟩
  cases isFirst with
  | true => exact hAll
  | false => exact hAll

theorem readAttribute_of_attribute {ts : List Token} {a : String × String} (h : Attribute ts a)
    {isFirst : Bool} {r : Reading} {more : List Token}
    (hTokens : r.tokens = (if isFirst then ts else .mark .comma :: ts) ++ more)
    (hMore : more ≠ []) :
    ∃ r', readAttribute isFirst r = .ok a r' ∧
      Passes r (if isFirst then ts else .mark .comma :: ts) r.graph r' := by
  obtain @⟨n, v, name, value, hName, hValue⟩ := h
  obtain ⟨r₁, hComma, hFirst⟩ : ∃ r₁,
      (if isFirst then pure () else expect (.mark .comma)) r = .ok () r₁ ∧
        Passes r (if isFirst then [] else [.mark .comma]) r.graph r₁ := by
    cases isFirst with
    | true => exact ⟨r, rfl, .refl (by simp [hTokens])⟩
    | false => exact expect_of_tokens hTokens (by simp)
  have hTokens₁ : r₁.tokens = n :: .mark .equals :: v :: more := by
    refine hFirst.tokens_left (hTokens.trans ?_)
    cases isFirst <;> rfl
  obtain ⟨r₂, hRun₂, hPasses₂⟩ := readName_of_tokens hTokens₁ (by simp) hName
  have hTokens₂ := hPasses₂.tokens_left hTokens₁
  obtain ⟨r₃, hRun₃, hPasses₃⟩ := expect_of_tokens hTokens₂ (by simp)
  have hTokens₃ := hPasses₃.tokens_left hTokens₂
  obtain ⟨r₄, hRun₄, hPasses₄⟩ := readName_of_tokens hTokens₃ hMore hValue
  have hAll := ((hFirst.keep hPasses₂).keep hPasses₃).keep hPasses₄
  refine ⟨r₄, readAttribute_eq_ok.2 ⟨r₁, r₂, r₃, hComma, hRun₂, hRun₃, hRun₄⟩, ?_⟩
  cases isFirst with
  | true => exact hAll
  | false => exact hAll

/-- A round of the attribute list that ends it, at its bracket or in silence. -/
theorem passes_of_leave {attributes all : Attributes} {r r' : Reading} (hStrict : r.Strict)
    (hRun : attributeRound attributes r = .ok (.leave all) r') :
    r'.current.token.endsAttributes ∨
      all = attributes ∧ Passes r [.mark .rightBracket] r.graph r' := by
  rw [attributeRound_apply] at hRun
  split_ifs at hRun with hClosed hEnd
  · cases hRun
    have hPasses :=
      Passes.advance_of_ne_eof (r := r.countAttribute) hStrict.ends hClosed (by simp)
    exact Or.inr ⟨rfl, hPasses.of_countAttribute⟩
  · cases hRun
    exact Or.inl hEnd
  · obtain ⟨a, r'', -, hPure⟩ := bind_eq_ok.1 hRun
    cases hPure

theorem moreAttributes_of_loop {attributes all : Attributes} {r r' : Reading}
    (hSome : attributes ≠ []) (hStrict : r.Strict)
    (hRun : loop attributeRound attributes r = .ok all r') :
    r'.current.token.endsAttributes ∨ ∃ ts later, MoreAttributes ts later ∧
      all = later.reverse ++ attributes ∧
        Passes r (ts ++ [.mark .rightBracket]) r.graph r' := by
  fun_induction loop attributeRound attributes r with
  | case1 s r stop r₁ hRound => cases hRun
  | case2 s r result r₁ hRound =>
    cases hRun
    rcases passes_of_leave hStrict hRound with hEnd | ⟨rfl, hPasses⟩
    · exact Or.inl hEnd
    · exact Or.inr ⟨[], [], .none, rfl, hPasses⟩
  | case3 s r s' r₁ hRound _ ih =>
    obtain ⟨-, -, a, rfl, hAttribute⟩ := attributeRound_eq_again hRound
    rw [List.isEmpty_eq_false_iff.2 hSome] at hAttribute
    obtain ⟨ts, hIsAttribute, hCounted⟩ :=
      attribute_of_readAttribute (r := r.countAttribute) ⟨hStrict.mode, hStrict.ends⟩ hAttribute
    have hFirst : Passes r (.mark .comma :: ts) r.graph r₁ := hCounted.of_countAttribute
    rcases ih (List.cons_ne_nil _ _) (hStrict.of_passes hFirst) hRun with hEnd | hLater
    · exact Or.inl hEnd
    · obtain ⟨us, later, hMore, rfl, hPasses⟩ := hLater
      have hAll := hFirst.keep hPasses
      refine Or.inr ⟨_, _, .comma hIsAttribute hMore, by simp, ?_⟩
      simpa using hAll
  | case4 s r s' r₁ hRound _ => cases hRun

/-- Only the first round is without a comma. -/
theorem attributeList_of_loop {all : Attributes} {r r' : Reading} (hStrict : r.Strict)
    (hRun : loop attributeRound [] r = .ok all r') :
    r'.current.token.endsAttributes ∨ ∃ ts attributes, AttributeList ts attributes ∧
      all = attributes.reverse ∧ Passes r (ts ++ [.mark .rightBracket]) r.graph r' := by
  cases hRound : attributeRound [] r with
  | error stop r₁ =>
    rw [loop_of_error hRound] at hRun
    cases hRun
  | ok way r₁ =>
    cases way with
    | leave result =>
      rw [loop_of_leave hRound] at hRun
      cases hRun
      rcases passes_of_leave hStrict hRound with hEnd | ⟨rfl, hPasses⟩
      · exact Or.inl hEnd
      · exact Or.inr ⟨[], [], .none, rfl, hPasses⟩
    | again newer =>
      obtain ⟨-, -, a, rfl, hAttribute⟩ := attributeRound_eq_again hRound
      obtain ⟨ts, hIsAttribute, hCounted⟩ :=
        attribute_of_readAttribute (r := r.countAttribute) ⟨hStrict.mode, hStrict.ends⟩ hAttribute
      have hFirst : Passes r ts r.graph r₁ := hCounted.of_countAttribute
      have hLt : r₁.rest.length < r.rest.length := by
        cases hIsAttribute
        exact hFirst.length_rest_lt
      rw [loop_of_again hRound hLt] at hRun
      rcases moreAttributes_of_loop (List.cons_ne_nil _ _) (hStrict.of_passes hFirst) hRun with
        hEnd | ⟨us, later, hMore, rfl, hPasses⟩
      · exact Or.inl hEnd
      · have hAll := hFirst.keep hPasses
        refine Or.inr ⟨_, _, .some hIsAttribute hMore, by simp, ?_⟩
        rwa [List.append_assoc]

/-- A round reads the attribute that stands there. -/
theorem attributeRound_of_attribute {ts : List Token} {a : String × String}
    (h : Attribute ts a) (attributes : Attributes) {r : Reading} {more : List Token}
    (hTokens : r.tokens = (if attributes.isEmpty then ts else .mark .comma :: ts) ++ more)
    (hMore : more ≠ []) :
    ∃ r', attributeRound attributes r = .ok (.again (a :: attributes)) r' ∧
      r'.rest.length < r.rest.length ∧
      Passes r (if attributes.isEmpty then ts else .mark .comma :: ts) r.graph r' := by
  obtain ⟨r', hRun, hCounted⟩ := readAttribute_of_attribute (r := r.countAttribute) h hTokens hMore
  have hPasses := hCounted.of_countAttribute
  obtain ⟨t, us, hHead, hOpen, hGoesOn⟩ : ∃ t us,
      (if attributes.isEmpty then ts else .mark .comma :: ts) = t :: us ∧
        t ≠ .mark .rightBracket ∧ ¬ t.endsAttributes := by
    obtain ⟨hName, hValue⟩ := h
    cases attributes with
    | nil =>
      exact ⟨_, _, rfl, Token.ne_of_name? hName rfl, Token.not_endsAttributes_of_name? hName⟩
    | cons => exact ⟨_, _, rfl, by simp, by simp [Token.endsAttributes]⟩
  rw [hHead] at hTokens hPasses ⊢
  refine ⟨r', ?_, hPasses.length_rest_lt, hPasses⟩
  rw [attributeRound_apply, Reading.current_of_tokens hTokens, if_neg hOpen, if_neg hGoesOn,
    bind_of_ok hRun, pure_apply]

theorem loop_of_rightBracket {attributes : Attributes} {r : Reading} {more : List Token}
    (hTokens : r.tokens = .mark .rightBracket :: more) (hMore : more ≠ []) :
    ∃ r', loop attributeRound attributes r = .ok attributes r' ∧
      Passes r [.mark .rightBracket] r.graph r' := by
  have hAdvance := Passes.advance (r := r.countAttribute) hTokens hMore
  refine ⟨_, loop_of_leave ?_, hAdvance.of_countAttribute⟩
  rw [attributeRound_apply, if_pos (Reading.current_of_tokens hTokens)]

theorem loop_of_moreAttributes {ts : List Token} {later : Attributes}
    (h : MoreAttributes ts later) {attributes : Attributes} (hSome : attributes ≠ [])
    {r : Reading} {more : List Token} (hTokens : r.tokens = ts ++ .mark .rightBracket :: more)
    (hMore : more ≠ []) :
    ∃ r', loop attributeRound attributes r = .ok (later.reverse ++ attributes) r' ∧
      Passes r (ts ++ [.mark .rightBracket]) r.graph r' := by
  induction h generalizing attributes r with
  | none => exact loop_of_rightBracket hTokens hMore
  | @comma ts us a later hAttribute hLater ih =>
    have hNotFirst : attributes.isEmpty = false := List.isEmpty_eq_false_iff.2 hSome
    have hTokens₀ : r.tokens = (if attributes.isEmpty then ts else .mark .comma :: ts) ++
        (us ++ .mark .rightBracket :: more) := by
      rw [hTokens, hNotFirst]
      simp
    obtain ⟨r₁, hRound, hLt, hFirst⟩ :=
      attributeRound_of_attribute hAttribute attributes hTokens₀ (by simp)
    rw [hNotFirst] at hFirst
    have hFirst : Passes r (.mark .comma :: ts) r.graph r₁ := hFirst
    have hTokens₁ : r₁.tokens = us ++ .mark .rightBracket :: more :=
      hFirst.tokens_left (hTokens.trans (by simp))
    obtain ⟨r₂, hRun, hRest⟩ := ih (List.cons_ne_nil a attributes) hTokens₁
    have hAll := hFirst.keep hRest
    refine ⟨r₂, ?_, by simpa using hAll⟩
    rw [loop_of_again hRound hLt, hRun]
    simp

theorem loop_of_attributeList {ts : List Token} {attributes : Attributes}
    (h : AttributeList ts attributes) {r : Reading} {more : List Token}
    (hTokens : r.tokens = ts ++ .mark .rightBracket :: more) (hMore : more ≠ []) :
    ∃ r', loop attributeRound [] r = .ok attributes.reverse r' ∧
      Passes r (ts ++ [.mark .rightBracket]) r.graph r' := by
  cases h with
  | none => exact loop_of_rightBracket hTokens hMore
  | @some ts us a later hAttribute hLater =>
    have hTokens₀ : r.tokens = ts ++ (us ++ .mark .rightBracket :: more) :=
      hTokens.trans (List.append_assoc _ _ _)
    obtain ⟨r₁, hRound, hLt, hFirst⟩ :=
      attributeRound_of_attribute hAttribute [] hTokens₀ (by simp)
    have hFirst : Passes r ts r.graph r₁ := hFirst
    have hTokens₁ := hFirst.tokens_left hTokens₀
    obtain ⟨r₂, hRun, hRest⟩ :=
      loop_of_moreAttributes hLater (List.cons_ne_nil a []) hTokens₁ hMore
    have hAll := hFirst.keep hRest
    refine ⟨r₂, ?_, by rwa [List.append_assoc]⟩
    rw [loop_of_again hRound hLt, hRun]
    simp

/-! ## Statements -/

theorem optionalAttributes_of_readAttributes {all : Attributes} {r r' : Reading}
    (hStrict : r.Strict) (hRun : readAttributes r = .ok all r') :
    r'.current.token.endsAttributes ∨ ∃ ts attributes, OptionalAttributes ts attributes ∧
      all = attributes.reverse ∧ Passes r ts r.graph r' := by
  obtain ⟨⟨⟩, r₁, hBracket, hLoop⟩ := bind_eq_ok.1 hRun
  have hPasses₁ := passes_of_expect hStrict (by simp) hBracket
  rcases attributeList_of_loop (hStrict.of_passes hPasses₁) hLoop with
    hEnd | ⟨ts, attributes, hList, rfl, hPasses₂⟩
  · exact Or.inl hEnd
  · exact Or.inr ⟨_, _, .bracketed hList, rfl, hPasses₁.keep hPasses₂⟩

theorem readAttributes_of_attributeList {ts : List Token} {attributes : Attributes}
    (h : AttributeList ts attributes) {r : Reading} {more : List Token}
    (hTokens : r.tokens = .mark .leftBracket :: (ts ++ [.mark .rightBracket]) ++ more)
    (hMore : more ≠ []) :
    ∃ r', readAttributes r = .ok attributes.reverse r' ∧
      Passes r (.mark .leftBracket :: (ts ++ [.mark .rightBracket])) r.graph r' := by
  obtain ⟨r₁, hBracket, hPasses₁⟩ := expect_of_tokens hTokens (by simp)
  have hTokens₁ : r₁.tokens = ts ++ .mark .rightBracket :: more :=
    hPasses₁.tokens_left (hTokens.trans (by simp))
  obtain ⟨r₂, hLoop, hPasses₂⟩ := loop_of_attributeList h hTokens₁ hMore
  exact ⟨r₂, (bind_of_ok hBracket).trans hLoop, hPasses₁.keep hPasses₂⟩

/-- The graph after the attributes of a statement. -/
def labelled (g : Graph) (src : VertexId) (isEdge : Bool) (attributes : Attributes) : Graph :=
  if isEdge then g else g.relabel src (lastSaid? attributes Keyword.label.word)

theorem labelled_nil (g : Graph) (src : VertexId) (isEdge : Bool) :
    labelled g src isEdge [] = g := by
  unfold labelled
  split <;> rfl

theorem readLabel_apply (src : VertexId) (isEdge : Bool) (r : Reading) :
    readLabel src isEdge r =
      if r.current.token = .mark .leftBracket then
        (readAttributes >>= fun attributes => modify fun r =>
          { r with graph := labelled r.graph src isEdge attributes.reverse }) r
      else .ok () r := by
  show (if r.current.token = .mark .leftBracket then _ else _ : Reader Unit) r = _
  by_cases hBracket : r.current.token = .mark .leftBracket
  · rw [if_pos hBracket, if_pos hBracket, bind_apply, bind_apply]
    cases readAttributes r with
    | error stop r' => rfl
    | ok attributes r' =>
      simp only [labelled, ← lookup_reverse, List.reverse_reverse]
      cases isEdge with
      | true => rfl
      | false => cases attributes.lookup Keyword.label.word <;> rfl
  · rw [if_neg hBracket, if_neg hBracket]
    rfl

theorem optionalAttributes_of_readLabel {src : VertexId} {isEdge : Bool} {u : Unit}
    {r r' : Reading} (hStrict : r.Strict) (hRun : readLabel src isEdge r = .ok u r') :
    r'.current.token.endsAttributes ∨ ∃ ts attributes, OptionalAttributes ts attributes ∧
      Passes r ts (labelled r.graph src isEdge attributes) r' := by
  rw [readLabel_apply] at hRun
  split_ifs at hRun with hBracket
  · obtain ⟨all, r₁, hAttributes, hModify⟩ := bind_eq_ok.1 hRun
    cases hModify
    rcases optionalAttributes_of_readAttributes hStrict hAttributes with
      hEnd | ⟨ts, attributes, hList, rfl, hPasses⟩
    · exact Or.inl hEnd
    · refine Or.inr ⟨ts, attributes, hList, ?_⟩
      rw [List.reverse_reverse, ← hPasses.graph]
      exact hPasses.withGraph
  · cases hRun
    refine Or.inr ⟨[], [], .absent, ?_⟩
    rw [labelled_nil]
    exact .refl hStrict.ends.tokens_ne_nil

theorem readLabel_of_optionalAttributes {ts : List Token} {attributes : Attributes}
    (h : OptionalAttributes ts attributes) (src : VertexId) (isEdge : Bool) {r : Reading}
    {more : List Token} (hTokens : r.tokens = ts ++ .mark .semicolon :: more) :
    ∃ r', readLabel src isEdge r = .ok () r' ∧
      Passes r ts (labelled r.graph src isEdge attributes) r' := by
  rw [readLabel_apply]
  cases h with
  | absent =>
    have hNone : ¬ r.current.token = .mark .leftBracket := by
      rw [Reading.current_of_tokens hTokens]
      simp
    rw [if_neg hNone, labelled_nil]
    exact ⟨r, rfl, .refl (by simp [hTokens])⟩
  | bracketed hList =>
    obtain ⟨r₁, hRun, hPasses⟩ := readAttributes_of_attributeList hList hTokens (by simp)
    rw [if_pos (Reading.current_of_tokens hTokens), bind_of_ok hRun, modify_apply,
      List.reverse_reverse, ← hPasses.graph]
    exact ⟨_, rfl, hPasses.withGraph⟩

theorem readTarget_apply (src : VertexId) (r : Reading) :
    readTarget src r =
      if r.current.token = .mark .arrow then
        (readName >>= fun name => intern name >>= fun dst =>
          (modify fun r => { r with graph := r.graph.addEdge src dst }) >>= fun _ =>
            pure true) r.advance
      else .ok false r := by
  show (eat (.mark .arrow) >>= _) r = _
  rw [bind_apply, eat_apply]
  split_ifs <;> rfl

/-- The graph after the other end of an edge. -/
def joined (g : Graph) (src : VertexId) (dst : String) : Graph :=
  (g.intern dst).2.addEdge src (g.intern dst).1

theorem target_of_readTarget {src : VertexId} {isEdge : Bool} {r r' : Reading}
    (hStrict : r.Strict) (hRun : readTarget src r = .ok isEdge r') :
    (isEdge = false ∧ r' = r) ∨ (isEdge = true ∧ ∃ u dst, u.name? = some dst ∧
      Passes r [.mark .arrow, u] (joined r.graph src dst) r') := by
  rw [readTarget_apply] at hRun
  split_ifs at hRun with hArrow
  · obtain ⟨dst, r₁, hName, hIntern⟩ := bind_eq_ok.1 hRun
    have hPasses₁ := Passes.advance_of_ne_eof hStrict.ends hArrow (by simp)
    obtain ⟨hIsName, hPasses₂⟩ := passes_of_readName (hStrict.of_passes hPasses₁) hName
    have hAll := hPasses₁.keep hPasses₂
    cases hIntern
    refine Or.inr ⟨rfl, _, dst, hIsName, ?_⟩
    rw [← hAll.graph]
    exact hAll.withGraph
  · cases hRun
    exact Or.inl ⟨rfl, rfl⟩

theorem readTarget_of_tokens {u : Token} {more : List Token} {dst : String} (src : VertexId)
    {r : Reading} (hName : u.name? = some dst)
    (hTokens : r.tokens = .mark .arrow :: u :: more) (hMore : more ≠ []) :
    ∃ r', readTarget src r = .ok true r' ∧
      Passes r [.mark .arrow, u] (joined r.graph src dst) r' := by
  have hPasses₁ := Passes.advance hTokens (List.cons_ne_nil _ _)
  obtain ⟨r₁, hRun, hPasses₂⟩ := readName_of_tokens (hPasses₁.tokens_left hTokens) hMore hName
  have hAll := hPasses₁.keep hPasses₂
  rw [readTarget_apply, if_pos (Reading.current_of_tokens hTokens), bind_of_ok hRun, ← hAll.graph]
  exact ⟨_, rfl, hAll.withGraph⟩

theorem isStatement_of_readDirective {k : Keyword} {r r' : Reading} (hStrict : r.Strict)
    (hKeyword : k.isDirective) (hToken : r.current.token = .keyword k)
    (hRun : readDirective r = .ok () r') :
    ∃ ts s, IsStatement ts s ∧ Passes r ts (s.apply r.graph) r' := by
  obtain ⟨⟨⟩, r₁, hAdvance, hRest⟩ := bind_eq_ok.1 hRun
  cases hAdvance
  obtain ⟨⟨⟩, r₂, hEquals, hString⟩ := bind_eq_ok.1 hRest
  have hPasses₁ := Passes.advance_of_ne_eof hStrict.ends hToken (by simp)
  have hStrict₁ := hStrict.of_passes hPasses₁
  have hPasses₂ := passes_of_expect hStrict₁ (by simp) hEquals
  obtain ⟨text, hPasses₃⟩ := passes_of_expectString (hStrict₁.of_passes hPasses₂) hString
  exact ⟨_, .directive k text, .directive hKeyword, (hPasses₁.keep hPasses₂).keep hPasses₃⟩

theorem isStatement_of_readVertices {r r' : Reading} (hStrict : r.Strict)
    (hFirst : ¬ startsDirective r.current.token) (hRun : readVertices r = .ok () r') :
    r'.current.token.endsAttributes ∨
      ∃ ts s, IsStatement ts s ∧ Passes r ts (s.apply r.graph) r' := by
  obtain ⟨name, r₁, hName, hIntern⟩ := bind_eq_ok.1 hRun
  obtain ⟨src, r₂, hMade, hRest⟩ := bind_eq_ok.1 hIntern
  obtain ⟨isEdge, r₃, hTarget, hLabel⟩ := bind_eq_ok.1 hRest
  obtain ⟨hIsName, hPasses₁⟩ := passes_of_readName hStrict hName
  rw [intern_apply, hPasses₁.graph] at hMade
  cases hMade
  have hPasses₂ := hPasses₁.withGraph (h := (r.graph.intern name).2)
  have hStrict₂ := hStrict.of_passes hPasses₂
  rcases target_of_readTarget hStrict₂ hTarget with
    ⟨rfl, rfl⟩ | ⟨rfl, u, dst, hIsTarget, hPasses₃⟩
  · rcases optionalAttributes_of_readLabel hStrict₂ hLabel with
      hEnd | ⟨ts, attributes, hAttributes, hPasses₃⟩
    · exact Or.inl hEnd
    · exact Or.inr ⟨_, _, .vertex hFirst hIsName hAttributes, hPasses₂.trans hPasses₃⟩
  · rcases optionalAttributes_of_readLabel (hStrict₂.of_passes hPasses₃) hLabel with
      hEnd | ⟨ts, attributes, hAttributes, hPasses₄⟩
    · exact Or.inl hEnd
    · rw [hPasses₃.graph] at hPasses₄
      exact Or.inr ⟨_, _, .edge hFirst hIsName hIsTarget hAttributes,
        (hPasses₂.trans hPasses₃).trans hPasses₄⟩

theorem readStatement_apply (r : Reading) :
    readStatement r =
      if startsDirective r.current.token then readDirective r else readVertices r := by
  show (peek >>= _) r = _
  rw [bind_apply, peek_apply]
  cases r.current.token with
  | keyword k => cases hKeyword : k.isDirective <;> simp [startsDirective, hKeyword]
  | ident | str | mark | eof | unrecognized => simp [startsDirective]

theorem isStatement_of_readStatement {r r' : Reading} (hStrict : r.Strict)
    (hRun : readStatement r = .ok () r') :
    r'.current.token.endsAttributes ∨
      ∃ ts s, IsStatement ts s ∧ Passes r ts (s.apply r.graph) r' := by
  rw [readStatement_apply] at hRun
  split_ifs at hRun with hFirst
  · cases hToken : r.current.token with
    | keyword k =>
      rw [hToken] at hFirst
      exact Or.inr (isStatement_of_readDirective hStrict hFirst hToken hRun)
    | ident | str | mark | eof | unrecognized => simp [hToken, startsDirective] at hFirst
  · exact isStatement_of_readVertices hStrict hFirst hRun

theorem readDirective_of_tokens {k : Keyword} {text : String} {r : Reading} {more : List Token}
    (hTokens : r.tokens = .keyword k :: .mark .equals :: .str text :: more) (hMore : more ≠ []) :
    ∃ r', readDirective r = .ok () r' ∧
      Passes r [.keyword k, .mark .equals, .str text] r.graph r' := by
  have hPasses₁ := Passes.advance hTokens (by simp)
  have hTokens₁ := hPasses₁.tokens_left hTokens
  obtain ⟨r₂, hEquals, hPasses₂⟩ := expect_of_tokens hTokens₁ (by simp)
  obtain ⟨r₃, hString, hPasses₃⟩ :=
    expectString_of_tokens (hPasses₂.tokens_left hTokens₁) hMore
  refine ⟨r₃, ?_, (hPasses₁.keep hPasses₂).keep hPasses₃⟩
  exact (bind_of_ok (advance_apply r)).trans ((bind_of_ok hEquals).trans hString)

/-- What reads a name, makes its vertex and goes on. -/
theorem readVertices_of_name {t : Token} {name : String} {r : Reading} {more : List Token}
    (hName : t.name? = some name) (hTokens : r.tokens = t :: more) (hMore : more ≠ []) :
    ∃ r', Passes r [t] (r.graph.intern name).2 r' ∧
      readVertices r = (readTarget (r.graph.intern name).1 >>=
        readLabel (r.graph.intern name).1) r' := by
  obtain ⟨r₁, hRun, hPasses⟩ := readName_of_tokens hTokens hMore hName
  refine ⟨_, hPasses.withGraph (h := (r.graph.intern name).2), ?_⟩
  refine (bind_of_ok hRun).trans ?_
  rw [bind_of_ok (intern_apply name r₁), hPasses.graph]

theorem readStatement_of_isStatement {ts : List Token} {s : Statement} (h : IsStatement ts s)
    {r : Reading} {more : List Token} (hTokens : r.tokens = ts ++ .mark .semicolon :: more) :
    ∃ r', readStatement r = .ok () r' ∧ Passes r ts (s.apply r.graph) r' := by
  rw [readStatement_apply]
  cases h with
  | @directive k text hKeyword =>
    have hFirst : startsDirective (.keyword k) := hKeyword
    rw [Reading.current_of_tokens hTokens, if_pos hFirst]
    exact readDirective_of_tokens hTokens (by simp)
  | @vertex t us name attributes hFirst hName hAttributes =>
    obtain ⟨r₁, hPasses₁, hVertices⟩ := readVertices_of_name hName hTokens (by simp)
    have hTokens₁ : r₁.tokens = us ++ .mark .semicolon :: more :=
      hPasses₁.tokens_left hTokens
    have hTarget : readTarget (r.graph.intern name).1 r₁ = .ok false r₁ := by
      rw [readTarget_apply, if_neg]
      cases hAttributes with
      | absent =>
        rw [Reading.current_of_tokens hTokens₁]
        simp
      | bracketed _ =>
        rw [Reading.current_of_tokens hTokens₁]
        simp
    obtain ⟨r₂, hLabel, hPasses₂⟩ :=
      readLabel_of_optionalAttributes hAttributes (r.graph.intern name).1 false hTokens₁
    rw [hPasses₁.graph] at hPasses₂
    rw [Reading.current_of_tokens hTokens, if_neg hFirst, hVertices, bind_of_ok hTarget]
    exact ⟨r₂, hLabel, hPasses₁.trans hPasses₂⟩
  | @edge t u us src dst attributes hFirst hSrc hDst hAttributes =>
    obtain ⟨r₁, hPasses₁, hVertices⟩ := readVertices_of_name hSrc hTokens (by simp)
    have hTokens₁ : r₁.tokens = .mark .arrow :: u :: (us ++ .mark .semicolon :: more) :=
      hPasses₁.tokens_left hTokens
    obtain ⟨r₂, hTarget, hPasses₂⟩ :=
      readTarget_of_tokens (r.graph.intern src).1 hDst hTokens₁ (by simp)
    have hTokens₂ := hPasses₂.tokens_left hTokens₁
    obtain ⟨r₃, hLabel, hPasses₃⟩ :=
      readLabel_of_optionalAttributes hAttributes (r.graph.intern src).1 true hTokens₂
    rw [hPasses₂.graph, hPasses₁.graph] at hPasses₃
    rw [Reading.current_of_tokens hTokens, if_neg hFirst, hVertices, bind_of_ok hTarget]
    exact ⟨r₃, hLabel, (hPasses₁.trans hPasses₂).trans hPasses₃⟩

/-! ## The statement list -/

/-- A reading that fails fast leaves the statement list at its brace only. -/
theorem passes_of_leave_statements {u result : Unit} {r r' : Reading} (hStrict : r.Strict)
    (hRun : statementRound u r = .ok (.leave result) r') :
    Passes r [.mark .rightBrace] r.graph r' := by
  have hMode : r.countStatement.mode = .failFast := hStrict.mode
  rw [statementRound_apply] at hRun
  split_ifs at hRun with hClosed hEnd
  · cases hRun
    have hAdvance :=
      Passes.advance_of_ne_eof (r := r.countStatement) hStrict.ends hClosed (by simp)
    exact hAdvance.of_countStatement
  · rw [bind_apply, reportExpected_apply, if_pos hMode] at hRun
    cases hRun
  · obtain ⟨-, r₂, -, hLater⟩ := bind_eq_ok.1 hRun
    obtain ⟨-, r₃, -, hPure⟩ := bind_eq_ok.1 hLater
    cases hPure

theorem isStatements_of_loop {r r' : Reading} (hStrict : r.Strict)
    (hRun : loop statementRound () r = .ok () r') :
    ∃ ts ss, IsStatements ts ss ∧
      Passes r (ts ++ [.mark .rightBrace]) (ss.foldl Statement.apply r.graph) r' := by
  fun_induction loop statementRound () r with
  | case1 u r stop r₁ hRound => cases hRun
  | case2 u r result r₁ hRound =>
    cases hRun
    exact ⟨[], [], .nil, passes_of_leave_statements hStrict hRound⟩
  | case3 u r u' r₁ hRound _ ih =>
    obtain ⟨-, -, r₂, hStatement, hSemicolon⟩ := statementRound_eq_again hRound
    have hCounted : r.countStatement.Strict := ⟨hStrict.mode, hStrict.ends⟩
    rcases isStatement_of_readStatement hCounted hStatement with
      hEnd | ⟨ts, s, hIsStatement, hPasses₁⟩
    · -- the attribute list was left in silence, and the semicolon cannot be there
      have hMode : r₂.mode = .failFast :=
        (regular_readStatement.moves hStatement).mode_eq.trans hStrict.mode
      rw [((expect_eq_ok hMode).1 hSemicolon).1] at hEnd
      cases hEnd
    · have hStrict₂ := hCounted.of_passes hPasses₁
      have hPasses₂ := passes_of_expect hStrict₂ (by simp) hSemicolon
      have hFirst : Passes r (ts ++ [.mark .semicolon]) (s.apply r.graph) r₁ :=
        (hPasses₁.keep hPasses₂).of_countStatement
      obtain ⟨us, ss, hIsStatements, hPasses₃⟩ := ih (hStrict.of_passes hFirst) hRun
      rw [hFirst.graph] at hPasses₃
      refine ⟨_, _, .cons hIsStatement hIsStatements, ?_⟩
      simpa using hFirst.trans hPasses₃
  | case4 u r u' r₁ hRound _ => cases hRun

/-- The statement list goes over statements with their semicolons, whatever follows. -/
theorem loop_after_isStatements {ts : List Token} {ss : List Statement} (h : IsStatements ts ss)
    {r : Reading} {more : List Token} (hTokens : r.tokens = ts ++ more) (hMore : more ≠ []) :
    ∃ r', loop statementRound () r = loop statementRound () r' ∧
      Passes r ts (ss.foldl Statement.apply r.graph) r' ∧ Moves r r' := by
  induction h generalizing r with
  | nil => exact ⟨r, rfl, .refl (by rwa [hTokens]), .refl⟩
  | @cons ts us s later hFirst hLater ih =>
    have hTokens₀ : r.tokens = ts ++ .mark .semicolon :: (us ++ more) :=
      hTokens.trans (by simp)
    obtain ⟨r₁, hStatement, hPasses₁⟩ :=
      readStatement_of_isStatement hFirst (r := r.countStatement) hTokens₀
    have hTokens₁ := hPasses₁.tokens_left hTokens₀
    obtain ⟨r₂, hSemicolon, hPasses₂⟩ := expect_of_tokens hTokens₁ (by simp [hMore])
    have hTokens₂ := hPasses₂.tokens_left hTokens₁
    have hFirstRound : Passes r (ts ++ [.mark .semicolon]) (s.apply r.graph) r₂ :=
      (hPasses₁.keep hPasses₂).of_countStatement
    obtain ⟨t, ts', hHead, hOpen, hGoesOn⟩ := hFirst.head
    subst hHead
    have hLt : r₂.rest.length < r.rest.length := hFirstRound.length_rest_lt
    have hAgain : statementRound () r = .ok (.again ()) r₂ := by
      rw [statementRound_apply, Reading.current_of_tokens hTokens₀, if_neg hOpen, if_neg hGoesOn,
        bind_of_ok hStatement, bind_of_ok hSemicolon, pure_apply]
    obtain ⟨r₃, hRun, hPasses₃, hMoves⟩ := ih hTokens₂
    rw [hFirstRound.graph] at hPasses₃
    refine ⟨r₃, ?_, by simpa using hFirstRound.trans hPasses₃, ?_⟩
    · rw [loop_of_again hAgain hLt, hRun]
    · exact ((regular_statementRound ()).moves hAgain).trans hMoves

/-! ## Whole documents -/

/-- What a reading that fails fast got through is a document, if the end of input stands nowhere
but at the end. -/
theorem isDocument_of_readDocument {r r' : Reading} {body : List Token}
    (hMode : r.mode = .failFast) (hTokens : r.tokens = body ++ [.eof]) (hBody : .eof ∉ body)
    (hRun : readDocument r = .ok () r') : ∃ name ss, IsDocument r.tokens name ss := by
  have hStrict : r.Strict := ⟨hMode, by simp [Reading.EndsInEof, hTokens]⟩
  rw [readDocument_eq] at hRun
  obtain ⟨name, r₂, hTitle, hSet⟩ := bind_eq_ok.1 hRun
  obtain ⟨⟨⟩, r₁, hDigraph, hName⟩ := bind_eq_ok.1 hTitle
  obtain ⟨⟨⟩, named, hNamed, hRest⟩ := bind_eq_ok.1 hSet
  cases hNamed
  obtain ⟨⟨⟩, r₃, hBrace, hLoop⟩ := bind_eq_ok.1 hRest
  obtain ⟨⟨⟩, r₄, hStatements, hEof⟩ := bind_eq_ok.1 hLoop
  have hPasses₁ := passes_of_expect hStrict (by simp) hDigraph
  have hStrict₁ := hStrict.of_passes hPasses₁
  obtain ⟨hIsName, hPasses₂⟩ := passes_of_readName hStrict₁ hName
  have hStrict₂ := hStrict₁.of_passes hPasses₂
  have hStrict₂' : ({ r₂ with name := some name } : Reading).Strict :=
    ⟨hStrict₂.mode, hStrict₂.ends⟩
  have hPasses₃ := passes_of_expect hStrict₂' (by simp) hBrace
  have hStrict₃ := hStrict₂'.of_passes hPasses₃
  obtain ⟨ts, ss, hIsStatements, hPasses₄⟩ := isStatements_of_loop hStrict₃ hStatements
  have hCurrent := ((expect_eq_ok (hStrict₃.of_passes hPasses₄).mode).1 hEof).1
  obtain ⟨more, hLeft⟩ := Reading.exists_tokens_eq hPasses₄.left
  rw [hCurrent] at hLeft
  have hNamed : r₂.tokens = .mark .leftBrace :: r₃.tokens := hPasses₃.tokens
  have hAll : r.tokens =
      (.keyword .digraph :: r₁.current.token :: .mark .leftBrace ::
        (ts ++ [.mark .rightBrace])) ++ .eof :: more := by
    rw [hPasses₁.tokens, hPasses₂.tokens, hNamed, hPasses₄.tokens, hLeft]
    simp
  have hLast : more = [] := by
    have hSame := hTokens.symm.trans hAll
    exact ((List.append_cons_inj_of_notMem hBody List.not_mem_nil).1 hSame).2.2.symm
  refine ⟨name, ss, ?_⟩
  rw [hAll, hLast]
  simpa using IsDocument.mk hIsName hIsStatements

/-- What comes after the statements read so far: more of them, and the end. -/
def readRest : Reader Unit := loop statementRound () >>= fun _ => expect .eof

theorem regular_readRest {places : List VertexId} : Regular places readRest :=
  .bind regular_statements fun _ => .expect _

/-- A document is read in silence up to any semicolon or the opening brace, whatever follows. -/
theorem readDocument_of_isStatements {r : Reading} {t : Token} {ts more : List Token}
    {name : String} {ss : List Statement} (hName : t.name? = some name)
    (hStatements : IsStatements ts ss) (hMore : more ≠ [])
    (hTokens : r.tokens = .keyword .digraph :: t :: .mark .leftBrace :: (ts ++ more)) :
    ∃ r', readDocument r = readRest r' ∧ r'.tokens = more ∧ r'.rest <:+ r.rest ∧
      r'.name = some name ∧ r'.graph = ss.foldl Statement.apply r.graph ∧
      r'.diagnostics = r.diagnostics := by
  obtain ⟨r₁, hDigraph, hPasses₁⟩ := expect_of_tokens hTokens (by simp)
  have hTokens₁ := hPasses₁.tokens_left hTokens
  obtain ⟨r₂, hRun₂, hPasses₂⟩ := readName_of_tokens hTokens₁ (by simp) hName
  have hTokens₂ := hPasses₂.tokens_left hTokens₁
  let named : Reading := { r₂ with name := some name }
  obtain ⟨r₃, hBrace, hPasses₃⟩ := expect_of_tokens (r := named) hTokens₂ (by simp [hMore])
  have hTokens₃ := hPasses₃.tokens_left hTokens₂
  obtain ⟨r₄, hLoop, hPasses₄, hMoves₄⟩ := loop_after_isStatements hStatements hTokens₃ hMore
  have hTitle : readTitle r = .ok name r₂ := (bind_of_ok hDigraph).trans hRun₂
  have hBody : readBody named = readRest r₄ := by
    refine (bind_of_ok hBrace).trans ?_
    rw [readRest, bind_apply, bind_apply, hLoop]
  have hNamed : named.rest <:+ r.rest := (regular_readTitle.moves hTitle).rest_suffix
  have hBraced : r₃.rest <:+ named.rest := ((Regular.expect _).moves hBrace).rest_suffix
  refine ⟨r₄, (readDocument_of_title hTitle).trans hBody, hPasses₄.tokens_left hTokens₃,
    hMoves₄.rest_suffix.trans (hBraced.trans hNamed), ?_, ?_, ?_⟩
  · rw [hPasses₄.name, hPasses₃.name]
  · rw [hPasses₄.graph, hPasses₃.graph]
    exact congrArg (ss.foldl Statement.apply) (hPasses₁.keep hPasses₂).graph
  · rw [hPasses₄.diagnostics, hPasses₃.diagnostics]
    exact (hPasses₁.keep hPasses₂).diagnostics

/-- The closing brace with the end of input behind it ends a document in silence. -/
theorem readRest_of_tokens {r : Reading} (hTokens : r.tokens = [.mark .rightBrace, .eof]) :
    ∃ r', readRest r = .ok () r' ∧ r'.name = r.name ∧ r'.graph = r.graph ∧
      r'.diagnostics = r.diagnostics := by
  let closed : Reading := r.countStatement.advance
  have hPasses : Passes r [.mark .rightBrace] r.graph closed :=
    (Passes.advance (r := r.countStatement) hTokens (by simp)).of_countStatement
  have hLoop : loop statementRound () r = .ok () closed := by
    refine loop_of_leave ?_
    rw [statementRound_apply, if_pos (Reading.current_of_tokens hTokens)]
  have hLeft : closed.tokens = [.eof] := hPasses.tokens_left hTokens
  have hLast : closed.rest.length ≤ 1 := by
    have hLength := congrArg List.length hLeft
    simp only [Reading.tokens, List.length_map, List.length_singleton] at hLength
    omega
  have hEof : expect .eof closed = .ok () closed := by
    rw [expect_apply, if_pos (Reading.current_of_tokens hLeft),
      Reading.advance_eq_of_length_le hLast]
  exact ⟨closed, (bind_of_ok hLoop).trans hEof, hPasses.name, hPasses.graph, hPasses.diagnostics⟩

theorem readDocument_of_isDocument {r : Reading} {name : String} {ss : List Statement}
    (h : IsDocument r.tokens name ss) :
    ∃ r', readDocument r = .ok () r' ∧ r'.name = some name ∧
      r'.graph = ss.foldl Statement.apply r.graph ∧ r'.diagnostics = r.diagnostics := by
  generalize hTokens : r.tokens = tokens at h
  obtain ⟨hName, hStatements⟩ := h
  obtain ⟨r₁, hRun, hLeft, -, hNamed, hBuilt, hSilent⟩ :=
    readDocument_of_isStatements hName hStatements (List.cons_ne_nil _ _) hTokens
  obtain ⟨r₂, hRest, hName₂, hGraph₂, hSilent₂⟩ := readRest_of_tokens hLeft
  exact ⟨r₂, hRun.trans hRest, hName₂.trans hNamed, hGraph₂.trans hBuilt, hSilent₂.trans hSilent⟩

end Reader

namespace Document

open Reader

/-- Where nothing is reported, a reading that fails fast gets to the end. -/
theorem failFast_of_silent {mode : Mode} {tokens : TokenStream}
    (hEof : ∃ t ∈ tokens.getLast?, t.token = .eof)
    (hSilent : (ofTokens mode tokens).diagnostics = []) :
    ∃ r, readDocument { mode := .failFast, rest := tokens } = .ok () r := by
  obtain ⟨r, hSlow, ⟨hFast, -⟩ | ⟨fault, d, hFast, hFault, hGrows, -⟩⟩ := readDocument_cases hEof
  · exact ⟨_, hFast⟩
  · exfalso
    have hOne : fault.diagnostics.toList = [d] := by rw [hFault]
    cases mode with
    | failFast =>
      rw [ofTokens_of_error hFast] at hSilent
      cases hOne.symm.trans hSilent
    | recover =>
      rw [ofTokens_of_ok hSlow] at hSilent
      have hNone : r.diagnostics.toList = [] := hSilent
      have hPrefix := hGrows.diagnostics
      rw [hOne, hNone] at hPrefix
      cases List.prefix_nil.1 hPrefix

/-- A reading reports nothing exactly of what the grammar derives, and then the document is what
its statements make. -/
theorem silent_iff_isDocument (mode : Mode) {body : TokenStream} (line : UInt32)
    (hBody : ∀ t ∈ body, t.token ≠ .eof) :
    ((ofTokens mode (body ++ [⟨.eof, line⟩])).diagnostics = [] ↔
      ∃ name ss, IsDocument (body.map (·.token) ++ [.eof]) name ss) ∧
    ∀ name ss, IsDocument (body.map (·.token) ++ [.eof]) name ss →
      (ofTokens mode (body ++ [⟨.eof, line⟩])).name = some name ∧
        (ofTokens mode (body ++ [⟨.eof, line⟩])).graph = graphOf ss ∧
        (ofTokens mode (body ++ [⟨.eof, line⟩])).stopped = none := by
  have hTokens : ∀ mode, ({ mode := mode, rest := body ++ [⟨.eof, line⟩] } : Reading).tokens =
      body.map (·.token) ++ [.eof] := fun mode => List.map_append
  have hAccepts : ∀ name ss, IsDocument (body.map (·.token) ++ [.eof]) name ss →
      ∃ effort, ofTokens mode (body ++ [⟨.eof, line⟩]) =
        ⟨some name, graphOf ss, [], none, effort⟩ := by
    intro name ss hDocument
    rw [← hTokens mode] at hDocument
    obtain ⟨r, hRun, hName, hGraph, hSilent⟩ := readDocument_of_isDocument hDocument
    refine ⟨r.effort, ?_⟩
    rw [ofTokens_of_ok hRun, hName, hGraph, hSilent]
    rfl
  constructor
  · constructor
    · intro hSilent
      obtain ⟨r, hFast⟩ := failFast_of_silent (by simp) hSilent
      rw [← hTokens .failFast]
      refine isDocument_of_readDocument rfl (hTokens .failFast) (fun hMem => ?_) hFast
      obtain ⟨t, ht, hToken⟩ := List.mem_map.1 hMem
      exact hBody t ht hToken
    · rintro ⟨name, ss, hDocument⟩
      obtain ⟨effort, hRead⟩ := hAccepts name ss hDocument
      rw [hRead]
  · intro name ss hDocument
    obtain ⟨effort, hRead⟩ := hAccepts name ss hDocument
    rw [hRead]
    exact ⟨rfl, rfl, rfl⟩

/-- A setting, a vertex with two labels and an edge with one, in front of the end of input. -/
def relabelling : TokenStream :=
  [⟨.keyword .digraph, 1⟩, ⟨.str "G", 1⟩, ⟨.mark .leftBrace, 1⟩,
    ⟨.keyword .rankdir, 2⟩, ⟨.mark .equals, 2⟩, ⟨.str "LR", 2⟩, ⟨.mark .semicolon, 2⟩,
    ⟨.ident "a", 3⟩, ⟨.mark .leftBracket, 3⟩, ⟨.keyword .label, 3⟩, ⟨.mark .equals, 3⟩,
    ⟨.ident "x", 3⟩, ⟨.mark .comma, 3⟩, ⟨.keyword .label, 3⟩, ⟨.mark .equals, 3⟩,
    ⟨.str "y", 3⟩, ⟨.mark .rightBracket, 3⟩, ⟨.mark .semicolon, 3⟩,
    ⟨.ident "b", 4⟩, ⟨.mark .arrow, 4⟩, ⟨.ident "a", 4⟩, ⟨.mark .leftBracket, 4⟩,
    ⟨.keyword .label, 4⟩, ⟨.mark .equals, 4⟩, ⟨.ident "z", 4⟩, ⟨.mark .rightBracket, 4⟩,
    ⟨.mark .semicolon, 4⟩, ⟨.mark .rightBrace, 5⟩]

def relabellingStatements : List Statement :=
  [.directive .rankdir "LR", .vertex "a" [("label", "x"), ("label", "y")],
    .edge "b" "a" [("label", "z")]]

theorem isDocument_relabelling :
    IsDocument (relabelling.map (·.token) ++ [.eof]) "G" relabellingStatements := by
  have hEdge : IsStatements _ [.edge "b" "a" [("label", "z")]] :=
    .cons (.edge (t := .ident "b") (u := .ident "a") (by simp [startsDirective]) rfl rfl
      (.bracketed (.some (.mk (n := .keyword .label) (v := .ident "z") rfl rfl) .none))) .nil
  have hVertex : OptionalAttributes _ [("label", "x"), ("label", "y")] :=
    .bracketed (.some (.mk (n := .keyword .label) (v := .ident "x") rfl rfl)
      (.comma (.mk (n := .keyword .label) (v := .str "y") rfl rfl) .none))
  exact .mk (t := .str "G") rfl (.cons (.directive rfl)
    (.cons (.vertex (t := .ident "a") (by simp [startsDirective]) rfl hVertex) hEdge))

theorem silent_relabelling :
    (∀ t ∈ relabelling, t.token ≠ .eof) ∧
      (ofTokens .recover (relabelling ++ [⟨.eof, 5⟩])).diagnostics = [] ∧
      (ofTokens .recover (relabelling ++ [⟨.eof, 5⟩])).graph = graphOf relabellingStatements ∧
      (graphOf relabellingStatements).names = ["a", "b"] ∧
      (graphOf relabellingStatements).edges.length = 1 :=
  have hBody : ∀ t ∈ relabelling, t.token ≠ .eof := by decide
  have hIff := silent_iff_isDocument .recover 5 hBody
  ⟨hBody, hIff.1.2 ⟨_, _, isDocument_relabelling⟩, (hIff.2 _ _ isDocument_relabelling).2.1,
    by decide +kernel, by decide +kernel⟩

end Document

end GraphMarkup.Dot
