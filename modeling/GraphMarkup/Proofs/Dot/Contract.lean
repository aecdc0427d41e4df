import GraphMarkup.Proofs.Dot.Acceptance

/-!
# Contracts of procedures

`Meets P x Q E` says of a procedure `x`: started where `P` holds, it gives a value for which `Q`
holds of what it leaves behind, or stops where `E` holds. A contract is put together from those of
the parts (`Meets.bind`, `meets_loop`), so that a fact about whole documents is proved with one
contract for each procedure.

What neither going on nor missing what was expected can spoil (`Patient`) is kept by every procedure
for single tokens, and by those that are made of nothing else. Where it does not matter what a
diagnostic says, it is enough that no diagnostic spoils it (`Stable`).
-/

namespace GraphMarkup.Dot

namespace Reader

variable {α β σ : Type}

/-- What holds where a procedure has ended: `Q` with its value, or `E` after a stop. -/
def Lands (Q : α → Reading → Prop) (E : Reading → Prop) : EStateM.Result Stop Reading α → Prop
  | .ok a r => Q a r
  | .error _ r => E r

/-- What holds where a round of a loop has ended: `I` if another one follows, `Q` if none does. -/
def RoundLands (I : σ → Reading → Prop) (Q : β → Reading → Prop) : Round σ β → Reading → Prop
  | .again s => I s
  | .leave result => Q result

def Meets (P : Reading → Prop) (x : Reader α) (Q : α → Reading → Prop) (E : Reading → Prop) :
    Prop :=
  ∀ r, P r → Lands Q E (x r)

section Rules

variable {P P' : Reading → Prop} {Q Q' : α → Reading → Prop} {R : β → Reading → Prop}
  {E E' : Reading → Prop} {x : Reader α}

theorem Lands.mono {result : EStateM.Result Stop Reading α} (h : Lands Q E result)
    (hQ : ∀ a r, Q a r → Q' a r) (hE : ∀ r, E r → E' r) : Lands Q' E' result := by
  cases result with
  | ok a r => exact hQ a r h
  | error stop r => exact hE r h

/-- What is known of the way to a value may be used for what holds there. -/
theorem Lands.of_run {r : Reading} (h : Lands Q E (x r))
    (hQ : ∀ a r', x r = .ok a r' → Q a r' → Q' a r') : Lands Q' E (x r) := by
  cases hRun : x r with
  | ok a r' =>
    rw [hRun] at h
    exact hQ a r' hRun h
  | error stop r' =>
    rw [hRun] at h
    exact h

theorem Lands.mono_stop {result : EStateM.Result Stop Reading α} (h : Lands Q E result)
    (hE : ∀ r, E r → E' r) : Lands Q E' result :=
  h.mono (fun _ _ h => h) hE

theorem Lands.of_final {result : EStateM.Result Stop Reading α} (h : Lands (fun _ => E) E result) :
    E (final result) := by
  cases result with
  | ok a r => exact h
  | error stop r => exact h

theorem Meets.mono (h : Meets P x Q E) (hP : ∀ r, P' r → P r) (hQ : ∀ a r, Q a r → Q' a r)
    (hE : ∀ r, E r → E' r) : Meets P' x Q' E' :=
  fun r hr => (h r (hP r hr)).mono hQ hE

theorem Meets.mono_stop (h : Meets P x Q E) (hE : ∀ r, E r → E' r) : Meets P x Q E' :=
  fun r hr => (h r hr).mono_stop hE

theorem Lands.bind {f : α → Reader β} {r : Reading} (hx : Lands Q E (x r))
    (hf : ∀ a, Meets (Q a) (f a) R E) : Lands R E ((x >>= f) r) := by
  rw [bind_apply]
  cases hRun : x r with
  | ok a r' =>
    rw [hRun] at hx
    exact hf a r' hx
  | error stop r' =>
    rw [hRun] at hx
    exact hx

theorem Meets.bind {f : α → Reader β} (hx : Meets P x Q E) (hf : ∀ a, Meets (Q a) (f a) R E) :
    Meets P (x >>= f) R E :=
  fun r hr => (hx r hr).bind hf

theorem meets_pure {a : α} (h : ∀ r, P r → Q a r) : Meets P (pure a) Q E := h

theorem meets_modify {f : Reading → Reading} {Q : Unit → Reading → Prop}
    (h : ∀ r, P r → Q () (f r)) : Meets P (modify f) Q E := h

theorem meets_intern {name : String} {Q : VertexId → Reading → Prop}
    (h : ∀ r, P r → Q (r.graph.intern name).1 { r with graph := (r.graph.intern name).2 }) :
    Meets P (intern name) Q E := h

theorem meets_ite {c : Prop} [Decidable c] {y : Reader α} (hx : Meets P x Q E)
    (hy : Meets P y Q E) : Meets P (if c then x else y) Q E := by
  split
  · exact hx
  · exact hy

/-- A loop keeps what its rounds keep. -/
theorem meets_loop {I : σ → Reading → Prop} {round : σ → Reader (Round σ β)}
    {Q : β → Reading → Prop} (hStop : ∀ s r, I s r → E r)
    (hRound : ∀ s, Meets (I s) (round s) (RoundLands I Q) E) (s : σ) :
    Meets (I s) (loop round s) Q E := by
  intro r hr
  have hFirst := hRound s r hr
  fun_induction loop round s r with
  | case1 s r stop r' hRun =>
    rw [hRun] at hFirst
    exact hFirst
  | case2 s r result r' hRun =>
    rw [hRun] at hFirst
    exact hFirst
  | case3 s r s' r' hRun _ ih =>
    rw [hRun] at hFirst
    exact ih hFirst (hRound s' r' hFirst)
  | case4 s r s' r' hRun _ =>
    rw [hRun] at hFirst
    exact hStop s' r' hFirst

end Rules

/-! ## What single tokens leave alone -/

/-- What a reading may say that it expected: a token, or a name. -/
inductive Expectation : String → Prop
  | token (t : Token) : Expectation t.describe
  | name : Expectation "identifier or string"

/-- What is not spoilt by going to the next token, nor by missing what was expected. -/
structure Patient (I : Reading → Prop) : Prop where
  advance : ∀ r, I r → I r.advance
  miss : ∀ r expected, Expectation expected → I r → I (r.miss expected)

/-- What is not spoilt by going to the next token, nor by a diagnostic. -/
structure Stable (I : Reading → Prop) : Prop where
  advance : ∀ r, I r → I r.advance
  record : ∀ r message, I r → I (r.record message)

namespace Stable

variable {I J : Reading → Prop}

theorem patient (hI : Stable I) : Patient I where
  advance := hI.advance
  miss r _ _ hr := hI.record r _ hr

theorem and (hI : Stable I) (hJ : Stable J) : Stable fun r => I r ∧ J r where
  advance r hr := ⟨hI.advance r hr.1, hJ.advance r hr.2⟩
  record r message hr := ⟨hI.record r message hr.1, hJ.record r message hr.2⟩

end Stable

/-- A procedure keeps an assertion, however it ends. -/
abbrev Keeps (I : Reading → Prop) (x : Reader α) : Prop := Meets I x (fun _ => I) I

namespace Patient

variable {I : Reading → Prop} (hI : Patient I)

include hI

theorem reportExpected {expected : String} (hExpected : Expectation expected) :
    Keeps I (reportExpected expected) := by
  intro r hr
  rw [reportExpected_apply]
  split_ifs
  · exact hI.miss r _ hExpected hr
  · exact hI.miss r _ hExpected hr

theorem expect (token : Token) : Keeps I (expect token) := by
  intro r hr
  rw [expect_apply]
  split_ifs
  · exact hI.advance r hr
  · exact hI.miss r _ (.token token) hr
  · exact hI.advance _ (hI.miss r _ (.token token) hr)

theorem expectString : Keeps I expectString := by
  intro r hr
  have hString : Expectation "string" := .token (.str "")
  rw [expectString_apply]
  split_ifs
  · exact hI.advance r hr
  · exact hI.miss r _ hString hr
  · exact hI.advance _ (hI.miss r _ hString hr)

theorem readName : Keeps I readName := by
  intro r hr
  rw [readName_apply]
  split
  · exact hI.advance r hr
  · split_ifs
    · exact hI.miss r _ .name hr
    · exact hI.miss r _ .name hr

theorem readAttribute (isFirst : Bool) : Keeps I (readAttribute isFirst) := by
  have hAttribute : ∀ _ : Unit, Keeps I (do
      let name ← Reader.readName
      Reader.expect (.mark .equals)
      let value ← Reader.readName
      return (name, value)) := fun _ =>
    .bind hI.readName fun _ => .bind (hI.expect _) fun _ => .bind hI.readName fun _ =>
      meets_pure fun _ hr => hr
  exact meets_ite (hAttribute ()) (.bind (hI.expect _) hAttribute)

theorem readDirective : Keeps I readDirective :=
  .bind (meets_modify hI.advance) fun _ => .bind (hI.expect _) fun _ => hI.expectString

end Patient

end Reader

end GraphMarkup.Dot
