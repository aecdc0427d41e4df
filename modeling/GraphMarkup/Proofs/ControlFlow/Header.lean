import GraphMarkup.Proofs.ControlFlow.Patterns
import GraphMarkup.Proofs.ControlFlow.Segments

/-!
# The name in a header

A header names the function by what stands between an at-sign and an opening parenthesis. The
pattern asks for the last such place on the line, so a function has the name of its own header as
long as nothing behind it has the same form: no personality, prefix or comment that refers to a name
with a parenthesis after it.

* `functionName?_eq_some_iff`, `functionName?_eq_none_iff`: what the pattern finds, without its
  recursion.
* `feed_define`: which function a header opens. It always opens one, and the open one is handed
  over.
* `not_named_by_header`: behind a comment with a parenthesis the function goes by a piece of its
  header that is no name at all.
-/

namespace GraphMarkup.ControlFlow

/-- The characters `behind` an at-sign start with a name and an opening parenthesis. -/
def IsReference (name behind : List Char) : Prop :=
  ∃ after, behind = name ++ '(' :: after ∧ name ≠ [] ∧ '(' ∉ name

/-- On the first line there is an at-sign with a reference behind it. -/
def RefersAt (cs name behind : List Char) : Prop :=
  ∃ before, cs = before ++ '@' :: behind ∧ '\n' ∉ before ∧ IsReference name behind

/-- The characters refer to a name. -/
def Refers (cs name : List Char) : Prop := ∃ behind, RefersAt cs name behind

/-- The characters refer to a name at one place and to nothing behind it. -/
def RefersLast (cs name : List Char) : Prop :=
  ∃ behind, RefersAt cs name behind ∧ ∀ other, ¬ Refers behind other

section Reference

variable {c : Char} {cs rest name behind : List Char}

theorem nameBeforeParen?_eq_some_iff :
    nameBeforeParen? cs = some name ↔ IsReference name cs := by
  have hSplit : cs.takeWhile (· != '(') ++ cs.dropWhile (· != '(') = cs :=
    List.takeWhile_append_dropWhile
  constructor
  · intro hName
    simp only [nameBeforeParen?, Bool.or_eq_true, List.isEmpty_iff, beq_iff_eq,
      Option.ite_none_left_eq_some, not_or, Option.some.injEq] at hName
    obtain ⟨⟨hSome, hLonger⟩, rfl⟩ := hName
    cases hDrop : cs.dropWhile (· != '(') with
    | nil => exact absurd (congrArg List.length (by simpa [hDrop] using hSplit)) hLonger
    | cons c after =>
      have hParen : c = '(' := by
        have hHead := List.head?_dropWhile_not (· != '(') cs
        simpa [hDrop] using hHead
      subst hParen
      refine ⟨after, ?_, hSome, fun hMem => ?_⟩
      · rw [← hDrop, hSplit]
      · have hAll := List.all_takeWhile (p := (· != '(')) (l := cs)
        simpa using List.all_eq_true.1 hAll _ hMem
  · rintro ⟨after, rfl, hSome, hParen⟩
    have hTake : (name ++ '(' :: after).takeWhile (· != '(') = name := by
      rw [List.takeWhile_append_of_pos]
      · simp
      · intro c hc
        simpa using ne_of_mem_of_not_mem hc hParen
    simp [nameBeforeParen?, hTake, hSome]

theorem not_refers_nil : ¬ Refers [] name := by
  rintro ⟨behind, before, hNil, -⟩
  simp at hNil

theorem refersAt_cons_iff :
    RefersAt (c :: rest) name behind ↔
      (c ≠ '\n' ∧ RefersAt rest name behind) ∨
        (c = '@' ∧ behind = rest ∧ IsReference name rest) := by
  constructor
  · rintro ⟨before, hText, hLine, hName⟩
    cases before with
    | nil =>
      obtain ⟨rfl, rfl⟩ := List.cons.inj hText
      exact Or.inr ⟨rfl, rfl, hName⟩
    | cons b before =>
      obtain ⟨rfl, rfl⟩ := List.cons.inj hText
      rw [List.mem_cons, not_or] at hLine
      exact Or.inl ⟨Ne.symm hLine.1, before, rfl, hLine.2, hName⟩
  · rintro (⟨hChar, before, rfl, hLine, hName⟩ | ⟨rfl, rfl, hName⟩)
    · refine ⟨c :: before, rfl, ?_, hName⟩
      rw [List.mem_cons, not_or]
      exact ⟨Ne.symm hChar, hLine⟩
    · exact ⟨[], rfl, List.not_mem_nil, hName⟩

theorem refers_cons_iff :
    Refers (c :: rest) name ↔
      (c ≠ '\n' ∧ Refers rest name) ∨ (c = '@' ∧ IsReference name rest) := by
  simp only [Refers, refersAt_cons_iff, exists_or, exists_and_left, exists_eq_left]

theorem refersLast_cons_iff :
    RefersLast (c :: rest) name ↔
      (c ≠ '\n' ∧ RefersLast rest name) ∨
        (c = '@' ∧ IsReference name rest ∧ ∀ other, ¬ Refers rest other) := by
  simp only [RefersLast, refersAt_cons_iff, or_and_right, exists_or, and_assoc, exists_and_left,
    exists_eq_left]

/-- Characters without an at-sign refer to nothing by themselves, and a newline among them ends the
line. -/
theorem refers_append_iff (hSign : '@' ∉ cs) :
    Refers (cs ++ rest) name ↔ '\n' ∉ cs ∧ Refers rest name := by
  induction cs with
  | nil => simp
  | cons c cs ih =>
    rw [List.mem_cons, not_or] at hSign
    rw [List.cons_append, refers_cons_iff, ih hSign.2, List.mem_cons, not_or]
    constructor
    · rintro (⟨hChar, hLine, hRefers⟩ | ⟨rfl, -⟩)
      · exact ⟨⟨Ne.symm hChar, hLine⟩, hRefers⟩
      · exact absurd rfl hSign.1
    · rintro ⟨⟨hChar, hLine⟩, hRefers⟩
      exact Or.inl ⟨Ne.symm hChar, hLine, hRefers⟩

theorem RefersLast.refers (h : RefersLast cs name) : Refers cs name := by
  obtain ⟨behind, hAt, -⟩ := h
  exact ⟨behind, hAt⟩

theorem RefersLast.append (h : RefersLast rest name) (hLine : '\n' ∉ cs) :
    RefersLast (cs ++ rest) name := by
  obtain ⟨behind, ⟨before, rfl, hBefore, hName⟩, hNone⟩ := h
  refine ⟨behind, ⟨cs ++ before, (List.append_assoc _ _ _).symm, ?_, hName⟩, hNone⟩
  rw [List.mem_append, not_or]
  exact ⟨hLine, hBefore⟩

theorem functionName?_cons (c : Char) (rest : List Char) :
    functionName? (c :: rest) =
      if c = '\n' then none
      else (functionName? rest).or (if c = '@' then nameBeforeParen? rest else none) := by
  rw [functionName?]
  cases functionName? rest <;> rfl

theorem functionName?_eq_none_iff : functionName? cs = none ↔ ∀ name, ¬ Refers cs name := by
  induction cs with
  | nil => simp [functionName?, not_refers_nil]
  | cons c rest ih =>
    simp only [refers_cons_iff, ← nameBeforeParen?_eq_some_iff, not_or, not_and, forall_and]
    rw [functionName?_cons]
    by_cases hLine : c = '\n'
    · simp [hLine]
    · rw [if_neg hLine, Option.or_eq_none_iff, ih]
      by_cases hSign : c = '@'
      · simp [hSign, Option.eq_none_iff_forall_ne_some]
      · simp [hLine, hSign]

/-- The pattern for a header finds the last place that has the form of a reference. -/
theorem functionName?_eq_some_iff : functionName? cs = some name ↔ RefersLast cs name := by
  induction cs with
  | nil =>
    simp only [functionName?, reduceCtorEq, false_iff]
    exact fun hLast => not_refers_nil hLast.refers
  | cons c rest ih =>
    rw [functionName?_cons, refersLast_cons_iff, ← ih, ← functionName?_eq_none_iff,
      ← nameBeforeParen?_eq_some_iff]
    by_cases hLine : c = '\n'
    · simp [hLine]
    · rw [if_neg hLine, Option.or_eq_some_iff]
      by_cases hSign : c = '@'
      · simp [hSign, and_comm]
      · simp [hLine, hSign]

end Reference

/-! ## Headers -/

section Header

variable {pre name post : List Char}

/-- The own name of a header is the last one that its line refers to exactly if no other one
follows. -/
theorem refersLast_header (hLine : '\n' ∉ pre) (hName : name ≠ []) (hSign : '@' ∉ name)
    (hParen : '(' ∉ name) (hAlone : '\n' ∈ name ∨ ∀ other, ¬ Refers post other) :
    RefersLast (pre ++ '@' :: (name ++ '(' :: post)) name := by
  refine ⟨_, ⟨pre, rfl, hLine, post, rfl, hName, hParen⟩, fun other hRefers => ?_⟩
  have hSplit : name ++ '(' :: post = (name ++ ['(']) ++ post := by simp
  have hNoSign : '@' ∉ name ++ ['('] := by simpa using hSign
  rw [hSplit, refers_append_iff hNoSign] at hRefers
  rcases hAlone with hBreak | hNone
  · exact hRefers.1 (List.mem_append_left _ hBreak)
  · exact hNone other hRefers.2

theorem refersLast_behind {other : List Char} (hLine : '\n' ∉ pre) (hBreak : '\n' ∉ name)
    (hLast : RefersLast post other) :
    RefersLast (pre ++ '@' :: (name ++ '(' :: post)) other := by
  have hSplit : pre ++ '@' :: (name ++ '(' :: post) = (pre ++ '@' :: (name ++ ['('])) ++ post := by
    simp
  rw [hSplit]
  refine hLast.append ?_
  simp [hLine, hBreak]

end Header

/-- A line that starts like a header and refers to a name is read as the header of the last one. -/
theorem ofText?_of_refersLast {cs opened : List Char} {line : String}
    (hLine : line.toList = "define ".toList ++ cs) (hLast : RefersLast cs opened) :
    Line.ofText? line = some (.define (String.ofList opened)) := by
  have hDefine : define? line.toList = some (.define (String.ofList opened)) := by
    rw [hLine]
    simp only [define?, after?_append, functionName?_eq_some_iff.2 hLast, Option.bind_eq_bind,
      Option.bind_some, Option.pure_def]
  simp only [Line.ofText?, readings, patterns, List.filterMap_cons, hDefine, List.head?_cons]

namespace Extraction

/-- A header hands over the open function and opens one. This has the header's own name, unless the
rest of the line has the form of a reference, too; then it has the last name referred to. -/
theorem feed_define (x : Extraction) {pre name post : String}
    (hLine : '\n' ∉ pre.toList) (hName : name ≠ "") (hSign : '@' ∉ name.toList)
    (hParen : '(' ∉ name.toList) :
    ∃ opened : String,
      x.feed ("define " ++ pre ++ "@" ++ name ++ "(" ++ post) =
          (({ x with line := x.line + 1 } : Extraction).openFunction opened, x.completed?) ∧
        ((opened = name ∧ ('\n' ∈ name.toList ∨ ∀ other, ¬ Refers post.toList other)) ∨
          ('\n' ∉ name.toList ∧ RefersLast post.toList opened.toList)) := by
  have hText : ("define " ++ pre ++ "@" ++ name ++ "(" ++ post).toList =
      "define ".toList ++ (pre.toList ++ '@' :: (name.toList ++ '(' :: post.toList)) := by
    simp [String.toList_append]
  have hFeed : ∀ opened : String,
      RefersLast (pre.toList ++ '@' :: (name.toList ++ '(' :: post.toList)) opened.toList →
        x.feed ("define " ++ pre ++ "@" ++ name ++ "(" ++ post) =
          (({ x with line := x.line + 1 } : Extraction).openFunction opened, x.completed?) := by
    intro opened hLast
    rw [feed_of_some (ofText?_of_refersLast hText hLast), String.ofList_toList]
    rfl
  by_cases hAlone : '\n' ∈ name.toList ∨ ∀ other, ¬ Refers post.toList other
  · have hSome : name.toList ≠ [] := by simpa using hName
    have hOwn := refersLast_header hLine hSome hSign hParen hAlone
    exact ⟨name, hFeed name hOwn, Or.inl ⟨rfl, hAlone⟩⟩
  · obtain ⟨hBreak, hRefers⟩ := not_or.1 hAlone
    obtain ⟨other, hOther⟩ := Option.ne_none_iff_exists'.1 (mt functionName?_eq_none_iff.1 hRefers)
    have hLast := functionName?_eq_some_iff.1 hOther
    refine ⟨String.ofList other, hFeed _ ?_, Or.inr ⟨hBreak, ?_⟩⟩
    · rw [String.toList_ofList]
      exact refersLast_behind hLine hBreak hLast
    · rwa [String.toList_ofList]

/-- A personality by itself takes no name away, since no parenthesis follows it. -/
theorem feed_define_personality :
    '\n' ∉ "dso_local void ".toList ∧ "guard" ≠ "" ∧ '@' ∉ "guard".toList ∧ '(' ∉ "guard".toList ∧
      ∃ opened : String,
        ({} : Extraction).feed ("define " ++ "dso_local void " ++ "@" ++ "guard" ++ "(" ++
            "ptr %p) personality ptr @__gxx_personality_v0 \x7b") =
          (({ line := 1 } : Extraction).openFunction opened, none) ∧ opened = "guard" := by
  have hLine : '\n' ∉ "dso_local void ".toList := by decide
  have hName : "guard" ≠ "" := by decide
  have hSign : '@' ∉ "guard".toList := by decide
  have hParen : '(' ∉ "guard".toList := by decide
  refine ⟨hLine, hName, hSign, hParen, ?_⟩
  obtain ⟨opened, hFeed, hNamed⟩ := @feed_define {} "dso_local void " "guard"
    "ptr %p) personality ptr @__gxx_personality_v0 \x7b" hLine hName hSign hParen
  refine ⟨opened, hFeed, ?_⟩
  rcases hNamed with ⟨hOwn, -⟩ | ⟨-, hLast⟩
  · exact hOwn
  · have hFound := functionName?_eq_some_iff.2 hLast
    have hNothing :
        functionName? "ptr %p) personality ptr @__gxx_personality_v0 \x7b".toList = none := by
      decide +kernel
    rw [hNothing] at hFound
    cases hFound

/-- A comment with a parenthesis, behind a personality, gives the function a name that is none. -/
theorem not_named_by_header :
    ¬ ∀ (x : Extraction) (pre name post : String), '@' ∉ pre.toList → '\n' ∉ pre.toList →
      name ≠ "" → '@' ∉ name.toList → '(' ∉ name.toList →
        (x.feed ("define " ++ pre ++ "@" ++ name ++ "(" ++ post)).1.function = some name := by
  intro hNamed
  have hOwn := hNamed {} "void " "f" ") personality ptr @p \x7b ; f(int)" (by decide) (by decide)
    (by decide) (by decide) (by decide)
  have hRead : (({} : Extraction).feed ("define " ++ "void " ++ "@" ++ "f" ++ "(" ++
      ") personality ptr @p \x7b ; f(int)")).1.function = some "p \x7b ; f" := by
    decide +kernel
  rw [hRead] at hOwn
  exact absurd hOwn (by decide)

end Extraction

end GraphMarkup.ControlFlow
