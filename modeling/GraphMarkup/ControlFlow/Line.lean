import GraphMarkup.ControlFlow.FlowGraph
import GraphMarkup.Text.Blank
import GraphMarkup.Text.WordChar

/-!
# Lines of a listing

A listing is not read token by token. Each of its lines is held against five patterns:

* a header, `define`, a space, anything up to the last at-sign that can be followed by a name and
  an opening parenthesis;
* a block label, a name directly followed by a colon at the start of the line;
* a branch, indented, `br` or `invoke`, after an assignment or not;
* a continuation of an `invoke`, indented, with `to label` in front and `unwind` further on;
* an end of a block, indented, `ret` or `unreachable` as a whole word.

`readings` holds a line against any list of patterns; a line of none of the forms is passed over.
The targets of a branch are the names after `label %` on its line, wherever they stand.
-/

namespace GraphMarkup.ControlFlow

/-! ## Parts of a line -/

/-- What follows a given beginning. -/
def after? (start : String) (cs : List Char) : Option (List Char) :=
  if start.toList.isPrefixOf cs then some (cs.drop start.length) else none

/-- Whether some text occurs among the characters. -/
def occurs (text : String) : List Char → Bool
  | [] => text.toList.isEmpty
  | c :: rest => text.toList.isPrefixOf (c :: rest) || occurs text rest

/-- The names of blocks and of values are made of ASCII letters, digits, low lines and dots. -/
def isNameChar (c : Char) : Bool := c.isAlphanum || c == '_' || c == '.'

/-- A name of at least one character, and what follows it. -/
def leadingName? (cs : List Char) : Option (List Char × List Char) :=
  let name := cs.takeWhile isNameChar
  if name.isEmpty then none else some (name, cs.dropWhile isNameChar)

/-- What follows the blanks in front, of which there must be one. -/
def indented? : List Char → Option (List Char)
  | c :: rest => if Text.isBlank c then some (rest.dropWhile Text.isBlank) else none
  | [] => none

/-- What stands before the first newline. -/
def firstLine (cs : List Char) : List Char := cs.takeWhile (· != '\n')

/-! ## The patterns -/

/-- What a line says about control flow. -/
inductive Line where
  /-- The header of a function. -/
  | define (name : String)
  /-- The label of a block. -/
  | block (name : String)
  /-- A branch to the labels on the line. -/
  | branch (t : Terminator)
  /-- The end of a block without a branch. -/
  | terminator (t : Terminator)
deriving DecidableEq, Repr

/-- The name in front of an opening parenthesis. It may hold anything else. -/
def nameBeforeParen? (cs : List Char) : Option (List Char) :=
  let name := cs.takeWhile (· != '(')
  if name.isEmpty || name.length == cs.length then none else some name

/-- The name after the last at-sign before a newline that a name and a parenthesis follow. -/
def functionName? : List Char → Option (List Char)
  | [] => none
  | c :: rest =>
    if c = '\n' then none
    else
      match functionName? rest with
      | some name => some name
      | none => if c = '@' then nameBeforeParen? rest else none

/-- The header of a function. -/
def define? (line : List Char) : Option Line := do
  let name ← functionName? (← after? "define " line)
  return .define (String.ofList name)

/-- The label of a block. -/
def block? (line : List Char) : Option Line := do
  let (name, rest) ← leadingName? line
  if rest.head? = some ':' then some (.block (String.ofList name)) else none

/-- What follows an assignment to a value, if there is one in front. -/
def skipAssignment? (cs : List Char) : Option (List Char) :=
  match cs with
  | '%' :: rest => do after? " = " (← leadingName? rest).2
  | _ => some cs

/-- A branch. -/
def branch? (line : List Char) : Option Line := do
  let rest ← skipAssignment? (← indented? line)
  if (after? "br " rest).isSome then some (.branch .br)
  else if (after? "invoke " rest).isSome then some (.branch .invoke)
  else none

/-- The line that names the targets of an `invoke`. -/
def continuation? (line : List Char) : Option Line := do
  let rest ← after? "to label" (← indented? line)
  if occurs "unwind" (firstLine rest) then some (.branch .invoke) else none

/-- Whether a word that stands before these characters ends there. -/
def atWordEnd (cs : List Char) : Bool := !(cs.head?.any Text.isWordChar)

/-- The end of a block. -/
def terminator? (line : List Char) : Option Line := do
  let rest ← indented? line
  if (after? "ret" rest).any atWordEnd then some (.terminator .ret)
  else if (after? "unreachable" rest).any atWordEnd then some (.terminator .unreachable)
  else none

/-- A pattern says what a line means, if the line has its form. -/
abbrev Pattern := List Char → Option Line

/-- The five patterns. -/
def patterns : List Pattern := [define?, block?, branch?, continuation?, terminator?]

/-- What a line means by each of some patterns that it has the form of. -/
def readings (ps : List Pattern) (line : List Char) : List Line := ps.filterMap (· line)

/-- What a line means, if it has one of the five forms. -/
def Line.ofText? (line : String) : Option Line := (readings patterns line.toList).head?

/-! ## Targets -/

/-- The target that the characters start with, and what follows it. -/
def leadingTarget? (cs : List Char) : Option (List Char × List Char) := do
  leadingName? (← after? "label %" cs)

theorem length_lt_of_leadingTarget? {cs name rest : List Char}
    (h : leadingTarget? cs = some (name, rest)) : rest.length < cs.length := by
  obtain ⟨following, hAfter, hName⟩ := Option.bind_eq_some_iff.1 h
  have hStart : following.length < cs.length := by
    unfold after? at hAfter
    split at hAfter
    next hPre =>
      cases hAfter
      have hLe := (List.isPrefixOf_iff_prefix.1 hPre).length_le
      rw [List.length_drop]
      have hSeven : ("label %".toList).length = 7 := by decide
      have hEight : "label %".length = 7 := by decide
      omega
    · cases hAfter
  have hRest : rest.length ≤ following.length := by
    unfold leadingName? at hName
    simp only at hName
    split at hName
    · cases hName
    · cases hName
      exact (List.dropWhile_sublist _).length_le
  omega

/-- All targets on a line, from left to right. -/
def targets (cs : List Char) : List String :=
  match hTarget : leadingTarget? cs with
  | some (name, rest) =>
    have : rest.length < cs.length := length_lt_of_leadingTarget? hTarget
    String.ofList name :: targets rest
  | none =>
    match cs with
    | [] => []
    | _ :: rest => targets rest
termination_by cs.length

end GraphMarkup.ControlFlow
