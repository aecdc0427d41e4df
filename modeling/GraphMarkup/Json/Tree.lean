import GraphMarkup.Json.Lexeme

/-!
# Reading JSON

JSON text is read by an automaton with a stack. Each lexeme is one step: it opens or closes a
container, becomes a value, names a field or separates two parts. The containers that are still
open are kept with what they hold so far. `Tree.ofText?` answers exactly when the steps end with
one complete value and nothing open.
-/

namespace GraphMarkup.Json

/-- What JSON text says, as far as it is asked for. A string, or the name of a field, is none
when it has no text. -/
inductive Tree where
  | null
  | string (text : Option String)
  | natural (n : Nat)
  /-- A truth value, or a number that is not written as a natural one. -/
  | other
  | list (items : List Tree)
  | object (fields : List (Option String × Tree))
deriving Repr, Inhabited

/-- A container that is still open, with its parts in reverse order. -/
inductive Frame where
  | list (items : List Tree)
  /-- An object whose field called `name` is being read. -/
  | object (fields : List (Option String × Tree)) (name : Option String)
deriving Repr

/-- What may come next. -/
inductive Awaited where
  /-- A value. -/
  | value (frames : List Frame)
  /-- A value, or the end of the list just opened. -/
  | firstItem (frames : List Frame)
  /-- A field name, or the end of the object just opened. -/
  | firstField (frames : List Frame)
  /-- A field name. -/
  | field (fields : List (Option String × Tree)) (frames : List Frame)
  /-- The colon after a field name. -/
  | colon (fields : List (Option String × Tree)) (name : Option String) (frames : List Frame)
  /-- A comma or the end of a list. -/
  | nextItem (items : List Tree) (frames : List Frame)
  /-- A comma or the end of an object. -/
  | nextField (fields : List (Option String × Tree)) (frames : List Frame)
  /-- Nothing more. -/
  | nothing (read : Tree)
deriving Repr

/-- Puts a complete value into the innermost open container. -/
def Awaited.afterValue (v : Tree) : List Frame → Awaited
  | [] => .nothing v
  | .list items :: frames => .nextItem (v :: items) frames
  | .object fields name :: frames => .nextField ((name, v) :: fields) frames

/-- Takes a lexeme where a value is awaited. -/
def Awaited.startValue? (frames : List Frame) : Lexeme → Option Awaited
  | .opening .square => some (.firstItem frames)
  | .opening .curly => some (.firstField frames)
  | .string text => some (.afterValue (.string text) frames)
  | .number (some n) => some (.afterValue (.natural n) frames)
  | .number none => some (.afterValue .other frames)
  | .null => some (.afterValue .null frames)
  | .boolean => some (.afterValue .other frames)
  | _ => none

/-- Takes the next lexeme, unless it is not among what may come. -/
def Awaited.step? : Awaited → Lexeme → Option Awaited
  | .value frames, l => Awaited.startValue? frames l
  | .firstItem frames, .closing .square => some (.afterValue (.list []) frames)
  | .firstItem frames, l => Awaited.startValue? (.list [] :: frames) l
  | .firstField frames, .closing .curly => some (.afterValue (.object []) frames)
  | .firstField frames, .string name => some (.colon [] name frames)
  | .field fields frames, .string name => some (.colon fields name frames)
  | .colon fields name frames, .colon => some (.value (.object fields name :: frames))
  | .nextItem items frames, .comma => some (.value (.list items :: frames))
  | .nextItem items frames, .closing .square => some (.afterValue (.list items.reverse) frames)
  | .nextField fields frames, .comma => some (.field fields frames)
  | .nextField fields frames, .closing .curly =>
    some (.afterValue (.object fields.reverse) frames)
  | _, _ => none

/-- The value that some lexemes make up. -/
def Tree.ofLexemes? (ls : List Lexeme) : Option Tree := do
  match ← ls.foldlM Awaited.step? (.value []) with
  | .nothing v => some v
  | _ => none

/-- The value that a text stands for. -/
def Tree.ofText? (text : String) : Option Tree := do
  Tree.ofLexemes? (← lexemes? text.toList)

end GraphMarkup.Json
