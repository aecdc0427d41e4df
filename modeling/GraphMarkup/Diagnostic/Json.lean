import GraphMarkup.Diagnostic
import GraphMarkup.Json.Printer
import GraphMarkup.Json.Tree

/-!
# Diagnostics as JSON

A diagnostic is written as an object with the fields `line`, `message` and `stage`. Two orders of
these fields are in use: by name, as in all other objects of this library, and by what they
mean. Reading takes the fields in any order, passes over others, and also takes a list of the
three values in the order of what they mean.
-/

namespace GraphMarkup.Diagnostic

/-- A diagnostic with its fields in the order of their names. -/
def toJson (d : Diagnostic) : Json.Value :=
  .ofFields [("line", .number d.line.toNat), ("message", .text d.message),
    ("stage", .text d.stage.word)]

/-- A diagnostic with its fields in the order of what they mean: where the trouble was met, on
which line, and what it was. -/
def toRecord (d : Diagnostic) : Json.Value :=
  .object [("stage", .text d.stage.word), ("line", .number d.line.toNat),
    ("message", .text d.message)]

/-- A stage is given by its word, or by an object that has nothing but a field of that name
without a value. -/
def readStage? : Json.Tree → Option Stage
  | .string (some word) => Stage.ofWord? word
  | .object [(some word, .null)] => Stage.ofWord? word
  | _ => none

/-- A line is given by a natural number of at most thirty-two bits. -/
def readLine? : Json.Tree → Option UInt32
  | .natural n => if n < UInt32.size then some (UInt32.ofNat n) else none
  | _ => none

/-- A message is given by a text. -/
def readMessage? : Json.Tree → Option String
  | .string text => text
  | _ => none

/-- The value of a field that must be there exactly once. -/
def single? (name : String) (fields : List (Option String × Json.Tree)) : Option Json.Tree :=
  match fields.filter (·.1 == some name) with
  | [(_, v)] => some v
  | _ => none

/-- The diagnostic that a value stands for. -/
def ofTree? : Json.Tree → Option Diagnostic
  | .list [stage, line, message] =>
    return ⟨← readStage? stage, ← readLine? line, ← readMessage? message⟩
  | .object fields => do
    guard (fields.all (·.1.isSome))
    return {
      stage := ← readStage? (← single? "stage" fields)
      line := ← readLine? (← single? "line" fields)
      message := ← readMessage? (← single? "message" fields) }
  | _ => none

/-- The diagnostic that a text stands for. -/
def ofJsonText? (text : String) : Option Diagnostic := do
  ofTree? (← Json.Tree.ofText? text)

end GraphMarkup.Diagnostic
