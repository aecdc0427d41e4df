import GraphMarkup.Diagnostic
import GraphMarkup.Dot.TokenStream
import GraphMarkup.Graph

/-!
# Reading a token stream

A reading walks over a token stream and builds a graph from it. It never steps past the last
token, whatever that is, so there is always a current token. Something unexpected is recorded as
a diagnostic on the line of the current token; what happens then depends on the mode: to recover
is to go on as if the expected token had been there, to fail fast is to halt.

Because a reading that recovers goes on whatever it meets, its loops need not make progress: a
stream whose last token is not the end of input can be read for ever. `loop` watches for that. A
round that leaves as many tokens as it found has not moved, so the next round would meet the same
token again; the reading is then stopped as endless.
-/

namespace GraphMarkup.Dot

/-- What a reading does about something unexpected. -/
inductive Mode where
  /-- Record it and go on. -/
  | recover
  /-- Record it and halt. -/
  | failFast
deriving DecidableEq, Repr, Inhabited

/-- Why a reading stopped before the document was through. -/
inductive Stop where
  /-- Something unexpected was met in a reading that fails fast. -/
  | halted
  /-- A loop came back to the token it started from. -/
  | endless
deriving DecidableEq, Repr, Inhabited

/-- How many rounds the loops of a reading have begun. -/
structure Effort where
  statements : Nat := 0
  attributes : Nat := 0
deriving DecidableEq, Repr, Inhabited

/-- How far a reading has come: the tokens from the current one on, and what was made of those
before it. -/
structure Reading where
  mode : Mode
  rest : TokenStream
  name : Option String := none
  graph : Graph := {}
  diagnostics : Array Diagnostic := #[]
  effort : Effort := {}
deriving DecidableEq, Repr, Inhabited

/-- The current token. Of an empty stream it is the end of input, on line zero. -/
def Reading.current (r : Reading) : Located := r.rest.headD ⟨.eof, 0⟩

/-- Goes to the next token, if the current one is not the last. -/
def Reading.advance (r : Reading) : Reading :=
  match r.rest with
  | _ :: next :: more => { r with rest := next :: more }
  | _ => r

/-- A step of a reading: it gives a value or stops, and says how far the reading has come. -/
abbrev Reader := EStateM Stop Reading

namespace Reader

/-! ## Single tokens -/

/-- The current token, which stays current. -/
def peek : Reader Token := return (← get).current.token

def advance : Reader Unit := modify Reading.advance

/-- Records a diagnostic on the line of the current token. -/
def report (message : String) : Reader Unit := do
  modify fun r =>
    { r with diagnostics := r.diagnostics.push ⟨.parse, r.current.line, message⟩ }
  if (← get).mode = .failFast then
    throw .halted

/-- Records that the current token is not what was expected. -/
def reportExpected (expected : String) : Reader Unit := do
  report ("expected " ++ expected ++ ", got " ++ (← peek).describe)

/-- Takes a given token. Another one is reported and taken in its place. -/
def expect (token : Token) : Reader Unit := do
  if (← peek) ≠ token then
    reportExpected token.describe
  advance

/-- Takes a string. Another token is reported and taken in its place. -/
def expectString : Reader Unit := do
  match ← peek with
  | .str _ => pure ()
  | _ => reportExpected "string"
  advance

/-- Takes a given token if it is the current one, and says whether it was. -/
def eat (token : Token) : Reader Bool := do
  if (← peek) = token then
    advance
    return true
  else
    return false

/-- The name that stands in for one that could not be read. -/
def invalidName : String := "$invalid$"

/-- Takes a name, which is a bare word, a string or a reserved word. Another token is reported
and not taken. -/
def readName : Reader String := do
  match ← peek with
  | .ident text => advance; return text
  | .str text => advance; return text
  | .keyword k => advance; return k.word
  | _ => reportExpected "identifier or string"; return invalidName

/-! ## Loops -/

/-- What a round of a loop comes to: another round, or a way out. -/
inductive Round (σ : Type) (β : Type) where
  | again (state : σ)
  | leave (result : β)

/-- Repeats a round until it leaves. A round after which as many tokens are left as before has
stayed where it was, and so would all rounds after it. -/
def loop {σ β : Type} (round : σ → Reader (Round σ β)) (state : σ) : Reader β := fun r =>
  match round state r with
  | .error stop r' => .error stop r'
  | .ok (.leave result) r' => .ok result r'
  | .ok (.again state') r' =>
    if r'.rest.length < r.rest.length then loop round state' r' else .error .endless r'
termination_by r => r.rest.length

end Reader

end GraphMarkup.Dot
