import GraphMarkup.Output.Sink

/-!
# Writing programs

A writer is a program that writes to an output and stops at the first failure. What had arrived
by then stays, and nothing is written after it. `Writer.attempt` is for a program that has to
finish something else before it passes a failure on.
-/

namespace GraphMarkup

/-- Why a page was not written. -/
inductive Failure where
  /-- A fragment could not be read. -/
  | fragment (name : String) (cause : Fault)
  /-- The output failed. -/
  | output (cause : Fault)
  /-- The graph has an edge that leads outside it. -/
  | danglingEdge
deriving DecidableEq, Repr, Inhabited

/-- A failure in words. -/
def Failure.message : Failure → String
  | .fragment name cause =>
    "cannot read template fragment '" ++ name ++ "': " ++ cause.message
  | .output cause => "output error: " ++ cause.message
  | .danglingEdge => "edge leads outside the graph"

/-- A program that writes to an output with states of type `σ`. -/
abbrev Writer (σ : Type) := EStateM Failure σ

namespace Writer

variable {σ : Type}

/-- Passes on how a write or a flush ended. -/
def settle (ended : Option Fault × σ) : EStateM.Result Failure σ Unit :=
  match ended with
  | (none, s) => .ok () s
  | (some fault, s) => .error (.output fault) s

/-- Writes some bytes. -/
def writeBytes (sink : Sink σ) (bytes : Bytes) : Writer σ Unit := fun s =>
  settle (sink.writeAll s bytes)

/-- Writes texts one after another. -/
def writePieces (sink : Sink σ) (pieces : List String) : Writer σ Unit :=
  pieces.forM fun piece => writeBytes sink (Text.encode piece)

/-- Writes texts if there are any to write. -/
def writePieces? (sink : Sink σ) : Option (List String) → Writer σ Unit
  | some pieces => writePieces sink pieces
  | none => throw .danglingEdge

/-- Sees to it that what was written arrives. -/
def flush (sink : Sink σ) : Writer σ Unit := fun s => settle (sink.flush s)

/-- Runs a program and gives its failure as a value. -/
def attempt (w : Writer σ Unit) : Writer σ (Option Failure) := fun s =>
  match w s with
  | .ok _ s' => .ok none s'
  | .error failure s' => .ok (some failure) s'

end Writer

end GraphMarkup
