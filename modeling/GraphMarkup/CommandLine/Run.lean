import GraphMarkup.CommandLine.Arguments
import GraphMarkup.Diagnostic.Json
import GraphMarkup.Export
import GraphMarkup.Markup.Page

/-!
# Running a command

A run reads its input, writes its result to an output and leaves remarks: the diagnostics of the
input, or the one problem that kept the result from being written. It sees of the world outside
only what files hold and what the standard input gives, so it is a function of these, of the
invocation and of the output.

Remarks do not change the result. In the form of text they can be silenced altogether; in the
form of JSON silencing holds back a problem, but not diagnostics.
-/

namespace GraphMarkup.CommandLine

open Markup (Fragments FragmentSource Layout)

/-- What a run can read. -/
structure World where
  readFile : String → Except Fault Bytes
  stdin : Bytes

/-- What kept a result from being written. -/
inductive Problem where
  | unreadableFile (path : String) (cause : Fault)
  | unreadableInput (cause : Fault)
  /-- A page could not be written. -/
  | page (failure : Failure)
  /-- Something other than a page could not be written. -/
  | output (cause : Fault)
deriving DecidableEq, Repr, Inhabited

/-- A problem in words. -/
def Problem.message : Problem → String
  | .unreadableFile path cause => "error reading file '" ++ path ++ "': " ++ cause.message
  | .unreadableInput cause => "error reading stdin: " ++ cause.message
  | .page failure => "error: " ++ failure.message
  | .output cause => "error: " ++ cause.message

/-- A program that ends with a problem where its output fails. -/
abbrev Program (σ : Type) := EStateM Problem σ

/-! ## Input -/

/-- Whether a path stands for the standard input: a hyphen, with or without steps after it that
stay where they are. -/
def meansStdin (path : String) : Bool :=
  match pathSteps path with
  | "-" :: rest => rest.all fun s => s.isEmpty || s == "."
  | _ => false

/-- The text of some bytes. -/
def textOf (bytes : Bytes) : Except Fault String :=
  match Text.decode? bytes with
  | some text => .ok text
  | none => .error .invalidText

/-- The path of the file to read, unless it is the standard input that is to be read. -/
def sourcePath? (file : Option String) : Option String := file.filter (!meansStdin ·)

/-- The text of a file, or of the standard input if no file is given. -/
def readSource (w : World) (file : Option String) : Except Problem String :=
  match sourcePath? file with
  | some path =>
    match w.readFile path >>= textOf with
    | .ok text => .ok text
    | .error cause => .error (.unreadableFile path cause)
  | none =>
    match textOf w.stdin with
    | .ok text => .ok text
    | .error cause => .error (.unreadableInput cause)

/-! ## Commands -/

namespace Program

variable {σ : Type}

/-- A value, or a problem. -/
def ofExcept {α : Type} : Except Problem α → Program σ α
  | .ok a => pure a
  | .error p => throw p

/-- A program that writes a page. -/
def ofPage {α : Type} (w : Writer σ α) : Program σ α := fun s =>
  match w s with
  | .ok a s' => .ok a s'
  | .error failure s' => .error (.page failure) s'

/-- Writes a line of text. -/
def writeLine (sink : Sink σ) (line : String) : Program σ Unit := fun s =>
  match sink.writeAll s (Text.encode (line ++ "\n")) with
  | (none, s') => .ok () s'
  | (some cause, s') => .error (.output cause) s'

/-- The fragments of a page from a directory. -/
def loadFragments (w : World) (directory : String) (layout : Layout) : Program σ Fragments :=
  match Fragments.load (FragmentSource.ofDirectory w.readFile directory) layout with
  | .ok fragments => pure fragments
  | .error failure => throw (.page failure)

/-- Writes a value on several lines, if there is one. -/
def writeJson (sink : Sink σ) : Option Json.Value → Program σ Unit
  | some v => writeLine sink v.pretty
  | none => throw (.page .danglingEdge)

/-- Reads a document and writes its graph. -/
def dot (sink : Sink σ) (w : World) (templates : String) (file : Option String)
    (options : Dot.Options) (emit : EmitFormat) : Program σ (List Diagnostic) := do
  let source ← ofExcept (readSource w file)
  let d := Dot.Document.ofText options source
  match emit with
  | .markup =>
    let fragments ← loadFragments w templates .dot
    ofPage (Markup.Page.writeGraph sink fragments d.graph)
  | .json => writeJson sink (d.graph.toNamedJson? d.name)
  return d.diagnostics

/-- Reads a listing and writes the flow graphs of its functions. -/
def llvm (sink : Sink σ) (w : World) (templates : String) (file : String) (emit : EmitFormat) :
    Program σ (List Diagnostic) := do
  let source ← ofExcept (readSource w (some file))
  match emit with
  | .markup =>
    let fragments ← loadFragments w templates .llvm
    ofPage (Markup.Page.writeListing sink fragments source)
  | .json =>
    let listing := ControlFlow.extract source
    writeJson sink ((listing.functions.mapM ControlFlow.FlowGraph.toJson?).map .list)
    return listing.diagnostics

/-- Reads a document and writes its tokens, one to a line. -/
def tokens (sink : Sink σ) (w : World) (file : Option String) (keywords : Dot.KeywordSet) :
    Program σ (List Diagnostic) := do
  let source ← ofExcept (readSource w file)
  (Dot.TokenStream.ofText keywords source).forM fun t => writeLine sink t.display
  return []

/-- The program of a command. -/
def ofCommand (sink : Sink σ) (w : World) (templates : String) :
    Command → Program σ (List Diagnostic)
  | .dot file keywords mode emit => dot sink w templates file ⟨keywords.keywords, mode⟩ emit
  | .llvm file emit => llvm sink w templates file emit
  | .tokens file keywords => tokens sink w file keywords.keywords

end Program

/-! ## Remarks -/

/-- How a run ended: its exit status, and what it wrote to the standard error. -/
structure Outcome where
  status : Nat
  stderr : String
deriving DecidableEq, Repr, Inhabited

/-- How a problem is put. -/
def problemRemark (output : OutputFormat) (quiet : Bool) (p : Problem) : String :=
  if quiet then ""
  else
    match output with
    | .text => p.message ++ "\n"
    | .json => (Json.Value.ofFields [("error", .text p.message)]).compact ++ "\n"

/-- How diagnostics are put. -/
def diagnosticsRemark (output : OutputFormat) (quiet : Bool) (ds : List Diagnostic) : String :=
  if ds.isEmpty then ""
  else
    match output with
    | .text => if quiet then "" else String.join (ds.map fun d => d.display ++ "\n")
    | .json => (Json.Value.list (ds.map Diagnostic.toJson)).pretty ++ "\n"

/-- Runs an invocation, and gives the state of the output after it. -/
def run {σ : Type} (sink : Sink σ) (w : World) (i : Invocation) (s : σ) : Outcome × σ :=
  match Program.ofCommand sink w i.templates i.command s with
  | .ok ds s' => (⟨if ds.isEmpty then 0 else 1, diagnosticsRemark i.output i.quiet ds⟩, s')
  | .error p s' => (⟨1, problemRemark i.output i.quiet p⟩, s')

/-! ## Arguments -/

/-- The name and the version of the program. -/
def versionText : String := "compgraph 0.1.0\n"

/-- What is said to arguments that are not understood. -/
def usageText : String :=
  "usage: compgraph [OPTIONS] <dot|llvm|tokens> [OPTIONS] [FILE]\n"

/-- Does what some arguments ask for. -/
def execute {σ : Type} (sink : Sink σ) (w : World) (args : List String) (s : σ) :
    Outcome × σ :=
  match Request.ofArguments args with
  | .run i => run sink w i s
  | .version => (⟨0, ""⟩, (sink.writeAll s (Text.encode versionText)).2)
  | .rejected => (⟨2, usageText⟩, s)

/-! ## What a run needs -/

/-- The file that a command is given. -/
def Command.file? : Command → Option String
  | .dot file _ _ _ => file
  | .llvm file _ => some file
  | .tokens file _ => file

/-- The kind of page that a command writes, if it writes one. -/
def Command.layout? : Command → Option Layout
  | .dot _ _ _ .markup => some .dot
  | .llvm _ .markup => some .llvm
  | _ => none

/-- Whether a run reads the standard input. -/
def Invocation.readsStdin (i : Invocation) : Bool := (sourcePath? i.command.file?).isNone

/-- The files that a run may read. -/
def Invocation.files (i : Invocation) : List String :=
  let fragments := match i.command.layout? with
    | some layout => [layout.headerName, layout.footerName]
    | none => []
  (sourcePath? i.command.file?).toList ++ fragments.map (joinPath i.templates)

end GraphMarkup.CommandLine
