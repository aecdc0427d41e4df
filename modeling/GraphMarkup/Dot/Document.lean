import GraphMarkup.Dot.Reading

/-!
# Documents

A document of the dot language has the grammar

    document  := 'digraph' NAME '{' (statement ';')* '}' EOF
    statement := ('size' | 'rankdir' | 'label') '=' STRING
               | NAME ('->' NAME)? ('[' (attribute (',' attribute)*)? ']')?
    attribute := NAME '=' NAME

where a NAME is a bare word, a string or a reserved word. Settings of the whole graph are read
and passed over. A statement about one vertex may relabel it; the attributes of an edge have no
effect.

`Document.ofTokens` reads any token stream and always has an answer: the graph as far as it was
built, whatever went wrong. `Document.ofText` reads source text, with one more diagnostic in
front where part of the text could not be read as tokens.
-/

namespace GraphMarkup.Dot

/-- Attributes by name, the last one read first. -/
abbrev Attributes := List (String × String)

namespace Reader

/-! ## Attributes -/

/-- An attribute, after a comma unless it is the first. -/
def readAttribute (isFirst : Bool) : Reader (String × String) := do
  unless isFirst do
    expect (.mark .comma)
  let name ← readName
  expect (.mark .equals)
  let value ← readName
  return (name, value)

/-- One round of the attribute list. It ends at its closing bracket, and without one at the end
of what can be read. -/
def attributeRound (attributes : Attributes) : Reader (Round Attributes Attributes) := do
  modify fun r => { r with effort.attributes := r.effort.attributes + 1 }
  if ← eat (.mark .rightBracket) then
    return .leave attributes
  match ← peek with
  | .eof => return .leave attributes
  | .unrecognized _ => return .leave attributes
  | _ =>
    let newest ← readAttribute attributes.isEmpty
    return .again (newest :: attributes)

/-- The attributes between brackets. -/
def readAttributes : Reader Attributes := do
  expect (.mark .leftBracket)
  loop attributeRound []

/-! ## Statements -/

/-- The vertex with a given name, made on first mention. -/
def intern (name : String) : Reader VertexId :=
  modifyGet fun r =>
    let (id, graph) := r.graph.intern name
    (id, { r with graph := graph })

/-- A setting of the whole graph, whose keyword is the current token. -/
def readDirective : Reader Unit := do
  advance
  expect (.mark .equals)
  expectString

/-- The other end of an edge, if the statement is about one, which it says. -/
def readTarget (src : VertexId) : Reader Bool := do
  if ← eat (.mark .arrow) then
    let dst ← intern (← readName)
    modify fun r => { r with graph := r.graph.addEdge src dst }
    return true
  else
    return false

/-- The attributes of a statement, if it has any. Of several labels in one list the last one
holds, and those of an edge do not count. -/
def readLabel (src : VertexId) (isEdge : Bool) : Reader Unit := do
  if (← peek) = .mark .leftBracket then
    let attributes ← readAttributes
    unless isEdge do
      if let some label := attributes.lookup Keyword.label.word then
        modify fun r => { r with graph := r.graph.setLabel src label }

/-- A statement about one vertex, or about an edge from one vertex to another. -/
def readVertices : Reader Unit := do
  let src ← intern (← readName)
  let isEdge ← readTarget src
  readLabel src isEdge

/-- A reserved word that names a setting always starts a setting; anything else is read as a
statement about vertices. -/
def readStatement : Reader Unit := do
  match ← peek with
  | .keyword k => if k.isDirective then readDirective else readVertices
  | _ => readVertices

/-- One round of the statement list. It ends at its closing brace, and without one at the end of
input, where the brace is missed. -/
def statementRound (_ : Unit) : Reader (Round Unit Unit) := do
  modify fun r => { r with effort.statements := r.effort.statements + 1 }
  if ← eat (.mark .rightBrace) then
    return .leave ()
  if (← peek) = .eof then
    reportExpected (Token.mark .rightBrace).describe
    return .leave ()
  readStatement
  expect (.mark .semicolon)
  return .again ()

/-! ## The whole -/

/-- What a document starts with, up to its opening brace. -/
def readHeader : Reader Unit := do
  expect (.keyword .digraph)
  let name ← readName
  modify fun r => { r with name := some name }
  expect (.mark .leftBrace)

/-- A whole document. -/
def readDocument : Reader Unit := do
  readHeader
  loop statementRound ()
  expect .eof

end Reader

/-- What was read of a document. -/
structure Document where
  /-- The name after `digraph`, unless the reading halted before it. -/
  name : Option String
  graph : Graph
  diagnostics : List Diagnostic
  /-- Why the reading stopped early, if it did. -/
  stopped : Option Stop
  effort : Effort
deriving DecidableEq, Repr

/-- How a document is read. -/
structure Options where
  keywords : KeywordSet := .extended
  mode : Mode := .recover
deriving DecidableEq, Repr

namespace Document

/-- Whether anything went wrong. -/
def hadError (d : Document) : Bool := !d.diagnostics.isEmpty

/-- Reads a token stream, whatever it holds. -/
def ofTokens (mode : Mode) (tokens : TokenStream) : Document :=
  match Reader.readDocument { mode := mode, rest := tokens } with
  | .ok _ r => ⟨r.name, r.graph, r.diagnostics.toList, none, r.effort⟩
  | .error stop r => ⟨r.name, r.graph, r.diagnostics.toList, some stop, r.effort⟩

/-- How much of a text is shown where it could not be read. -/
def shownLength : Nat := 40

/-- The beginning of the first line of a text. -/
def shownText (text : String) : String :=
  String.ofList (((Text.lineChars text.toList).headD []).take shownLength)

/-- The diagnostic for a token that stands for text no rule covers. -/
def lexDiagnostic? (t : Located) : Option Diagnostic :=
  match t.token with
  | .unrecognized text => some ⟨.lex, t.line, "unrecognized input: " ++ shownText text⟩
  | _ => none

/-- Reads source text. Text that cannot be read as tokens is reported first, in addition to
what the reading makes of it. -/
def ofText (options : Options) (source : String) : Document :=
  let tokens := TokenStream.ofText options.keywords source
  let d := ofTokens options.mode tokens
  { d with diagnostics := tokens.filterMap lexDiagnostic? ++ d.diagnostics }

end Document

end GraphMarkup.Dot
