import GraphMarkup.Proofs.Dot.Moves
import GraphMarkup.Proofs.Graph.Mentions

/-!
# The grammar of documents

    document  := 'digraph' NAME '{' (statement ';')* '}' EOF
    statement := ('size' | 'rankdir' | 'label') '=' STRING
               | NAME ('->' NAME)? attrs?
    attrs     := '[' (attr (',' attr)*)? ']'
    attr      := NAME '=' NAME

Each rule is a relation between the tokens it derives and what they say; a NAME is a token with a
`Token.name?`. A statement that starts with a reserved word for a setting is a directive and
nothing else. What the statements of a document make of a graph is said by `Statement.apply`.
-/

namespace GraphMarkup

/-- The graph with a vertex relabelled, if there is a label. -/
def Graph.relabel (g : Graph) (id : VertexId) : Option String → Graph
  | some label => g.setLabel id label
  | none => g

end GraphMarkup

namespace GraphMarkup.Dot

/-- What a statement says. -/
inductive Statement where
  | directive (k : Keyword) (text : String)
  | vertex (name : String) (attributes : Attributes)
  | edge (src dst : String) (attributes : Attributes)
deriving DecidableEq, Repr

namespace Grammar

inductive Attribute : List Token → String × String → Prop
  | mk {n v : Token} {name value : String} (hName : n.name? = some name)
      (hValue : v.name? = some value) : Attribute [n, .mark .equals, v] (name, value)

/-- Attributes that follow another one. -/
inductive MoreAttributes : List Token → Attributes → Prop
  | none : MoreAttributes [] []
  | comma {ts us : List Token} {a : String × String} {later : Attributes}
      (hAttribute : Attribute ts a) (hLater : MoreAttributes us later) :
      MoreAttributes (.mark .comma :: (ts ++ us)) (a :: later)

/-- What stands between brackets. -/
inductive AttributeList : List Token → Attributes → Prop
  | none : AttributeList [] []
  | some {ts us : List Token} {a : String × String} {later : Attributes}
      (hAttribute : Attribute ts a) (hLater : MoreAttributes us later) :
      AttributeList (ts ++ us) (a :: later)

/-- The attributes of a statement, with their brackets, or nothing. -/
inductive OptionalAttributes : List Token → Attributes → Prop
  | absent : OptionalAttributes [] []
  | bracketed {ts : List Token} {attributes : Attributes} (h : AttributeList ts attributes) :
      OptionalAttributes (.mark .leftBracket :: (ts ++ [.mark .rightBracket])) attributes

/-- Whether a token is a reserved word for a setting of the graph. -/
def startsDirective : Token → Bool
  | .keyword k => k.isDirective
  | _ => false

inductive IsStatement : List Token → Statement → Prop
  | directive {k : Keyword} {text : String} (hKeyword : k.isDirective) :
      IsStatement [.keyword k, .mark .equals, .str text] (.directive k text)
  | vertex {t : Token} {us : List Token} {name : String} {attributes : Attributes}
      (hFirst : ¬ startsDirective t) (hName : t.name? = some name)
      (hAttributes : OptionalAttributes us attributes) :
      IsStatement (t :: us) (.vertex name attributes)
  | edge {t u : Token} {us : List Token} {src dst : String} {attributes : Attributes}
      (hFirst : ¬ startsDirective t) (hSrc : t.name? = some src) (hDst : u.name? = some dst)
      (hAttributes : OptionalAttributes us attributes) :
      IsStatement (t :: .mark .arrow :: u :: us) (.edge src dst attributes)

inductive IsStatements : List Token → List Statement → Prop
  | nil : IsStatements [] []
  | cons {ts us : List Token} {s : Statement} {later : List Statement} (hFirst : IsStatement ts s)
      (hLater : IsStatements us later) :
      IsStatements (ts ++ .mark .semicolon :: us) (s :: later)

inductive IsDocument : List Token → String → List Statement → Prop
  | mk {t : Token} {ts : List Token} {name : String} {ss : List Statement}
      (hName : t.name? = some name) (hStatements : IsStatements ts ss) :
      IsDocument (.keyword .digraph :: t :: .mark .leftBrace ::
        (ts ++ [.mark .rightBrace, .eof])) name ss

end Grammar

/-! ## What statements do -/

/-- What a statement makes of a graph: a directive nothing, a vertex statement its vertex with the
last label of its own list, an edge statement its two ends in order and one edge between them. -/
def Statement.apply (g : Graph) : Statement → Graph
  | .directive _ _ => g
  | .vertex name attributes =>
    (g.intern name).2.relabel (g.intern name).1 (lastSaid? attributes Keyword.label.word)
  | .edge src dst _ =>
    ((g.intern src).2.intern dst).2.addEdge (g.intern src).1 ((g.intern src).2.intern dst).1

/-- What the statements of a document make, in order, of the empty graph. -/
def graphOf (ss : List Statement) : Graph := ss.foldl Statement.apply .empty

end GraphMarkup.Dot
