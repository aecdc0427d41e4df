import GraphMarkup.Dot.Piece
import GraphMarkup.Text.Lines

/-!
# Token streams

A source text becomes a stream of located tokens: its pieces with blanks and comments dropped,
names told from reserved words, and lines counted. What no rule covers becomes one last token,
and the stream always ends with the end of input.
-/

namespace GraphMarkup.Dot

/-- Tokens in the order of their source. -/
abbrev TokenStream := List Located

/-- The token that a piece stands for; blanks and comments stand for none. -/
def Piece.token? (ks : KeywordSet) : Piece → Option Token
  | .word text =>
    match ks.lookup (String.ofList text) with
    | some k => some (.keyword k)
    | none => some (.ident (String.ofList text))
  | .string body => some (.str (String.ofList body))
  | .mark m => some (.mark m)
  | .blank _ => none
  | .comment _ => none

/-- The line after a piece that starts on `line`. Lines are counted in thirty-two bits. -/
def Piece.lineAfter (line : UInt32) (p : Piece) : UInt32 :=
  line + UInt32.ofNat (Text.newlines p.text)

/-- The tokens of pieces that start on `line`, and the line on which they end. -/
def locate (ks : KeywordSet) : UInt32 → List Piece → TokenStream × UInt32
  | line, [] => ([], line)
  | line, p :: ps =>
    let later := locate ks (p.lineAfter line) ps
    match p.token? ks with
    | some t => (⟨t, line⟩ :: later.1, later.2)
    | none => later

/-- How a stream of tokens ends on `line`: with the text that is left over, if any, as one
token, and the end of input after it. -/
def ending (line : UInt32) (left : List Char) : TokenStream :=
  if left.isEmpty then [⟨.eof, line⟩]
  else [⟨.unrecognized (String.ofList left), line⟩, ⟨.eof, line⟩]

/-- The tokens of a source text. -/
def TokenStream.ofText (ks : KeywordSet) (source : String) : TokenStream :=
  let (ps, left) := pieces source.toList
  let (tokens, line) := locate ks 1 ps
  tokens ++ ending line left

end GraphMarkup.Dot
