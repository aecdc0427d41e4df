import GraphMarkup.Dot.Keyword
import GraphMarkup.Text.Quoted

/-!
# Tokens of the dot language

A token is a name, a string, a reserved word, one of eight marks, the text that no rule accepts,
or the end of the input. It is shown in two ways: `Token.describe` is how a diagnostic speaks of
it, where the text of names and strings does not matter, and `Token.display` is how a listing of
tokens shows it.
-/

namespace GraphMarkup.Dot

/-- A mark made of one or two fixed characters. -/
inductive Mark where
  | arrow
  | leftBracket
  | rightBracket
  | leftBrace
  | rightBrace
  | semicolon
  | equals
  | comma
deriving DecidableEq, Repr, Inhabited

/-- How a mark is written. -/
def Mark.text : Mark → String
  | .arrow => "->"
  | .leftBracket => "["
  | .rightBracket => "]"
  | .leftBrace => "\x7b"
  | .rightBrace => "\x7d"
  | .semicolon => ";"
  | .equals => "="
  | .comma => ","

/-- The mark written with one character. -/
def Mark.ofChar? : Char → Option Mark
  | '[' => some .leftBracket
  | ']' => some .rightBracket
  | '\x7b' => some .leftBrace
  | '\x7d' => some .rightBrace
  | ';' => some .semicolon
  | '=' => some .equals
  | ',' => some .comma
  | _ => none

/-- What the reader of a document sees of its text. -/
inductive Token where
  /-- A bare word that is not reserved. -/
  | ident (text : String)
  /-- A string, without its quotes. -/
  | str (text : String)
  | keyword (k : Keyword)
  | mark (m : Mark)
  /-- All the text from the first place where no rule applies. -/
  | unrecognized (text : String)
  | eof
deriving DecidableEq, Repr, Inhabited

/-- A token and the line on which it starts. -/
structure Located where
  token : Token
  line : UInt32
deriving DecidableEq, Repr, Inhabited

namespace Token

/-- How a diagnostic speaks of a token. -/
def describe : Token → String
  | .ident _ => "identifier"
  | .str _ => "string"
  | .keyword k => "'" ++ k.word ++ "'"
  | .mark m => "'" ++ m.text ++ "'"
  | .unrecognized _ => "unrecognized input"
  | .eof => "end of input"

/-- How a listing shows a token. Only text that no rule accepts is quoted with escapes. -/
def display : Token → String
  | .ident text => "Ident(" ++ text ++ ")"
  | .str text => "Str(\"" ++ text ++ "\")"
  | .keyword k => "Keyword(" ++ k.word ++ ")"
  | .mark m => m.text
  | .unrecognized text => "Error(" ++ Text.quoted text ++ ")"
  | .eof => "Eof"

end Token

/-- A located token as one entry of a listing. -/
def Located.display (t : Located) : String := toString t.line.toNat ++ ": " ++ t.token.display

end GraphMarkup.Dot
