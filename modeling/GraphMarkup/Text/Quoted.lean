import GraphMarkup.Text.Unprintable

/-!
# Quoted text

Text of unknown content is shown between double quotes, with everything that could not be made
out in it written as an escape: the quote and the backslash, the usual control characters by
their letters, and every other character that leaves no mark or only extends another by its
code point. A quoted text therefore always stands on one line.
-/

namespace GraphMarkup.Text

/-- A code point between braces, in lower-case hexadecimal digits without leading zeros. -/
def codePointEscape (c : Char) : List Char :=
  '\\' :: 'u' :: '\x7b' :: Nat.toDigits 16 c.toNat ++ ['\x7d']

/-- A character as it is written inside quotes. -/
def quotedChar (c : Char) : List Char :=
  if c = '\x00' then ['\\', '0']
  else if c = '\t' then ['\\', 't']
  else if c = '\r' then ['\\', 'r']
  else if c = '\n' then ['\\', 'n']
  else if c = '"' then ['\\', '"']
  else if c = '\\' then ['\\', '\\']
  else if isExtending c || isUnprintable c then codePointEscape c
  else [c]

/-- A text between quotes. -/
def quoted (text : String) : String :=
  String.ofList ('"' :: text.toList.flatMap quotedChar ++ ['"'])

end GraphMarkup.Text
