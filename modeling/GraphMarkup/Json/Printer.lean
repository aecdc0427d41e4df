import GraphMarkup.Json.Value

/-!
# Writing JSON

A value is written in one of two layouts: compact, without any space, or spread over lines with
two spaces for each level of nesting. Lists and objects without content take two characters in
either layout.
-/

namespace GraphMarkup.Json

/-- A character as it is written inside a string. Only the quote, the backslash and the control
characters below the space are escaped. -/
def escapedChar (c : Char) : List Char :=
  if c = '"' then ['\\', '"']
  else if c = '\\' then ['\\', '\\']
  else if c = '\x08' then ['\\', 'b']
  else if c = '\x0c' then ['\\', 'f']
  else if c = '\n' then ['\\', 'n']
  else if c = '\r' then ['\\', 'r']
  else if c = '\t' then ['\\', 't']
  else if c.toNat < 0x20 then
    ['\\', 'u', '0', '0', Nat.digitChar (c.toNat / 16), Nat.digitChar (c.toNat % 16)]
  else [c]

/-- A text as a string in quotes. -/
def stringText (s : String) : String :=
  String.ofList ('"' :: s.toList.flatMap escapedChar ++ ['"'])

/-! ## On one line -/

mutual

/-- A value without any space. -/
def Value.compact : Value → String
  | .null => "null"
  | .text s => stringText s
  | .number n => toString n
  | .list items => "[" ++ String.intercalate "," (compactItems items) ++ "]"
  | .object fields => "\x7b" ++ String.intercalate "," (compactFields fields) ++ "\x7d"

def compactItems : List Value → List String
  | [] => []
  | v :: more => v.compact :: compactItems more

def compactFields : List (String × Value) → List String
  | [] => []
  | (name, v) :: more => (stringText name ++ ":" ++ v.compact) :: compactFields more

end

/-! ## Over several lines -/

/-- A new line at a level of nesting. -/
def newLine (depth : Nat) : String := "\n" ++ String.ofList (List.replicate (2 * depth) ' ')

/-- Parts on lines of their own between two brackets, one level further in than these. -/
def spread (depth : Nat) (left right : String) (parts : List String) : String :=
  if parts.isEmpty then left ++ right
  else
    left ++ newLine (depth + 1)
      ++ String.intercalate ("," ++ newLine (depth + 1)) parts
      ++ newLine depth ++ right

mutual

/-- A value whose brackets stand at a level of nesting. -/
def Value.prettyAt (depth : Nat) : Value → String
  | .null => "null"
  | .text s => stringText s
  | .number n => toString n
  | .list items => spread depth "[" "]" (prettyItems (depth + 1) items)
  | .object fields => spread depth "\x7b" "\x7d" (prettyFields (depth + 1) fields)

def prettyItems (depth : Nat) : List Value → List String
  | [] => []
  | v :: more => v.prettyAt depth :: prettyItems depth more

def prettyFields (depth : Nat) : List (String × Value) → List String
  | [] => []
  | (name, v) :: more =>
    (stringText name ++ ": " ++ v.prettyAt depth) :: prettyFields depth more

end

/-- A value over several lines. -/
def Value.pretty (v : Value) : String := v.prettyAt 0

end GraphMarkup.Json
