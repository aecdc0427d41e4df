/-!
# Diagnostics

A diagnostic records something wrong with an input text: which stage of reading it met the
trouble, on which line, and in what words. Diagnostics never stop the reading by themselves.
-/

namespace GraphMarkup

/-- Which part of the reading a diagnostic comes from. -/
inductive Stage where
  | lex
  | parse
  | extract
deriving DecidableEq, Repr, Inhabited

/-- The word for a stage. -/
def Stage.word : Stage → String
  | .lex => "lex"
  | .parse => "parse"
  | .extract => "extract"

/-- The stage that a word stands for. -/
def Stage.ofWord? : String → Option Stage
  | "lex" => some .lex
  | "parse" => some .parse
  | "extract" => some .extract
  | _ => none

@[simp] theorem Stage.ofWord?_word (s : Stage) : Stage.ofWord? s.word = some s := by
  cases s <;> rfl

/-- A remark on an input text. Lines are counted from one. -/
structure Diagnostic where
  stage : Stage
  line : UInt32
  message : String
deriving DecidableEq, Repr, Inhabited

/-- A diagnostic in one line of text. -/
def Diagnostic.display (d : Diagnostic) : String :=
  d.stage.word ++ " error: line " ++ toString d.line.toNat ++ ": " ++ d.message

end GraphMarkup
