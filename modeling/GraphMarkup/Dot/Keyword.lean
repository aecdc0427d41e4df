/-!
# Reserved words

Four words of the dot language may be reserved. A document always starts with `digraph`, so that
word is reserved in every run; which of the others are is a choice, made by a `KeywordSet`.
The three others name settings of the whole graph, which a reader accepts and passes over.
-/

namespace GraphMarkup.Dot

/-- A word that may be reserved. -/
inductive Keyword where
  | digraph
  | size
  | rankdir
  | label
deriving DecidableEq, Repr, Inhabited

namespace Keyword

/-- All of them, in their fixed order. -/
def all : List Keyword := [.digraph, .size, .rankdir, .label]

/-- How a keyword is spelled. -/
def word : Keyword → String
  | .digraph => "digraph"
  | .size => "size"
  | .rankdir => "rankdir"
  | .label => "label"

/-- The keyword spelled so, reserved or not. -/
def ofWord? (text : String) : Option Keyword := all.find? (·.word == text)

/-- Whether a keyword names a setting of the graph. -/
def isDirective (k : Keyword) : Bool := k != .digraph

@[simp] theorem ofWord?_word (k : Keyword) : ofWord? k.word = some k := by
  cases k <;> decide

theorem word_of_ofWord? {text : String} {k : Keyword} (h : ofWord? text = some k) :
    k.word = text := by
  simpa using List.find?_some h

theorem ofWord?_eq_some {text : String} {k : Keyword} : ofWord? text = some k ↔ text = k.word :=
  ⟨fun h => (word_of_ofWord? h).symm, fun h => h ▸ ofWord?_word k⟩

end Keyword

/-- The words reserved besides `digraph`, each once, in the order in which they were asked for.
Two sets are equal only if they were asked for in the same order. -/
structure KeywordSet where
  optional : List Keyword
deriving DecidableEq, Repr, Inhabited

namespace KeywordSet

/-- Adds a word to those chosen, unless it is reserved already. -/
def choose (chosen : List Keyword) (k : Keyword) : List Keyword :=
  if k = .digraph ∨ k ∈ chosen then chosen else chosen ++ [k]

/-- The set that reserves `digraph` and the words given. -/
def ofList (ks : List Keyword) : KeywordSet :=
  ⟨ks.foldl choose []⟩

/-- Reserves `digraph` and `size`. -/
def minimal : KeywordSet := ofList [.size]

/-- Reserves all four words. -/
def extended : KeywordSet := ofList Keyword.all

/-- Whether a word is reserved. -/
def contains (ks : KeywordSet) (k : Keyword) : Bool := k == .digraph || ks.optional.contains k

/-- The reserved word spelled so. -/
def lookup (ks : KeywordSet) (text : String) : Option Keyword :=
  (Keyword.ofWord? text).filter ks.contains

/-- Looking up finds the words of the set and nothing else. -/
theorem lookup_eq_some {ks : KeywordSet} {text : String} {k : Keyword} :
    ks.lookup text = some k ↔ text = k.word ∧ ks.contains k = true := by
  simp only [lookup, Option.filter_eq_some_iff, Keyword.ofWord?_eq_some]

end KeywordSet

end GraphMarkup.Dot
