import GraphMarkup.Graph

/-!
# Flow graphs of functions

A function of a listing is shown as the graph of its basic blocks. Each block may be marked with
the instruction that ends it; a block that is marked again keeps its place among the marks and
takes the new instruction.
-/

namespace GraphMarkup.ControlFlow

/-- An instruction that ends a basic block. -/
inductive Terminator where
  | br
  | invoke
  | ret
  | unreachable
deriving DecidableEq, Repr, Inhabited

/-- How an instruction is spelled. -/
def Terminator.word : Terminator → String
  | .br => "br"
  | .invoke => "invoke"
  | .ret => "ret"
  | .unreachable => "unreachable"

/-- The instruction spelled so. -/
def Terminator.ofWord? : String → Option Terminator
  | "br" => some .br
  | "invoke" => some .invoke
  | "ret" => some .ret
  | "unreachable" => some .unreachable
  | _ => none

@[simp] theorem Terminator.ofWord?_word (t : Terminator) : Terminator.ofWord? t.word = some t := by
  cases t <;> rfl

/-- The instructions that end blocks, by block name, in the order in which the blocks were first
marked. -/
abbrev BlockEnds := List (String × Terminator)

namespace BlockEnds

/-- The instruction that a block is marked with. -/
def get? (ends : BlockEnds) (block : String) : Option Terminator := ends.lookup block

/-- Marks a block: in its place if it is marked already, and at the end otherwise. -/
def mark (block : String) (t : Terminator) : BlockEnds → BlockEnds
  | [] => [(block, t)]
  | (b, u) :: more => if b = block then (b, t) :: more else (b, u) :: mark block t more

/-- A mark changes the instruction of its block and of no other. -/
theorem get?_mark (block b : String) (t : Terminator) (ends : BlockEnds) :
    (mark block t ends).get? b = if b = block then some t else ends.get? b := by
  unfold get?
  induction ends with
  | nil =>
    by_cases hEq : b = block
    · simp [mark, hEq]
    · simp [mark, hEq, List.lookup_cons, beq_eq_false_iff_ne.2 hEq]
  | cons head more ih =>
    obtain ⟨c, u⟩ := head
    by_cases hHead : c = block
    · subst hHead
      by_cases hEq : b = c
      · simp [mark, hEq]
      · simp [mark, hEq, List.lookup_cons, beq_eq_false_iff_ne.2 hEq]
    · by_cases hEq : b = c
      · subst hEq
        simp [mark, hHead]
      · simp [mark, hHead, List.lookup_cons, beq_eq_false_iff_ne.2 hEq, ih]

/-- A block that is marked for the first time joins at the end of the names; a marked one leaves
them as they are. -/
theorem names_mark (block : String) (t : Terminator) (ends : BlockEnds) :
    (mark block t ends).map (·.1)
      = if block ∈ ends.map (·.1) then ends.map (·.1) else ends.map (·.1) ++ [block] := by
  induction ends with
  | nil => rfl
  | cons head more ih =>
    obtain ⟨c, u⟩ := head
    by_cases hHead : c = block
    · simp [mark, hHead]
    · have hNe : ¬ block = c := fun h => hHead h.symm
      simp only [mark, if_neg hHead, List.map_cons, ih, List.mem_cons, hNe, false_or]
      split <;> rfl

end BlockEnds

/-- The basic blocks of a function, the ways from one to another, and how each ends. -/
structure FlowGraph where
  name : String
  graph : Graph
  ends : BlockEnds
deriving DecidableEq, Repr, Inhabited

/-- The instruction that ends a block, as far as one was seen. -/
def FlowGraph.terminator? (f : FlowGraph) (block : String) : Option Terminator := f.ends.get? block

end GraphMarkup.ControlFlow
