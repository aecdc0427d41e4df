/-!
# Values of the JSON format

The values that this library writes: no number other than a natural one ever occurs, and no
truth value. The fields of an object that is built by `Value.ofFields` stand in ascending order
of their names, each name once; of two fields with one name the later one holds.
-/

namespace GraphMarkup.Json

/-- A value to be written. -/
inductive Value where
  | null
  | text (s : String)
  | number (n : Nat)
  | list (items : List Value)
  | object (fields : List (String × Value))
deriving Repr, Inhabited

/-- Fields with their names, in the order in which they are written. -/
abbrev Fields := List (String × Value)

namespace Fields

/-- Puts a field where its name belongs, in place of one with the same name. -/
def insert (name : String) (v : Value) : Fields → Fields
  | [] => [(name, v)]
  | (k, w) :: more =>
    if name = k then (name, v) :: more
    else if name < k then (name, v) :: (k, w) :: more
    else (k, w) :: insert name v more

/-- Puts fields in order. -/
def sorted (fs : Fields) : Fields := fs.foldl (fun acc (name, v) => acc.insert name v) []

/-- The value of a field. -/
def get? (fs : Fields) (name : String) : Option Value := fs.lookup name

/-- A field can be read back, and no other is changed. -/
theorem get?_insert (name k : String) (v : Value) (fs : Fields) :
    (insert name v fs).get? k = if k = name then some v else fs.get? k := by
  unfold get?
  induction fs with
  | nil =>
    by_cases hEq : k = name
    · simp [insert, hEq]
    · simp [insert, hEq, List.lookup_cons, beq_eq_false_iff_ne.2 hEq]
  | cons head more ih =>
    obtain ⟨c, w⟩ := head
    by_cases hHead : name = c
    · subst hHead
      by_cases hEq : k = name
      · simp [insert, hEq]
      · simp [insert, hEq, List.lookup_cons, beq_eq_false_iff_ne.2 hEq]
    · by_cases hLt : name < c
      · by_cases hEq : k = name
        · subst hEq
          simp [insert, hHead, hLt]
        · simp [insert, hHead, hLt, hEq, List.lookup_cons, beq_eq_false_iff_ne.2 hEq]
      · by_cases hEq : k = c
        · subst hEq
          have hNe : ¬ k = name := fun h => hHead h.symm
          simp [insert, hHead, hLt, hNe]
        · simp [insert, hHead, hLt, List.lookup_cons, beq_eq_false_iff_ne.2 hEq, ih]

end Fields

/-- The object with some fields, put in order. -/
def Value.ofFields (fs : Fields) : Value := .object fs.sorted

/-- A text, or null for none. -/
def Value.ofText? : Option String → Value
  | some s => .text s
  | none => .null

end GraphMarkup.Json
