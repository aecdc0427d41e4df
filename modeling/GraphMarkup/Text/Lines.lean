/-!
# Lines of a text

A text is cut into lines at its newlines. One carriage return directly before a newline goes
with it; any other stays in its line. The text after the last newline is a line of its own
unless it is empty, and then its carriage returns all stay.
-/

namespace GraphMarkup.Text

/-- The lines of a list of characters. -/
def lineChars : List Char → List (List Char)
  | [] => []
  | '\n' :: rest => [] :: lineChars rest
  | '\r' :: '\n' :: rest => [] :: lineChars rest
  | c :: rest =>
    match lineChars rest with
    | [] => [[c]]
    | line :: more => (c :: line) :: more

/-- The lines of a text. -/
def lines (text : String) : List String := (lineChars text.toList).map String.ofList

/-- How many newlines there are among the characters. -/
def newlines (cs : List Char) : Nat := cs.count '\n'

@[simp] theorem newlines_append (cs ds : List Char) :
    newlines (cs ++ ds) = newlines cs + newlines ds := by
  simp [newlines]

/-- No line holds a newline. -/
theorem newline_not_mem_of_mem_lineChars {cs line : List Char} (h : line ∈ lineChars cs) :
    '\n' ∉ line := by
  fun_induction lineChars cs generalizing line with
  | case1 => simp at h
  | case2 rest ih => rcases List.mem_cons.1 h with rfl | hRest <;> simp_all
  | case3 rest ih => rcases List.mem_cons.1 h with rfl | hRest <;> simp_all
  | case4 c rest hNewline _ hEmpty ih =>
    obtain rfl := List.mem_singleton.1 h
    simp only [List.mem_singleton]
    exact fun hc => hNewline hc.symm
  | case5 c rest hNewline _ first more hLines ih =>
    rw [hLines] at ih
    rcases List.mem_cons.1 h with rfl | hMore
    · rw [List.mem_cons, not_or]
      exact ⟨fun hc => hNewline hc.symm, ih List.mem_cons_self⟩
    · exact ih (List.mem_cons_of_mem _ hMore)

end GraphMarkup.Text
