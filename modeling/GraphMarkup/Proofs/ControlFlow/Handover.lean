import GraphMarkup.Proofs.ControlFlow.Segments
import GraphMarkup.Proofs.Text.Lines
import Mathlib.Data.List.ReduceOption

/-!
# What each call hands over

An extraction that is fed line by line hands a function over when the header of the next one comes,
and the last function at the end. `calls` is what each call hands over. Nothing that is handed over
depends on what follows, since a call is made before the next line is there (`calls_append`), and
what a call hands over is the function of the last header in front of its line (`lastFunction?`),
all of whose segment has been taken in by then.

The main result is `handed_over_once`, which also compares the calls with the extraction of the
whole listing.
-/

namespace GraphMarkup.ControlFlow

/-- The function of the last header among some lines. -/
def lastFunction? (lines : List String) : Option FlowGraph :=
  (segments lines).getLast?.map fun s => .ofSegment s.1 s.2

theorem isSome_lastFunction?_iff {lines : List String} :
    (lastFunction? lines).isSome ↔ ∃ line ∈ lines, (header? line).isSome := by
  have hHeaders : segments lines ≠ [] ↔ lines.filterMap header? ≠ [] := by
    rw [← map_segments, ne_eq, ne_eq, List.map_eq_nil_iff]
  rw [lastFunction?, Option.isSome_map, List.getLast?_isSome, hHeaders, ne_eq,
    List.filterMap_eq_nil_iff]
  simp only [not_forall, exists_prop, Option.isSome_iff_ne_none, ne_eq]

namespace Extraction

/-- What is handed over by each of the calls that take in some lines. -/
def calls (x : Extraction) : List String → List (Option FlowGraph)
  | [] => []
  | line :: more => (x.feed line).2 :: (x.feed line).1.calls more

section Calls

variable (x : Extraction)

theorem length_calls (lines : List String) : (x.calls lines).length = lines.length := by
  induction lines generalizing x with
  | nil => rfl
  | cons line more ih => rw [calls, List.length_cons, List.length_cons, ih]

theorem calls_append (before after : List String) :
    x.calls (before ++ after) = x.calls before ++ (x.feedAll before).1.calls after := by
  induction before generalizing x with
  | nil => rfl
  | cons line more ih =>
    rw [List.cons_append, calls, ih]
    rfl

theorem feedAll_snd (lines : List String) : (x.feedAll lines).2 = (x.calls lines).reduceOption := by
  induction lines generalizing x with
  | nil => rfl
  | cons line more ih =>
    rw [feedAll_cons, ih, calls]
    cases (x.feed line).2 <;> rfl

/-- A call hands over the open function just if its line is a header. -/
theorem feed_snd (line : String) :
    (x.feed line).2 = if (header? line).isSome then x.completed? else none := by
  cases hHeader : header? line with
  | none => exact (feed_of_no_header hHeader x).1
  | some name => exact (feed_header hHeader x).1

/-- A header opens a function, and no line closes one without opening the next. -/
theorem isSome_function_feedAll (lines : List String) :
    (x.feedAll lines).1.function.isSome =
      (x.function.isSome || lines.any fun line => (header? line).isSome) := by
  induction lines generalizing x with
  | nil => simp [feedAll]
  | cons line more ih =>
    rw [feedAll_cons, ih, List.any_cons]
    cases hHeader : header? line with
    | none => rw [(feed_of_no_header hHeader x).2]; rfl
    | some name => rw [(feed_header hHeader x).2.function]; simp

end Calls

theorem completed?_eq_none_iff {x : Extraction} : x.completed? = none ↔ x.function = none :=
  Option.map_eq_none_iff

/-- The open function is the one of the last header, as far as its lines have been taken in. -/
theorem completed?_feedAll (lines : List String) :
    (({} : Extraction).feedAll lines).1.completed? = lastFunction? lines := by
  cases hOpen : (({} : Extraction).feedAll lines).1.completed? with
  | none =>
    have hFunction := isSome_function_feedAll {} lines
    rw [completed?_eq_none_iff.1 hOpen, Option.isSome_none, Bool.false_or, eq_comm,
      List.any_eq_false] at hFunction
    refine (Option.not_isSome_iff_eq_none.1 fun hLast => ?_).symm
    obtain ⟨line, hLine, hHeader⟩ := isSome_lastFunction?_iff.1 hLast
    exact hFunction line hLine hHeader
  | some f =>
    have hAll := handedOver_of_closed (x := {}) rfl lines
    rw [handedOver, hOpen] at hAll
    rw [lastFunction?, ← List.getLast?_map, ← hAll]
    exact List.getLast?_concat.symm

end Extraction

/-- A listing holds what the calls for its lines hand over, and what is left at the end. -/
theorem extract_eq (source : String) :
    extract source =
      ⟨(({} : Extraction).calls (Text.lines source)).reduceOption ++
          (({} : Extraction).feedAll (Text.lines source)).1.finish.1.toList,
        (({} : Extraction).feedAll (Text.lines source)).1.finish.2⟩ := by
  rw [← Extraction.feedAll_snd]
  rfl

/-- Lines without line breaks are the lines of the listing that they are joined to. -/
theorem lines_intercalate {lines : List String} (hSome : lines ≠ [])
    (h : ∀ line ∈ lines, '\n' ∉ line.toList ∧ line.toList.getLast? ≠ some '\r') :
    Text.lines ("\n".intercalate lines ++ "\n") = lines := by
  rw [Text.intercalate_newline hSome, Text.lines_ended fun line hLine => (h line hLine).1]
  have hSame : ∀ line ∈ lines, String.ofList (Text.withoutReturn line.toList) = id line := by
    intro line hLine
    rw [Text.withoutReturn_eq_self (h line hLine).2, String.ofList_toList, id]
  rw [List.map_congr_left hSame, List.map_id]

/-- A call hands over a function if its line is a header and an earlier one was: the function of
that header. The last function is handed over at the end. Nothing that has been handed over depends
on the lines to come, and all of it is what the listing with these lines holds. -/
theorem handed_over_once :
    (∀ before line after,
      (({} : Extraction).calls (before ++ line :: after))[before.length]? =
        some (if (header? line).isSome then lastFunction? before else none)) ∧
      (∀ lines, (({} : Extraction).feedAll lines).1.finish.1 = lastFunction? lines) ∧
      (∀ lines, (lastFunction? lines).isSome ↔ ∃ line ∈ lines, (header? line).isSome) ∧
      (∀ before after, (({} : Extraction).calls (before ++ after)).take before.length =
        ({} : Extraction).calls before) ∧
      ∀ lines : List String,
        (∀ line ∈ lines, '\n' ∉ line.toList ∧ line.toList.getLast? ≠ some '\r') →
          extract ("\n".intercalate lines ++ "\n") =
            ⟨(({} : Extraction).calls lines).reduceOption ++
                (({} : Extraction).feedAll lines).1.finish.1.toList,
              (({} : Extraction).feedAll lines).1.finish.2⟩ := by
  refine ⟨fun before line after => ?_, Extraction.completed?_feedAll,
    fun lines => isSome_lastFunction?_iff, fun before after => ?_, fun lines hLines => ?_⟩
  · rw [Extraction.calls_append, List.getElem?_append_right (Extraction.length_calls _ _).le,
      Extraction.length_calls, Nat.sub_self, Extraction.calls, List.getElem?_cons_zero,
      Extraction.feed_snd, Extraction.completed?_feedAll]
  · rw [Extraction.calls_append, ← Extraction.length_calls {} before, List.take_left]
  · by_cases hSome : lines = []
    · subst hSome
      decide +kernel
    · rw [extract_eq, lines_intercalate hSome hLines]

/-- Two headers in a row, with stray lines in front of them. -/
def headerLines : List String :=
  ["entry:", "  ret void", "define void @f() \x7b", "define void @g() \x7b", "  ret void"]

theorem handed_over_once_headers :
    (∀ line ∈ headerLines, '\n' ∉ line.toList ∧ line.toList.getLast? ≠ some '\r') ∧
      extract ("\n".intercalate headerLines ++ "\n") =
        ⟨[⟨"f", {}, []⟩, ⟨"g", ⟨[⟨"0", "0"⟩], []⟩, [("0", .ret)]⟩], []⟩ := by
  have hLines : ∀ line ∈ headerLines, '\n' ∉ line.toList ∧ line.toList.getLast? ≠ some '\r' := by
    decide
  refine ⟨hLines, ?_⟩
  rw [handed_over_once.2.2.2.2 headerLines hLines]
  decide +kernel

end GraphMarkup.ControlFlow
