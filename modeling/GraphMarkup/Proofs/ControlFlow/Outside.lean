import GraphMarkup.Proofs.ControlFlow.Segments

/-!
# Instructions outside of blocks

A block is open from the first header or label on: both open one, and what closes a function, the
next header, opens the entry block of another. So a branch or the end of a block is out of place
just if it stands in front of the first header and the first label, and `reported_outside` says that
the diagnostics of an extraction are these lines, in order. To an instruction that is out of place
nothing else happens: without it, the same functions are handed over.
-/

namespace GraphMarkup.ControlFlow

/-- The line opens a block. -/
def opens (line : String) : Bool := (header? line).isSome || (label? line).isSome

/-- The instruction on a line that is a branch or the end of a block. -/
def instruction? (line : String) : Option Terminator :=
  match Line.ofText? line with
  | some (.branch t) => some t
  | some (.terminator t) => some t
  | _ => none

/-- The lines in front of the first one that opens a block. -/
def outside (lines : List String) : List String := lines.takeWhile fun line => !opens line

/-- How an instruction is reported that stands in no block. -/
def misplaced (t : Terminator) : String := "'" ++ t.word ++ "' outside of a basic block"

/-- The report on a line with a given number, if there is an instruction on it. -/
def remark? (n : UInt32) (line : String) : Option Diagnostic :=
  (instruction? line).map fun t => ⟨.extract, n, misplaced t⟩

/-- The reports on some lines, the first of which has the number `n`. -/
def remarks (n : Nat) (lines : List String) : List Diagnostic :=
  (lines.zipIdx n).filterMap fun (line, n) => remark? (UInt32.ofNat n) line

theorem remarks_cons (n : Nat) (line : String) (more : List String) :
    remarks n (line :: more) = (remark? (UInt32.ofNat n) line).toList ++ remarks (n + 1) more := by
  simp only [remarks, List.zipIdx_cons, List.filterMap_cons]
  cases remark? (UInt32.ofNat n) line <;> rfl

section Line

variable {line : String}

theorem instruction?_of_opens (h : opens line) : instruction? line = none := by
  unfold opens header? label? at h
  unfold instruction?
  cases hSaid : Line.ofText? line with
  | none => rfl
  | some said => cases said <;> simp_all

theorem header?_of_not_opens (h : ¬ opens line) : header? line = none := by
  rw [opens, Bool.or_eq_true, not_or, Option.not_isSome_iff_eq_none] at h
  exact h.1

end Line

namespace Extraction

variable (x : Extraction) (line : String)

/-! ## One line -/

theorem line_feed : (x.feed line).1.line = x.line + 1 := by
  cases hSaid : Line.ofText? line with
  | none => rw [feed_of_none hSaid]
  | some said =>
    rw [feed_of_some hSaid]
    cases said with
    | define | block => rfl
    | branch | terminator => cases x.block <;> rfl

/-- A block is open once a line has opened one. -/
theorem isSome_block_feed : (x.feed line).1.block.isSome = (x.block.isSome || opens line) := by
  unfold opens header? label?
  cases hSaid : Line.ofText? line with
  | none =>
    rw [feed_of_none hSaid]
    simp
  | some said =>
    rw [feed_of_some hSaid]
    cases said with
    | define | block => simp [take, openFunction, openBlock]
    | branch | terminator => cases x.block <;> simp [take, markBlock, link, report]

/-- The diagnostics grow by an instruction outside of a block and by nothing else. -/
theorem diagnostics_feed :
    (x.feed line).1.diagnostics.toList = x.diagnostics.toList ++
      if x.block.isSome then [] else (remark? (x.line + 1) line).toList := by
  unfold remark? instruction?
  cases hSaid : Line.ofText? line with
  | none =>
    rw [feed_of_none hSaid]
    simp
  | some said =>
    rw [feed_of_some hSaid]
    cases said with
    | define | block => simp [take, openFunction, openBlock]
    | branch | terminator => cases x.block <;> simp [take, markBlock, link, report, misplaced]

/-! ## A run -/

theorem add_one_add_ofNat (n : UInt32) (k : Nat) :
    n + 1 + UInt32.ofNat k = n + UInt32.ofNat (k + 1) := by
  rw [Nat.add_comm, UInt32.ofNat_add, UInt32.add_assoc]
  rfl

theorem line_feedAll (lines : List String) :
    (x.feedAll lines).1.line = x.line + UInt32.ofNat lines.length := by
  induction lines generalizing x with
  | nil => exact (UInt32.add_zero _).symm
  | cons line more ih =>
    rw [feedAll_cons, ih, line_feed, add_one_add_ofNat, List.length_cons]

/-- The instructions in front of the first line that opens a block are reported, each with the
number of its line. -/
theorem diagnostics_feedAll {n : Nat} (hLine : x.line = UInt32.ofNat n) (lines : List String) :
    (x.feedAll lines).1.diagnostics.toList = x.diagnostics.toList ++
      if x.block.isSome then [] else remarks (n + 1) (outside lines) := by
  induction lines generalizing x n with
  | nil => simp [feedAll, outside, remarks]
  | cons line more ih =>
    have hNext : x.line + 1 = UInt32.ofNat (n + 1) := by rw [hLine, UInt32.ofNat_add]; rfl
    rw [feedAll_cons, ih _ ((line_feed x line).trans hNext), isSome_block_feed, diagnostics_feed,
      hNext, List.append_assoc]
    congr 1
    cases hBlock : x.block.isSome with
    | true => rfl
    | false =>
      cases hOpens : opens line with
      | true => simp [outside, hOpens, remark?, instruction?_of_opens hOpens, remarks]
      | false => simp [outside, hOpens, remarks_cons]

end Extraction

/-- Lines in front of the first header are in no segment. -/
theorem segments_append {before : List String} (h : ∀ line ∈ before, header? line = none)
    (after : List String) : segments (before ++ after) = segments after := by
  induction before with
  | nil => rfl
  | cons line more ih =>
    rw [List.forall_mem_cons] at h
    rw [List.cons_append, segments, h.1]
    exact ih h.2

/-- The diagnostics of an extraction are the instructions in front of the first line that opens a
block, each with the number of its line, counted from one. Such an instruction completes no function
and has no part in those that are handed over. -/
theorem reported_outside (lines : List String) (hFew : lines.length < UInt32.size) :
    (({} : Extraction).feedAll lines).1.finish.2.map
          (fun d => (d.stage, d.line.toNat, d.message)) =
        ((outside lines).zipIdx 1).filterMap (fun (line, n) =>
          (instruction? line).map fun t => (.extract, n, misplaced t)) ∧
      ∀ before line after, lines = before ++ line :: after →
        (∀ earlier ∈ before, ¬ opens earlier) → (instruction? line).isSome →
          ((({} : Extraction).feedAll before).1.feed line).2 = none ∧
            ({} : Extraction).handedOver lines =
              ({} : Extraction).handedOver (before ++ after) := by
  constructor
  · have hRun := Extraction.diagnostics_feedAll {} (n := 0) rfl lines
    have hReported :
        (({} : Extraction).feedAll lines).1.finish.2 = remarks 1 (outside lines) := hRun
    rw [hReported, remarks, List.map_filterMap]
    refine List.filterMap_congr fun entry hEntry => ?_
    obtain ⟨-, hUpper, -⟩ := List.mem_zipIdx hEntry
    have hLength : (outside lines).length ≤ lines.length := (List.takeWhile_sublist _).length_le
    have hFits : entry.2 < UInt32.size := by omega
    simp only [remark?, Option.map_map, Function.comp_def, UInt32.toNat_ofNat_of_lt' hFits]
  · rintro before line after rfl hBefore hInstruction
    have hOpens : ¬ opens line := by
      intro hOpens
      rw [instruction?_of_opens hOpens] at hInstruction
      cases hInstruction
    have hHeader := header?_of_not_opens hOpens
    have hNone : ∀ earlier ∈ before, header? earlier = none := fun earlier hEarlier =>
      header?_of_not_opens (hBefore earlier hEarlier)
    refine ⟨(Extraction.feed_of_no_header hHeader _).1, ?_⟩
    rw [Extraction.handedOver_of_closed rfl, Extraction.handedOver_of_closed rfl,
      segments_append hNone, segments_append hNone, segments, hHeader]

/-- A listing with a branch and a return before anything is open, and a return in a block outside of
any function. -/
def strayLines : List String :=
  ["  br label %x", "; note", "  ret void", "stray:", "  ret void", "define void @f() \x7b",
    "  unreachable"]

theorem reported_outside_stray :
    strayLines.length < UInt32.size ∧
      (∀ earlier ∈ strayLines.take 2, ¬ opens earlier) ∧ (instruction? "  ret void").isSome ∧
        (({} : Extraction).feedAll strayLines).1.finish.2.map
            (fun d => (d.stage, d.line.toNat, d.message)) =
          [(.extract, 1, "'br' outside of a basic block"),
            (.extract, 3, "'ret' outside of a basic block")] ∧
        ({} : Extraction).handedOver strayLines =
          ({} : Extraction).handedOver (strayLines.take 2 ++ strayLines.drop 3) := by
  have hFew : strayLines.length < UInt32.size := by decide
  have hBefore : ∀ earlier ∈ strayLines.take 2, ¬ opens earlier := by decide +kernel
  have hInstruction : (instruction? "  ret void").isSome := by decide +kernel
  obtain ⟨hReports, hWithout⟩ := reported_outside strayLines hFew
  refine ⟨hFew, hBefore, hInstruction, ?_, ?_⟩
  · rw [hReports]
    decide +kernel
  · exact (hWithout (strayLines.take 2) "  ret void" (strayLines.drop 3) rfl hBefore hInstruction).2

end GraphMarkup.ControlFlow
