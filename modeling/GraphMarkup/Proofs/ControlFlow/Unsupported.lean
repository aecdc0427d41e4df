import GraphMarkup.Proofs.ControlFlow.Outside
import GraphMarkup.Proofs.ControlFlow.Patterns
import GraphMarkup.Proofs.Graph.Places
import GraphMarkup.Proofs.Text.Lines

/-!
# Constructs that are not supported

An indented `switch` or `indirectbr` fits none of the patterns, so lines with such an instruction
can be put anywhere between the lines of a listing: nothing changes but the numbers of the lines
behind them. A label that is a number does fit: its digits are a name like any other, and it opens a
block. So a listing with numbered blocks is not the same without them (`not_inert_numbered`).

`inserted_inert_iff` is what holds of the three constructs: an insertion is inert, whatever follows,
exactly if the labels in it tell the extraction nothing (`Known`). For that direction it is enough
that the extraction with the insertion cannot be told from the one without it (`Alike`); for the
other, a few ends of the listing show the difference: nothing, a `ret` and an `unreachable`.
-/

namespace GraphMarkup

/-- A diagnostic that many lines further on. -/
def Diagnostic.movedBy (n : UInt32) (d : Diagnostic) : Diagnostic := { d with line := d.line + n }

/-- A graph with vertices made for some names, where there are none yet. -/
def Graph.internAll (g : Graph) (names : List String) : Graph :=
  names.foldl (fun g name => (g.intern name).2) g

namespace ControlFlow

/-- A label that is a number: some digits, a colon and any text. -/
def IsNumbered (digits line : List Char) : Prop :=
  digits ≠ [] ∧ (∀ c ∈ digits, c.isDigit) ∧ ∃ after, line = digits ++ ':' :: after

/-- Blanks, a word, a space and any text. -/
def IsInstruction (word : String) (line : List Char) : Prop :=
  ∃ blanks after, blanks ≠ [] ∧ (∀ c ∈ blanks, Text.isBlank c) ∧
    line = blanks ++ (word.toList ++ ' ' :: after)

/-- A label that is a number, a `switch` or an `indirectbr`. -/
def Unsupported (line : List Char) : Prop :=
  (∃ digits, IsNumbered digits line) ∨ IsInstruction "switch" line ∨ IsInstruction "indirectbr" line

/-- The extraction of a listing when a beginning of it has been taken in. -/
def Extraction.upTo (before : String) : Extraction :=
  (({} : Extraction).feedAll (Text.lines before)).1

/-- Lines that are inserted between two parts of a listing change nothing but the numbers of the
lines behind them. -/
def Inert (before : String) (inserted : List String) (after : String) : Prop :=
  (extract (before ++ Text.ended inserted ++ after)).functions =
      (extract (before ++ after)).functions ∧
    ∃ late : List Diagnostic,
      (extract (before ++ after)).diagnostics = (extract before).diagnostics ++ late ∧
        (extract (before ++ Text.ended inserted ++ after)).diagnostics =
          (extract before).diagnostics ++
            late.map (Diagnostic.movedBy (UInt32.ofNat inserted.length))

/-- Labels that tell an extraction nothing. A block is open; and inside a function the last of the
labels is the one of that block, and none is new. -/
def Extraction.Known (x : Extraction) (labels : List String) : Prop :=
  labels = [] ∨ x.block.isSome ∧
    (x.function = none ∨ x.block = labels.getLast? ∧ ∀ name ∈ labels, name ∈ x.graph.names)

/-! ## Lines of the three forms -/

theorem Flush.eq_none {p : Pattern} {line rest : List Char} (hp : Flush p)
    (hIndented : indented? line = some rest) : p line = none := by
  refine Option.not_isSome_iff_eq_none.1 fun hFits => ?_
  obtain ⟨c, behind, rfl, hBlank⟩ := hp line hFits
  rw [indented?_of_not_isBlank hBlank] at hIndented
  cases hIndented

theorem Indented.eq_none {p : Pattern} {leads line rest : List Char} {c : Char}
    (hp : Indented leads p) (hIndented : indented? line = some (c :: rest)) (hLead : c ∉ leads) :
    p line = none := by
  refine Option.not_isSome_iff_eq_none.1 fun hFits => ?_
  obtain ⟨d, hd, behind, hBehind⟩ := hp line hFits
  rw [hIndented, Option.some.injEq] at hBehind
  exact hLead ((List.cons.inj hBehind).1 ▸ hd)

/-- An indented line says nothing if its first word is neither a branch nor starts like one of the
other forms. -/
theorem ofText?_of_indented {line : String} {c : Char} {rest : List Char}
    (hIndented : indented? line.toList = some (c :: rest)) (hBranch : branch? line.toList = none)
    (hLead : c ∉ ['t', 'r', 'u']) : Line.ofText? line = none := by
  simp only [List.mem_cons, not_or] at hLead
  rw [ofText?_eq_none_iff]
  simp only [patterns, List.forall_mem_cons]
  exact ⟨flush_define?.eq_none hIndented, flush_block?.eq_none hIndented, hBranch,
    indented_continuation?.eq_none hIndented (by simp [hLead]),
    indented_terminator?.eq_none hIndented (by simp [hLead]), List.forall_mem_nil _⟩

/-- Behind the blanks an instruction has its word. -/
theorem IsInstruction.exists_indented {word : String} {line : List Char}
    (h : IsInstruction word line) (hWord : ∃ c more, word.toList = c :: more ∧ ¬ Text.isBlank c) :
    ∃ after, indented? line = some (word.toList ++ ' ' :: after) := by
  obtain ⟨blanks, after, hSome, hBlanks, rfl⟩ := h
  obtain ⟨c, more, hChars, hBlank⟩ := hWord
  refine ⟨after, indented?_append hSome hBlanks ?_⟩
  rw [hChars]
  rintro d ⟨⟩
  exact hBlank

theorem ofText?_of_switch {line : String} (h : IsInstruction "switch" line.toList) :
    Line.ofText? line = none := by
  obtain ⟨after, hIndented⟩ := h.exists_indented ⟨'s', _, rfl, by decide⟩
  exact ofText?_of_indented hIndented (indented_branch?.eq_none hIndented (by decide)) (by decide)

theorem ofText?_of_indirectbr {line : String} (h : IsInstruction "indirectbr" line.toList) :
    Line.ofText? line = none := by
  obtain ⟨after, hIndented⟩ := h.exists_indented ⟨'i', _, rfl, by decide⟩
  refine ofText?_of_indented hIndented ?_ (by decide)
  rw [branch?, hIndented]
  rfl

theorem isNameChar_of_isDigit {c : Char} (h : c.isDigit) : isNameChar c := by
  simp [isNameChar, Char.isAlphanum, h]

/-- A label that is a number is a label. -/
theorem ofText?_of_isNumbered {digits line : String} (h : IsNumbered digits.toList line.toList) :
    Line.ofText? line = some (.block digits) := by
  obtain ⟨hSome, hDigits, after, hLine⟩ := h
  have hColon : ∀ c ∈ (':' :: after).head?, ¬ isNameChar c := by
    rintro c ⟨⟩
    decide
  have hName : leadingName? line.toList = some (digits.toList, ':' :: after) := by
    rw [hLine]
    exact leadingName?_append hSome (fun c hc => isNameChar_of_isDigit (hDigits c hc)) hColon
  refine ofText?_eq_some_iff.2 ⟨block?, by simp [patterns], ?_⟩
  simp [block?, hName]

theorem ofText?_of_unsupported {line : String} (h : Unsupported line.toList) :
    Line.ofText? line = (label? line).map .block := by
  rcases h with ⟨digits, hNumbered⟩ | hSwitch | hIndirect
  · have hDigits : IsNumbered (String.ofList digits).toList line.toList := by simpa using hNumbered
    rw [label?, ofText?_of_isNumbered hDigits]
    rfl
  · rw [label?, ofText?_of_switch hSwitch]
    rfl
  · rw [label?, ofText?_of_indirectbr hIndirect]
    rfl

/-! ### Without the carriage return in front of the newline -/

theorem IsNumbered.withoutReturn {digits line : List Char} (h : IsNumbered digits line) :
    IsNumbered digits (Text.withoutReturn line) := by
  obtain ⟨hSome, hDigits, after, rfl⟩ := h
  refine ⟨hSome, hDigits, Text.withoutReturn after, ?_⟩
  rw [Text.withoutReturn_append (List.cons_ne_nil _ _), Text.withoutReturn_cons (by decide)]

theorem IsInstruction.withoutReturn {word : String} {line : List Char}
    (h : IsInstruction word line) : IsInstruction word (Text.withoutReturn line) := by
  obtain ⟨blanks, after, hSome, hBlanks, rfl⟩ := h
  refine ⟨blanks, Text.withoutReturn after, hSome, hBlanks, ?_⟩
  rw [Text.withoutReturn_append (by simp), Text.withoutReturn_append (List.cons_ne_nil _ _),
    Text.withoutReturn_cons (by decide)]

/-- A construct that is not supported says the same when it is read as a whole line. -/
theorem ofText?_withoutReturn {line : String} (h : Unsupported line.toList) :
    Line.ofText? (String.ofList (Text.withoutReturn line.toList)) = Line.ofText? line := by
  rcases h with ⟨digits, hNumbered⟩ | hSwitch | hIndirect
  · have hDigits : IsNumbered (String.ofList digits).toList line.toList := by simpa using hNumbered
    rw [ofText?_of_isNumbered hDigits]
    exact ofText?_of_isNumbered (by simpa using hNumbered.withoutReturn)
  · rw [ofText?_of_switch hSwitch]
    exact ofText?_of_switch (by simpa using hSwitch.withoutReturn)
  · rw [ofText?_of_indirectbr hIndirect]
    exact ofText?_of_indirectbr (by simpa using hIndirect.withoutReturn)

/-! ## Labels in a row -/

end ControlFlow

namespace Graph

variable {g : Graph} {names : List String}

theorem internAll_of_mem (h : ∀ name ∈ names, name ∈ g.names) : g.internAll names = g := by
  induction names with
  | nil => rfl
  | cons name more ih =>
    rw [List.forall_mem_cons] at h
    rw [internAll, List.foldl_cons, intern_of_mem h.1]
    exact ih h.2

theorem names_prefix_internAll (g : Graph) (names : List String) :
    g.names <+: (g.internAll names).names := by
  induction names generalizing g with
  | nil => exact List.prefix_rfl
  | cons name more ih => exact (names_prefix_intern g name).trans (ih _)

theorem mem_names_internAll {name : String} (h : name ∈ names) (g : Graph) :
    name ∈ (g.internAll names).names := by
  induction names generalizing g with
  | nil => cases h
  | cons first more ih =>
    rcases List.mem_cons.1 h with rfl | hMore
    · exact (names_prefix_internAll _ more).subset (mem_names_intern g name)
    · exact ih hMore _

end Graph

namespace ControlFlow

namespace Extraction

/-- The extraction after some more lines, of which none says anything but the labels among them. -/
def labelled (x : Extraction) (count : Nat) (labels : List String) : Extraction :=
  { x with
    line := x.line + UInt32.ofNat count
    block := labels.getLast?.or x.block
    graph := x.graph.internAll labels }

theorem feedAll_of_labels {lines : List String}
    (h : ∀ line ∈ lines, Line.ofText? line = (label? line).map .block) (x : Extraction) :
    x.feedAll lines = (x.labelled lines.length (lines.filterMap label?), []) := by
  induction lines generalizing x with
  | nil =>
    have hLine : x.line + UInt32.ofNat 0 = x.line := UInt32.add_zero _
    rw [labelled, List.length_nil, hLine]
    rfl
  | cons line more ih =>
    obtain ⟨hSaid, hMore⟩ := List.forall_mem_cons.1 h
    rw [feedAll_cons]
    cases hLabel : label? line with
    | none =>
      rw [hLabel] at hSaid
      rw [feed_of_none hSaid, ih hMore, labelled, add_one_add_ofNat,
        List.filterMap_cons_none hLabel, List.length_cons]
      rfl
    | some name =>
      rw [hLabel] at hSaid
      have hBlock : ((name :: more.filterMap label?).getLast?).or x.block =
          (more.filterMap label?).getLast?.or (some name) := by
        rw [List.getLast?_cons]
        cases (more.filterMap label?).getLast? <;> rfl
      rw [feed_of_some hSaid, take, openBlock, ih hMore, labelled, labelled, add_one_add_ofNat,
        List.filterMap_cons_some hLabel, List.length_cons, hBlock]
      rfl

/-! ## Extractions that are alike -/

/-- The extractions cannot be told from each other by what follows, but for the numbers of the
lines. Outside of a function all that counts is whether a block is open. -/
structure Alike (x y : Extraction) : Prop where
  function : y.function = x.function
  block : y.block.isSome = x.block.isSome
  inside : x.function.isSome → y.block = x.block ∧ y.graph = x.graph ∧ y.ends = x.ends

theorem feed_inside {x y : Extraction} (hBlock : y.block = x.block) (hGraph : y.graph = x.graph)
    (hEnds : y.ends = x.ends) (line : String) :
    (y.feed line).1.block = (x.feed line).1.block ∧
      (y.feed line).1.graph = (x.feed line).1.graph ∧
        (y.feed line).1.ends = (x.feed line).1.ends := by
  obtain ⟨_, _, _, _, _, _⟩ := x
  obtain ⟨_, _, block, graph, ends, _⟩ := y
  obtain rfl := hBlock
  obtain rfl := hGraph
  obtain rfl := hEnds
  cases hSaid : Line.ofText? line with
  | none =>
    rw [feed_of_none hSaid, feed_of_none hSaid]
    exact ⟨rfl, rfl, rfl⟩
  | some said =>
    rw [feed_of_some hSaid, feed_of_some hSaid]
    cases said with
    | define | block => exact ⟨rfl, rfl, rfl⟩
    | branch | terminator => cases block <;> exact ⟨rfl, rfl, rfl⟩

section Alike

variable {x y : Extraction} (h : x.Alike y)

include h

theorem Alike.completed? : y.completed? = x.completed? := by
  rw [Extraction.completed?, Extraction.completed?, h.function]
  cases hFunction : x.function with
  | none => rfl
  | some name =>
    obtain ⟨-, hGraph, hEnds⟩ := h.inside (Option.isSome_of_eq_some hFunction)
    rw [hGraph, hEnds]

theorem Alike.feed (line : String) :
    (y.feed line).2 = (x.feed line).2 ∧ (x.feed line).1.Alike (y.feed line).1 := by
  cases hHeader : header? line with
  | some name =>
    obtain ⟨hCall, hWithin⟩ := feed_header hHeader x
    obtain ⟨hCall', hWithin'⟩ := feed_header hHeader y
    refine ⟨by rw [hCall, hCall', h.completed?], hWithin'.function.trans hWithin.function.symm, ?_,
      fun _ => ⟨?_, ?_, ?_⟩⟩
    · rw [hWithin'.block, hWithin.block]
    · rw [hWithin'.block, hWithin.block]
    · rw [hWithin'.graph, hWithin.graph]
    · rw [hWithin'.ends, hWithin.ends]
  | none =>
    obtain ⟨hCall, hFunction⟩ := feed_of_no_header hHeader x
    obtain ⟨hCall', hFunction'⟩ := feed_of_no_header hHeader y
    refine ⟨by rw [hCall, hCall'], by rw [hFunction, hFunction', h.function], ?_, fun hInside => ?_⟩
    · rw [isSome_block_feed, isSome_block_feed, h.block]
    · rw [hFunction] at hInside
      obtain ⟨hBlock, hGraph, hEnds⟩ := h.inside hInside
      exact feed_inside hBlock hGraph hEnds line

theorem Alike.handedOver (lines : List String) : y.handedOver lines = x.handedOver lines := by
  induction lines generalizing x y with
  | nil => rw [handedOver_nil, handedOver_nil, h.completed?]
  | cons line more ih =>
    obtain ⟨hCall, hNext⟩ := h.feed line
    rw [handedOver_cons, handedOver_cons, hCall, ih hNext]

end Alike

/-- Labels that tell nothing leave an extraction like it was. -/
theorem Known.alike {x : Extraction} {labels : List String} (h : x.Known labels) (count : Nat) :
    x.Alike (x.labelled count labels) := by
  rcases h with rfl | ⟨hOpen, hKnown⟩
  · exact ⟨rfl, rfl, fun _ => ⟨rfl, rfl, rfl⟩⟩
  · have hStill : (labels.getLast?.or x.block).isSome = x.block.isSome := by
      rw [Option.isSome_or, hOpen, Bool.or_true]
    refine ⟨rfl, hStill, fun hInside => ?_⟩
    obtain ⟨hBlock, hNames⟩ := hKnown.resolve_left (Option.isSome_iff_ne_none.1 hInside)
    have hSame : labels.getLast?.or x.block = x.block := by rw [← hBlock, Option.or_self]
    exact ⟨hSame, Graph.internAll_of_mem hNames, rfl⟩

end Extraction

/-! ## Diagnostics further on -/

theorem remarks_add (n k : Nat) (lines : List String) :
    remarks (n + k) lines = (remarks n lines).map (Diagnostic.movedBy (UInt32.ofNat k)) := by
  induction lines generalizing n with
  | nil => rfl
  | cons line more ih =>
    have hRemark : remark? (UInt32.ofNat (n + k)) line =
        (remark? (UInt32.ofNat n) line).map (Diagnostic.movedBy (UInt32.ofNat k)) := by
      rw [remark?, remark?, Option.map_map, UInt32.ofNat_add]
      rfl
    rw [remarks_cons, remarks_cons, hRemark, Nat.add_right_comm, ih, List.map_append,
      Option.toList_map]

/-- What is reported from some line on is reported later if that line comes later. -/
theorem Extraction.Alike.diagnostics {x : Extraction} {k n : Nat} {labels : List String}
    (h : x.Alike (x.labelled k labels)) (hLine : x.line = UInt32.ofNat n) (lines : List String) :
    ∃ late : List Diagnostic,
      (x.feedAll lines).1.diagnostics.toList = x.diagnostics.toList ++ late ∧
        ((x.labelled k labels).feedAll lines).1.diagnostics.toList =
          x.diagnostics.toList ++ late.map (Diagnostic.movedBy (UInt32.ofNat k)) := by
  have hMoved : (x.labelled k labels).line = UInt32.ofNat (n + k) := by
    rw [labelled, hLine, UInt32.ofNat_add]
  have hLater : remarks (n + k + 1) (outside lines) =
      (remarks (n + 1) (outside lines)).map (Diagnostic.movedBy (UInt32.ofNat k)) := by
    rw [Nat.add_right_comm, remarks_add]
  rw [diagnostics_feedAll _ hLine, diagnostics_feedAll _ hMoved, hLater, h.block]
  refine ⟨_, rfl, ?_⟩
  split <;> rfl

/-! ## Extractions that are told apart -/

/-- Two instructions, each marking either of two blocks alike, mark the same block. -/
theorem BlockEnds.eq_of_mark_eq {ends : BlockEnds} {b d : String} {t u : Terminator} (hNe : t ≠ u)
    (ht : ends.mark d t = ends.mark b t) (hu : ends.mark d u = ends.mark b u) : d = b := by
  by_contra hBlock
  have hMarked : ∀ v, ends.mark d v = ends.mark b v → ends.get? d = some v := by
    intro v hv
    have hGet := congrArg (BlockEnds.get? · d) hv
    simpa [get?_mark, hBlock, eq_comm] using hGet
  exact hNe (Option.some.inj ((hMarked t ht).symm.trans (hMarked u hu)))

namespace Extraction

section Apart

variable {x : Extraction} {name block line : String} {t : Terminator}

theorem handedOver_terminator (hSaid : Line.ofText? line = some (.terminator t))
    (hBlock : x.block = some block) (hFunction : x.function = some name) :
    x.handedOver [line] = [⟨name, (x.graph.intern block).2, x.ends.mark block t⟩] := by
  rw [handedOver_cons, feed_of_some hSaid, take_terminator (by exact hBlock), handedOver_nil,
    Extraction.completed?, markBlock, hFunction]
  rfl

theorem diagnostics_terminator (hSaid : Line.ofText? line = some (.terminator t)) :
    (x.feedAll [line]).1.diagnostics.toList = x.diagnostics.toList ++
      if x.block.isSome then [] else [⟨.extract, x.line + 1, misplaced t⟩] := by
  rw [feedAll_cons, feedAll_nil, diagnostics_feed, remark?, instruction?, hSaid]
  rfl

variable {k : Nat} {labels : List String}

/-- Labels show in a report that is not made. -/
theorem isSome_block_of_reported {late : List Diagnostic} (hLabels : labels ≠ [])
    (hSaid : Line.ofText? line = some (.terminator t))
    (hWithout : (x.feedAll [line]).1.diagnostics.toList = x.diagnostics.toList ++ late)
    (hWith : ((x.labelled k labels).feedAll [line]).1.diagnostics.toList =
      x.diagnostics.toList ++ late.map (Diagnostic.movedBy (UInt32.ofNat k))) :
    x.block.isSome := by
  by_contra hClosed
  have hOpened : (x.labelled k labels).block.isSome := by
    rw [labelled, Option.isSome_or, List.getLast?_isSome.2 hLabels, Bool.true_or]
  rw [diagnostics_terminator hSaid, if_neg hClosed] at hWithout
  rw [diagnostics_terminator hSaid, if_pos hOpened, ← List.append_cancel_left hWithout] at hWith
  cases List.append_cancel_left hWith

/-- Labels that are new show in the open function. -/
theorem names_of_handedOver (hFunction : x.function = some name)
    (hSame : (x.labelled k labels).handedOver [] = x.handedOver []) :
    ∀ label ∈ labels, label ∈ x.graph.names := by
  rw [handedOver_nil, handedOver_nil, Extraction.completed?, Extraction.completed?, labelled,
    hFunction] at hSame
  have hGraph : x.graph.internAll labels = x.graph :=
    congrArg FlowGraph.graph (List.cons.inj hSame).1
  intro label hLabel
  rw [← hGraph]
  exact Graph.mem_names_internAll hLabel x.graph

/-- The last of the labels shows in the marks of two different instructions. -/
theorem block_of_handedOver {line' : String} {u : Terminator} (hFunction : x.function = some name)
    (hOpen : x.block.isSome) (hLabels : labels ≠ []) (hNe : t ≠ u)
    (hSaid : Line.ofText? line = some (.terminator t))
    (hSaid' : Line.ofText? line' = some (.terminator u))
    (hSame : (x.labelled k labels).handedOver [line] = x.handedOver [line])
    (hSame' : (x.labelled k labels).handedOver [line'] = x.handedOver [line']) :
    x.block = labels.getLast? := by
  obtain ⟨block, hBlock⟩ := Option.isSome_iff_exists.1 hOpen
  obtain ⟨last, hLast⟩ := Option.isSome_iff_exists.1 (List.getLast?_isSome.2 hLabels)
  have hLater : (x.labelled k labels).block = some last := by rw [labelled, hLast, Option.some_or]
  rw [handedOver_terminator hSaid hLater hFunction, handedOver_terminator hSaid hBlock hFunction]
    at hSame
  rw [handedOver_terminator hSaid' hLater hFunction, handedOver_terminator hSaid' hBlock hFunction]
    at hSame'
  have hMark : x.ends.mark last t = x.ends.mark block t :=
    congrArg FlowGraph.ends (List.cons.inj hSame).1
  have hMark' : x.ends.mark last u = x.ends.mark block u :=
    congrArg FlowGraph.ends (List.cons.inj hSame').1
  rw [hBlock, hLast, BlockEnds.eq_of_mark_eq hNe hMark hMark']

/-- Labels that nothing shows tell nothing: not a `ret` where no block is open, and not the end, a
`ret` or an `unreachable` inside of a function. -/
theorem known_of_same
    (hHanded : ∀ after : String,
      (x.labelled k labels).handedOver (Text.lines after) = x.handedOver (Text.lines after))
    (hReported : ∀ after : String, ∃ late : List Diagnostic,
      (x.feedAll (Text.lines after)).1.diagnostics.toList = x.diagnostics.toList ++ late ∧
        ((x.labelled k labels).feedAll (Text.lines after)).1.diagnostics.toList =
          x.diagnostics.toList ++ late.map (Diagnostic.movedBy (UInt32.ofNat k))) :
    x.Known labels := by
  have hRet : Line.ofText? "  ret void" = some (.terminator .ret) := by decide +kernel
  have hUnreachable : Line.ofText? "  unreachable" = some (.terminator .unreachable) := by
    decide +kernel
  have hRetLine : Text.lines "  ret void" = ["  ret void"] := by decide +kernel
  have hUnreachableLine : Text.lines "  unreachable" = ["  unreachable"] := by decide +kernel
  by_cases hLabels : labels = []
  · exact .inl hLabels
  obtain ⟨late, hWithout, hWith⟩ := hReported "  ret void"
  rw [hRetLine] at hWithout hWith
  have hOpen := isSome_block_of_reported hLabels hRet hWithout hWith
  refine .inr ⟨hOpen, ?_⟩
  cases hFunction : x.function with
  | none => exact .inl rfl
  | some name =>
    have hSame := hHanded "  ret void"
    have hSame' := hHanded "  unreachable"
    rw [hRetLine] at hSame
    rw [hUnreachableLine] at hSame'
    have hBlock := block_of_handedOver hFunction hOpen hLabels (by decide) hRet hUnreachable hSame
      hSame'
    exact .inr ⟨hBlock, names_of_handedOver hFunction (hHanded "")⟩

end Apart

end Extraction

/-! ## Insertions -/

theorem extract_append {before : String} (hBefore : Text.Whole before.toList) (after : String) :
    extract (before ++ after) =
      ⟨(({} : Extraction).feedAll (Text.lines before)).2 ++
          (Extraction.upTo before).handedOver (Text.lines after),
        ((Extraction.upTo before).feedAll (Text.lines after)).1.diagnostics.toList⟩ := by
  have hHanded := Extraction.handedOver_append {} (Text.lines before) (Text.lines after)
  have hRun := Extraction.feedAll_append {} (Text.lines before) (Text.lines after)
  rw [← Text.lines_append hBefore] at hHanded hRun
  show Listing.mk (({} : Extraction).handedOver _)
    (({} : Extraction).feedAll _).1.diagnostics.toList = _
  rw [hHanded, hRun]
  rfl

section Insertion

variable {before : String} {inserted : List String} (hBefore : Text.Whole before.toList)
  (hInserted : ∀ line ∈ inserted, '\n' ∉ line.toList ∧ Unsupported line.toList)

include hBefore hInserted

/-- Behind an insertion the labels in it have been read, and nothing else. -/
theorem feedAll_inserted :
    ({} : Extraction).feedAll (Text.lines (before ++ Text.ended inserted)) =
      ((Extraction.upTo before).labelled inserted.length (inserted.filterMap label?),
        (({} : Extraction).feedAll (Text.lines before)).2) := by
  let read := fun line : String => String.ofList (Text.withoutReturn line.toList)
  have hLines : Text.lines (Text.ended inserted) = inserted.map read :=
    Text.lines_ended fun line hLine => (hInserted line hLine).1
  have hRead : ∀ line ∈ inserted, Line.ofText? (read line) = Line.ofText? line := fun line hLine =>
    ofText?_withoutReturn (hInserted line hLine).2
  have hSame : ∀ line ∈ inserted, label? (read line) = label? line := by
    intro line hLine
    rw [label?, label?, hRead line hLine]
  have hLabels : ∀ line ∈ inserted.map read, Line.ofText? line = (label? line).map .block := by
    intro line hLine
    obtain ⟨written, hWritten, rfl⟩ := List.mem_map.1 hLine
    rw [hRead written hWritten, hSame written hWritten]
    exact ofText?_of_unsupported (hInserted written hWritten).2
  rw [Text.lines_append hBefore, hLines, Extraction.feedAll_append,
    Extraction.feedAll_of_labels hLabels, List.length_map, List.filterMap_map,
    List.filterMap_congr (by exact hSame), List.append_nil]
  rfl

/-- Whether an insertion is inert is seen in what comes of the lines behind it. -/
theorem inert_iff {x y : Extraction} (hx : Extraction.upTo before = x)
    (hy : x.labelled inserted.length (inserted.filterMap label?) = y) (after : String) :
    Inert before inserted after ↔
      y.handedOver (Text.lines after) = x.handedOver (Text.lines after) ∧
        ∃ late : List Diagnostic,
          (x.feedAll (Text.lines after)).1.diagnostics.toList = x.diagnostics.toList ++ late ∧
            (y.feedAll (Text.lines after)).1.diagnostics.toList =
              x.diagnostics.toList ++
                late.map (Diagnostic.movedBy (UInt32.ofNat inserted.length)) := by
  have hRun := feedAll_inserted hBefore hInserted
  have hWhole : Text.Whole (before ++ Text.ended inserted).toList := by
    rw [String.toList_append]
    exact hBefore.append (Text.whole_ended inserted)
  have hFront : (extract before).diagnostics = x.diagnostics.toList := by
    rw [← hx]
    rfl
  rw [Inert, extract_append hBefore, extract_append hWhole, hFront,
    Extraction.upTo.eq_1 (before ++ _), hRun, hx, hy, List.append_cancel_left_eq]

end Insertion

/-- An insertion is inert, whatever follows, exactly if the labels in it tell the extraction
nothing. So lines with a `switch` or an `indirectbr` can be inserted anywhere, and labels that are
numbers only where a block is open and no function, or if they repeat labels of the open function,
the last of them the one of the open block. -/
theorem inserted_inert_iff (before : String) (inserted : List String)
    (hBefore : Text.Whole before.toList)
    (hInserted : ∀ line ∈ inserted, '\n' ∉ line.toList ∧ Unsupported line.toList) :
    (∀ after, Inert before inserted after) ↔
      (Extraction.upTo before).Known (inserted.filterMap label?) := by
  simp only [inert_iff hBefore hInserted rfl rfl]
  constructor
  · intro hInert
    exact Extraction.known_of_same (fun after => (hInert after).1) fun after => (hInert after).2
  · intro hKnown after
    have hAlike := hKnown.alike inserted.length
    have hLine : (Extraction.upTo before).line = UInt32.ofNat (Text.lines before).length := by
      rw [Extraction.upTo, Extraction.line_feedAll]
      exact UInt32.zero_add _
    exact ⟨hAlike.handedOver _, hAlike.diagnostics hLine _⟩

/-- Two jumps, and between them a label that is a number. -/
def jumpLines : List String :=
  ["  switch i32 %x, label %d [ i32 0, label %z ]", "12: ; preds = %0",
    "\tindirectbr ptr %p, [label %d, label %z]"]

/-- The jumps tell nothing, and neither does the label behind one of the same name. -/
theorem inserted_inert_repeated :
    Text.Whole "define void @f() \x7b\n12:\n".toList ∧
      (∀ line ∈ jumpLines, '\n' ∉ line.toList ∧ Unsupported line.toList) ∧
        (Extraction.upTo "define void @f() \x7b\n12:\n").Known (jumpLines.filterMap label?) ∧
          ∀ after, Inert "define void @f() \x7b\n12:\n" jumpLines after := by
  have hWhole : Text.Whole "define void @f() \x7b\n12:\n".toList := by decide
  have hJumps : ∀ line ∈ jumpLines, '\n' ∉ line.toList ∧ Unsupported line.toList := by
    rw [jumpLines, List.forall_mem_cons, List.forall_mem_cons, List.forall_mem_singleton]
    refine ⟨⟨by decide, .inr (.inl ?switch)⟩, ⟨by decide, .inl ⟨['1', '2'], ?label⟩⟩,
      ⟨by decide, .inr (.inr ?indirectbr)⟩⟩
    case switch => exact ⟨[' ', ' '], _, by simp, List.all_eq_true.1 (by decide), rfl⟩
    case label => exact ⟨by simp, by simp, _, rfl⟩
    case indirectbr => exact ⟨['\t'], _, by simp, List.all_eq_true.1 (by decide), rfl⟩
  have hKnown : (Extraction.upTo "define void @f() \x7b\n12:\n").Known
      (jumpLines.filterMap label?) :=
    .inr ⟨by decide +kernel, .inr ⟨by decide +kernel, by decide +kernel⟩⟩
  exact ⟨hWhole, hJumps, hKnown, (inserted_inert_iff _ _ hWhole hJumps).2 hKnown⟩

/-- Not every insertion is inert: the `ret` behind a label that is a number ends a block of that
name. -/
theorem not_inert_numbered :
    ¬ ∀ (before : String) (inserted : List String) (after : String),
      Text.Whole before.toList →
        (∀ line ∈ inserted, '\n' ∉ line.toList ∧ Unsupported line.toList) →
          Inert before inserted after := by
  intro hInert
  have hNumbered : ∀ line ∈ ["12:"], '\n' ∉ line.toList ∧ Unsupported line.toList := by
    rw [List.forall_mem_singleton]
    exact ⟨by decide, .inl ⟨['1', '2'], by simp, by simp, _, rfl⟩⟩
  have hSame := hInert "define void @f() \x7b\n" ["12:"] "  ret void\n\x7d\n" (by decide) hNumbered
  exact absurd hSame.1 (by decide +kernel)

end ControlFlow

end GraphMarkup
