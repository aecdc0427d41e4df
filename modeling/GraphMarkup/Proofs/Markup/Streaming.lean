import GraphMarkup.Markup.Page

/-!
# Showing functions as they are completed

The functions of a listing can be written each as soon as it is complete, or all of them once the
listing has been taken in. The first way keeps a failure as a value and goes on taking in lines, the
second stops where it fails; on every output they come to the same (`writeListing_apply`).

The induction is on the lines. `writeUnless` writes some functions unless something has failed
before, and what it says of a list of functions it says of any two parts of the list one after the
other (`writeUnless_append`). So the functions that a listing hands over line by line are written
as one list (`foldlM_takeLine`), and a failure that is kept to the end and then passed on is one
that stopped the writing (`attempt_bind_orThrow`).

A `Sink` asks for the same bytes again only so many times in a row. `Device` is any state machine,
with no such bound; `streaming_eq_collecting` is about both.
-/

namespace GraphMarkup

namespace Writer

variable {σ α : Type}

/-- Goes on where nothing has failed, and keeps a failure as a value. -/
def orKeep (later : Writer σ (Option Failure)) : Option Failure → Writer σ (Option Failure)
  | none => later
  | some failure => pure (some failure)

/-- Goes on where nothing has failed, and passes a failure on. -/
def orThrow (later : Writer σ α) : Option Failure → Writer σ α
  | none => later
  | some failure => throw failure

/-- How a run ended, with a value for where it succeeded. -/
def giving (a : α) : EStateM.Result Failure σ Unit → EStateM.Result Failure σ α
  | .ok _ s => .ok a s
  | .error failure s => .error failure s

theorem bind_pure_apply (w : Writer σ Unit) (a : α) (s : σ) :
    (w >>= fun _ => pure a) s = giving a (w s) := by
  show EStateM.bind w _ s = _
  unfold EStateM.bind
  cases w s <;> rfl

/-- What comes after an attempt is attempted too, unless something has failed by then. -/
theorem attempt_bind (w later : Writer σ Unit) :
    attempt (w >>= fun _ => later) = attempt w >>= orKeep (attempt later) := by
  funext s
  have hBoth : (w >>= fun _ => later) s = EStateM.bind w (fun _ => later) s := rfl
  show _ = EStateM.bind (attempt w) (orKeep (attempt later)) s
  simp only [attempt, hBoth, EStateM.bind]
  cases w s <;> rfl

/-- To pass on the failure of an attempt is not to have attempted it. -/
theorem attempt_bind_orThrow (w : Writer σ Unit) (later : Writer σ α) :
    attempt w >>= orThrow later = w >>= fun _ => later := by
  funext s
  show EStateM.bind (attempt w) (orThrow later) s = EStateM.bind w _ s
  simp only [attempt, EStateM.bind]
  cases w s <;> rfl

end Writer

/-! ## Outputs without a bound -/

/-- Any state machine that answers writes and flushes. It may ask for the same bytes for ever. -/
structure Device (σ : Type) where
  write : σ → Bytes → WriteAnswer × σ
  flush : σ → Option Fault × σ

namespace Device

variable {σ : Type} {d : Device σ} {bytes : Bytes} {s : σ} {r r' : WriteAnswer × σ}

/-- The answer that the device comes to in the end when it is offered some bytes as often as it asks
for them. -/
inductive Settles (d : Device σ) (bytes : Bytes) : σ → WriteAnswer × σ → Prop
  | now {s : σ} {r : WriteAnswer × σ} (hWrite : d.write s bytes = r) (hAnswer : r.1 ≠ .again) :
      Settles d bytes s r
  | later {s s' : σ} {r : WriteAnswer × σ} (hAgain : d.write s bytes = (.again, s'))
      (rest : Settles d bytes s' r) : Settles d bytes s r

theorem Settles.ne_again (h : d.Settles bytes s r) : r.1 ≠ .again := by
  induction h with
  | now _ hAnswer => exact hAnswer
  | later _ _ ih => exact ih

theorem Settles.unique (h : d.Settles bytes s r) (h' : d.Settles bytes s r') : r = r' := by
  induction h with
  | now hWrite hAnswer =>
    cases h' with
    | now hWrite' _ => exact hWrite.symm.trans hWrite'
    | later hAgain _ =>
      rw [← hWrite, hAgain] at hAnswer
      exact absurd rfl hAnswer
  | later hAgain _ ih =>
    cases h' with
    | now hWrite' hAnswer' =>
      rw [← hWrite', hAgain] at hAnswer'
      exact absurd rfl hAnswer'
    | later hAgain' rest' =>
      cases hAgain.symm.trans hAgain'
      exact ih rest'

open Classical in
/-- The device as an output whose writes end with the answer that the device comes to. Its state is
none from a write on that never comes back. -/
noncomputable def toSink (d : Device σ) : Sink (Option σ) where
  write
    | none, _ => (.refused .wroteNothing, none)
    | some s, bytes =>
      if h : ∃ r, d.Settles bytes s r then (h.choose.1, some h.choose.2)
      else (.refused .wroteNothing, none)
  flush
    | none => (none, none)
    | some s => ((d.flush s).1, some (d.flush s).2)
  patience _ _ := 0
  patience_lt s bytes s' := by
    cases s with
    | none => simp
    | some s =>
      by_cases h : ∃ r, d.Settles bytes s r
      · simp [h, h.choose_spec.ne_again]
      · simp [h]

/-- A write to the output is all the writes that the device asks for. -/
theorem toSink_write (h : d.Settles bytes s r) :
    d.toSink.write (some s) bytes = (r.1, some r.2) := by
  have hSome : ∃ r, d.Settles bytes s r := ⟨r, h⟩
  have hSame : hSome.choose = r := hSome.choose_spec.unique h
  simp only [toSink, hSome, dif_pos, hSame]

end Device

/-! ## The two ways of writing a listing -/

namespace Markup.Page

open ControlFlow (Extraction FlowGraph extract)
open Writer

variable {σ : Type} (sink : Sink σ)

/-- Writes functions, in order, unless something has failed before. -/
def writeUnless (failed : Option Failure) (fs : List FlowGraph) : Writer σ (Option Failure) :=
  orKeep (attempt (fs.forM (writeFunction sink))) failed

theorem writeUnless_nil (failed : Option Failure) : writeUnless sink failed [] = pure failed := by
  cases failed <;> rfl

theorem writeUnless_append (failed : Option Failure) (fs gs : List FlowGraph) :
    writeUnless sink failed (fs ++ gs) =
      writeUnless sink failed fs >>= fun failed => writeUnless sink failed gs := by
  cases failed with
  | some failure => rfl
  | none =>
    have hBoth : (fs ++ gs).forM (writeFunction sink) =
        fs.forM (writeFunction sink) >>= fun _ => gs.forM (writeFunction sink) := List.forM_append
    show attempt _ = attempt _ >>= orKeep _
    rw [hBoth, attempt_bind]

theorem writeCompleted_eq (failed : Option Failure) (completed : Option FlowGraph) :
    writeCompleted sink failed completed = writeUnless sink failed completed.toList := by
  cases failed with
  | some failure => rfl
  | none =>
    cases completed with
    | none => rfl
    | some f =>
      have hOne : [f].forM (writeFunction sink) = writeFunction sink f := bind_pure_unit
      show attempt (writeFunction sink f) = attempt ([f].forM (writeFunction sink))
      rw [hOne]

/-- Lines are taken in whatever fails, and the functions that they complete are written as if they
were all there at once. -/
theorem foldlM_takeLine (lines : List String) (x : Extraction) (failed : Option Failure) :
    lines.foldlM (takeLine sink) (x, failed) =
      writeUnless sink failed (x.feedAll lines).2 >>= fun failed =>
        pure ((x.feedAll lines).1, failed) := by
  induction lines generalizing x failed with
  | nil =>
    show _ = writeUnless sink failed [] >>= _
    rw [writeUnless_nil, pure_bind]
    rfl
  | cons line more ih =>
    have hLine : takeLine sink (x, failed) line =
        writeUnless sink failed (x.feed line).2.toList >>= fun failed =>
          pure ((x.feed line).1, failed) := by
      rw [← writeCompleted_eq]
      rfl
    have hAll : x.feedAll (line :: more) =
        (((x.feed line).1.feedAll more).1,
          (x.feed line).2.toList ++ ((x.feed line).1.feedAll more).2) := rfl
    rw [List.foldlM_cons, hLine, hAll, writeUnless_append, bind_assoc, bind_assoc]
    refine bind_congr fun failed => ?_
    rw [pure_bind, ih]

theorem writeListing_eq (around : Fragments) (source : String) :
    writeListing sink around source =
      writeFunctions sink around (extract source).functions >>= fun _ =>
        pure (extract source).diagnostics := by
  let x := (({} : Extraction).feedAll (Text.lines source)).1
  let fs := (({} : Extraction).feedAll (Text.lines source)).2
  let finish (ds : List Diagnostic) : Writer σ (List Diagnostic) :=
    writeBytes sink around.footer >>= fun _ => flush sink >>= fun _ => pure ds
  calc writeListing sink around source
    _ = writeBytes sink around.header >>= fun _ =>
          (Text.lines source).foldlM (takeLine sink) ({}, none) >>= fun progress =>
          writeCompleted sink progress.2 progress.1.finish.1 >>=
          orThrow (finish progress.1.finish.2) := by
      refine bind_congr fun _ => bind_congr fun progress => bind_congr fun failed => ?_
      cases failed <;> rfl
    _ = writeBytes sink around.header >>= fun _ =>
          writeUnless sink none (fs ++ x.finish.1.toList) >>=
          orThrow (finish x.finish.2) := by
      simp only [foldlM_takeLine, writeCompleted_eq, writeUnless_append, bind_assoc, pure_bind]
      rfl
    _ = writeBytes sink around.header >>= fun _ =>
          (fs ++ x.finish.1.toList).forM (writeFunction sink) >>= fun _ =>
          finish x.finish.2 := by
      show _ >>= (fun _ => attempt _ >>= orThrow _) = _
      rw [attempt_bind_orThrow]
    _ = writeFunctions sink around (extract source).functions >>= fun _ =>
          pure (extract source).diagnostics := by
      simp only [writeFunctions, bind_assoc]
      rfl

/-- Writing the functions of a listing as they are completed, and writing them after the listing has
been taken in, leave an output in the same state with the same failure or with none; without one,
the first way gives the diagnostics of the listing. -/
theorem writeListing_apply (around : Fragments) (source : String) (s : σ) :
    writeListing sink around source s =
      giving (extract source).diagnostics
        (writeFunctions sink around (extract source).functions s) := by
  rw [writeListing_eq, bind_pure_apply]

/-- The two ways of writing a listing come to the same on every output: on one that asks for the
same bytes only so many times in a row, and on any state machine, where neither or both of them come
to a write that never ends. -/
theorem streaming_eq_collecting (around : Fragments) (source : String) :
    (∀ (σ : Type) (sink : Sink σ) (s : σ),
      writeListing sink around source s =
        giving (extract source).diagnostics
          (writeFunctions sink around (extract source).functions s)) ∧
      ∀ (σ : Type) (d : Device σ) (s : σ),
        writeListing d.toSink around source (some s) =
          giving (extract source).diagnostics
            (writeFunctions d.toSink around (extract source).functions (some s)) :=
  ⟨fun _ sink s => writeListing_apply sink around source s,
    fun _ d s => writeListing_apply d.toSink around source (some s)⟩

end Markup.Page

end GraphMarkup
