import GraphMarkup.Output.Fault
import GraphMarkup.Text.Bytes

/-!
# Outputs

An output is a state machine: it answers each write by how many bytes it took, or by refusing,
and it may ask for the same bytes again. `Sink.writeAll` goes on until all bytes are taken or a
write is refused. It comes to an end because an output runs out of patience over whatever it is
offered: it can ask for the same bytes again only so many times in a row.

* `Sink.recorder` takes everything.
* `Sink.faltering` takes a given number of bytes, refuses one write and then takes everything.
* `Sink.refusing` refuses everything.
-/

namespace GraphMarkup

/-- How an output answers a write. -/
inductive WriteAnswer where
  /-- It took so many bytes from the front. -/
  | accepted (count : Nat)
  /-- It took nothing, and the same bytes are to be offered again. -/
  | again
  | refused (fault : Fault)
deriving DecidableEq, Repr

/-- An output with states of type `σ`. -/
structure Sink (σ : Type) where
  write : σ → Bytes → WriteAnswer × σ
  flush : σ → Option Fault × σ
  /-- How often the output may still ask for the same bytes again. -/
  patience : σ → Bytes → Nat
  patience_lt : ∀ s bytes s', write s bytes = (.again, s') → patience s' bytes < patience s bytes

namespace Sink

variable {σ : Type}

/-- Offers bytes to an output until it takes some of them, and gives how many, or refuses. -/
def offer (sink : Sink σ) (s : σ) (bytes : Bytes) : Except Fault Nat × σ :=
  match hWrite : sink.write s bytes with
  | (.accepted n, s') => (.ok n, s')
  | (.refused fault, s') => (.error fault, s')
  | (.again, s') =>
    have : sink.patience s' bytes < sink.patience s bytes := sink.patience_lt s bytes s' hWrite
    sink.offer s' bytes
termination_by sink.patience s bytes

/-- Offers bytes to an output until it has taken all of them. Nothing is offered where there is
nothing left, and an output that takes nothing of something is given up. -/
def writeAll (sink : Sink σ) (s : σ) : Bytes → Option Fault × σ
  | [] => (none, s)
  | b :: rest =>
    match sink.offer s (b :: rest) with
    | (.ok 0, s') => (some .wroteNothing, s')
    | (.ok (n + 1), s') =>
      have : (rest.drop n).length < (b :: rest).length := by
        rw [List.length_drop, List.length_cons]
        omega
      sink.writeAll s' (rest.drop n)
    | (.error fault, s') => (some fault, s')
termination_by bytes => bytes.length

/-! ## Particular outputs -/

/-- Takes everything and keeps it. -/
def recorder : Sink (Array UInt8) where
  write arrived bytes := (.accepted bytes.length, arrived ++ bytes.toArray)
  flush arrived := (none, arrived)
  patience _ _ := 0
  patience_lt := by simp

/-- What has arrived in a faltering output, and how many bytes it takes before it refuses; none
once it has. -/
structure Faltering where
  arrived : Array UInt8 := #[]
  room : Option Nat := none
deriving DecidableEq, Repr, Inhabited

/-- Takes as many bytes as there is room for, of a longer write its beginning. The first write
that finds no room is refused, and after that there is room for everything. Flushing answers as
given. -/
def faltering (fault : Fault) (flushed : Option Fault) : Sink Faltering where
  write s bytes :=
    match s.room with
    | none => (.accepted bytes.length, { s with arrived := s.arrived ++ bytes.toArray })
    | some 0 => (.refused fault, { s with room := none })
    | some n =>
      let taken := bytes.take n
      (.accepted taken.length, ⟨s.arrived ++ taken.toArray, some (n - taken.length)⟩)
  flush s := (flushed, s)
  patience _ _ := 0
  patience_lt s bytes s' := by
    split <;> simp

/-- Refuses every write for the same reason. -/
def refusing (fault : Fault) : Sink (Array UInt8) where
  write arrived _ := (.refused fault, arrived)
  flush arrived := (none, arrived)
  patience _ _ := 0
  patience_lt := by simp

end Sink

end GraphMarkup
