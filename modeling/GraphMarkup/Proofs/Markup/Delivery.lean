import GraphMarkup.Proofs.FrontEnds
import GraphMarkup.Proofs.Markup.Streaming

/-!
# What arrives of a page

An output may run out of room in the middle of a page. It takes so many bytes, in whatever parts it
likes, refuses one write, and from then on takes everything again (`Sink.Falters`). A page is
written in many small pieces, and any piece that is offered after the refusal would leave a hole in
what has arrived.

`Transmits` says of a program that it is to write some bytes and that nothing of it comes after a
refusal: either all of the bytes arrive, or those arrive that there was room for and the program
ends with the fault of the output. Two such programs one after the other make one for all of the
bytes (`Transmits.bind`), so it is proved for single writes and holds of whole pages
(`page_whole_or_cut`).
-/

namespace GraphMarkup

/-! ## Outputs with limited room -/

namespace Sink

variable {σ : Type}

/-- What can be told of an output from outside: the bytes that have arrived, and how many more it
takes before it refuses a write, if it is to refuse one. -/
structure View (σ : Type) where
  arrived : σ → Bytes
  room : σ → Option Nat

namespace View

variable (v : View σ) (fault : Fault)

/-- How an output may answer a write: by asking for the same bytes again, by taking some of them for
which it has room, or by refusing, for the one fault and only where it has no room. -/
inductive Answers (s : σ) (bytes : Bytes) : WriteAnswer → σ → Prop
  | again {s' : σ} (hArrived : v.arrived s' = v.arrived s) (hRoom : v.room s' = v.room s) :
      Answers s bytes .again s'
  | accepted {n : Nat} {s' : σ} (hSome : 0 < n) (hLe : n ≤ bytes.length)
      (hRoom : ∀ m ∈ v.room s, n ≤ m) (hArrived : v.arrived s' = v.arrived s ++ bytes.take n)
      (hLeft : v.room s' = (v.room s).map (· - n)) : Answers s bytes (.accepted n) s'
  | refused {s' : σ} (hFull : v.room s = some 0) (hArrived : v.arrived s' = v.arrived s)
      (hOpen : v.room s' = none) : Answers s bytes (.refused fault) s'

/-- How a program ends that was to write some bytes: with all of them arrived, or with as many as
there was room for. -/
inductive Delivered (s : σ) (bytes : Bytes) : EStateM.Result Failure σ Unit → Prop
  | whole {s' : σ} (hFits : ∀ m ∈ v.room s, bytes.length ≤ m)
      (hArrived : v.arrived s' = v.arrived s ++ bytes)
      (hLeft : v.room s' = (v.room s).map (· - bytes.length)) : Delivered s bytes (.ok () s')
  | cut {m : Nat} {s' : σ} (hRoom : v.room s = some m) (hLt : m < bytes.length)
      (hArrived : v.arrived s' = v.arrived s ++ bytes.take m) :
      Delivered s bytes (.error (.output fault) s')

end View

/-- An output that takes as many bytes as its view says, refuses one write, and then takes
everything. It may ask for the same bytes again at any time. Nothing arrives by flushing. -/
structure Falters (sink : Sink σ) (v : View σ) (fault : Fault) : Prop where
  write : ∀ s bytes, bytes ≠ [] →
    v.Answers fault s bytes (sink.write s bytes).1 (sink.write s bytes).2
  flush : ∀ s, v.arrived (sink.flush s).2 = v.arrived s

/-! ### Single writes -/

section Writes

variable {v : View σ} {fault : Fault} {s s₁ s' : σ} {bytes a b : Bytes}

theorem View.Answers.of_same {answer : WriteAnswer} (h : v.Answers fault s₁ bytes answer s')
    (hArrived : v.arrived s₁ = v.arrived s) (hRoom : v.room s₁ = v.room s) :
    v.Answers fault s bytes answer s' := by
  cases h with
  | again hArrived' hRoom' => exact .again (hArrived'.trans hArrived) (hRoom'.trans hRoom)
  | accepted hSome hLe hWithin hArrived' hLeft =>
    rw [hRoom] at hWithin hLeft
    rw [hArrived] at hArrived'
    exact .accepted hSome hLe hWithin hArrived' hLeft
  | refused hFull hArrived' hOpen =>
    exact .refused (hRoom ▸ hFull) (hArrived'.trans hArrived) hOpen

/-- What was offered as often as the output asked for it is answered as by a single write. -/
theorem Falters.offer {sink : Sink σ} (h : sink.Falters v fault) (s : σ) (hBytes : bytes ≠ []) :
    (∃ n s', sink.offer s bytes = (.ok n, s') ∧ v.Answers fault s bytes (.accepted n) s') ∨
      ∃ s', sink.offer s bytes = (.error fault, s') ∧
        v.Answers fault s bytes (.refused fault) s' := by
  have hAnswer := h.write s bytes hBytes
  -- Asking again wears out patience, and changes nothing that can be told of the output.
  induction hPatience : sink.patience s bytes using Nat.strongRecOn generalizing s with
  | ind patience ih =>
    subst hPatience
    unfold Sink.offer
    split
    next n s' hWrite =>
      rw [hWrite] at hAnswer
      exact Or.inl ⟨n, s', rfl, hAnswer⟩
    next other s' hWrite =>
      rw [hWrite] at hAnswer
      cases hAnswer with
      | refused hFull hArrived hOpen => exact Or.inr ⟨s', rfl, .refused hFull hArrived hOpen⟩
    next s' hWrite =>
      rw [hWrite] at hAnswer
      cases hAnswer with
      | again hArrived hRoom =>
        have hLt := sink.patience_lt s bytes s' hWrite
        rcases ih _ hLt s' (h.write s' bytes hBytes) rfl with
          ⟨n, s'', hOffer, hLater⟩ | ⟨s'', hOffer, hLater⟩
        · exact Or.inl ⟨n, s'', hOffer, hLater.of_same hArrived hRoom⟩
        · exact Or.inr ⟨s'', hOffer, hLater.of_same hArrived hRoom⟩

/-- After a part that arrived whole comes the rest. -/
theorem View.Delivered.after_whole {result : EStateM.Result Failure σ Unit}
    (hPart : v.Delivered fault s a (.ok () s₁)) (hRest : v.Delivered fault s₁ b result) :
    v.Delivered fault s (a ++ b) result := by
  cases hPart with
  | whole hFits hArrived hLeft =>
    cases hRest with
    | whole hFits' hArrived' hLeft' =>
      refine .whole (fun m hm => ?_) ?_ ?_
      · have hPart := hFits m hm
        have hRest := hFits' (m - a.length) (by rw [hLeft, Option.mem_def.1 hm]; rfl)
        rw [List.length_append]
        omega
      · rw [hArrived', hArrived, List.append_assoc]
      · rw [hLeft', hLeft, Option.map_map, List.length_append]
        exact congrArg (Option.map · _) (funext fun m => by simp [Nat.sub_sub])
    | cut hRoom hLt hArrived' =>
      rw [hLeft, Option.map_eq_some_iff] at hRoom
      obtain ⟨m, hRoom, rfl⟩ := hRoom
      have hPart := hFits m hRoom
      refine .cut hRoom (by rw [List.length_append]; omega) ?_
      rw [hArrived', hArrived, List.append_assoc, List.take_append,
        List.take_of_length_le hPart]

/-- Nothing comes after a part that was cut. -/
theorem View.Delivered.of_cut {failure : Failure}
    (hPart : v.Delivered fault s a (.error failure s')) :
    v.Delivered fault s (a ++ b) (.error failure s') := by
  cases hPart with
  | cut hRoom hLt hArrived =>
    refine .cut hRoom (by rw [List.length_append]; omega) ?_
    rw [hArrived, List.take_append_of_le_length hLt.le]

/-- A write of some bytes goes on over everything that is taken, up to the first refusal. -/
theorem Falters.delivered {sink : Sink σ} (h : sink.Falters v fault) (s : σ) (bytes : Bytes) :
    v.Delivered fault s bytes (Writer.writeBytes sink bytes s) := by
  unfold Writer.writeBytes
  fun_induction Sink.writeAll sink s bytes with
  | case1 s => exact .whole (by simp) (by simp) (by simp)
  | case2 s b rest s' hOffer =>
    rcases h.offer s (List.cons_ne_nil b rest) with ⟨n, t, hTaken, hAnswer⟩ | ⟨t, hRefused, -⟩
    · obtain ⟨hZero, rfl⟩ := Prod.mk.inj (hOffer.symm.trans hTaken)
      cases hAnswer with
      | accepted hSome => exact absurd (Except.ok.inj hZero).symm hSome.ne'
    · cases hOffer.symm.trans hRefused
  | case3 s b rest n s' hOffer hLt ih =>
    rcases h.offer s (List.cons_ne_nil b rest) with ⟨k, t, hTaken, hAnswer⟩ | ⟨t, hRefused, -⟩
    · obtain ⟨hCount, rfl⟩ := Prod.mk.inj (hOffer.symm.trans hTaken)
      obtain rfl : n + 1 = k := Except.ok.inj hCount
      cases hAnswer with
      | accepted hSome hLe hRoom hArrived hLeft =>
        -- What was taken makes a whole part, and what is left is offered next.
        have hLength : ((b :: rest).take (n + 1)).length = n + 1 := List.length_take_of_le hLe
        have hTook : v.Delivered fault s ((b :: rest).take (n + 1)) (.ok () s') :=
          .whole (by rwa [hLength]) hArrived (by rwa [hLength])
        have hAll := hTook.after_whole ih
        rwa [← List.drop_succ_cons (a := b), List.take_append_drop] at hAll
    · cases hOffer.symm.trans hRefused
  | case4 s b rest f s' hOffer =>
    rcases h.offer s (List.cons_ne_nil b rest) with ⟨k, t, hTaken, -⟩ | ⟨t, hRefused, hAnswer⟩
    · cases hOffer.symm.trans hTaken
    · obtain ⟨hFault, rfl⟩ := Prod.mk.inj (hOffer.symm.trans hRefused)
      obtain rfl := Except.error.inj hFault
      cases hAnswer with
      | refused hFull hArrived =>
        exact .cut hFull (List.length_pos_of_ne_nil (List.cons_ne_nil b rest)) (by simp [hArrived])

end Writes

/-! ### Particular outputs -/

/-- The view of an output that keeps what arrives and knows how much it still takes. -/
def Faltering.view : View Faltering where
  arrived s := s.arrived.toList
  room s := s.room

theorem falters_faltering (fault : Fault) (flushed : Option Fault) :
    (faltering fault flushed).Falters Faltering.view fault where
  write s bytes hBytes := by
    have hPos := List.length_pos_of_ne_nil hBytes
    rcases s with ⟨arrived, _ | _ | n⟩
    · refine .accepted hPos le_rfl (by simp [Faltering.view]) ?_ rfl
      simp [faltering, Faltering.view]
    · exact .refused rfl rfl rfl
    · have hTaken : (bytes.take (n + 1)).length = min (n + 1) bytes.length := List.length_take
      refine .accepted (by omega) (by omega) ?_ ?_ rfl
      · intro m hm
        obtain rfl : n + 1 = m := Option.some.inj hm
        omega
      · show (arrived ++ (bytes.take (n + 1)).toArray).toList = _
        rw [hTaken, ← List.take_eq_take_min]
        simp [Faltering.view]
  flush s := rfl

/-- The view of an output that has room for everything. -/
def recorderView : View (Array UInt8) where
  arrived s := s.toList
  room _ := none

theorem falters_recorder (fault : Fault) : recorder.Falters recorderView fault where
  write s bytes hBytes :=
    .accepted (List.length_pos_of_ne_nil hBytes) le_rfl (by simp [recorderView])
      (by simp [recorder, recorderView]) rfl
  flush s := rfl

end Sink

/-! ## Programs -/

namespace Writer

variable {σ : Type} {sink : Sink σ} {v : Sink.View σ} {fault : Fault} {w w' : Writer σ Unit}
  {a b : Bytes}

/-- A program that writes some bytes, and nothing more once a write is refused. -/
def Transmits (v : Sink.View σ) (fault : Fault) (w : Writer σ Unit) (bytes : Bytes) : Prop :=
  ∀ s, v.Delivered fault s bytes (w s)

theorem transmits_pure : Transmits v fault (pure ()) [] := fun _ =>
  .whole (by simp) (by simp) (by simp)

theorem Transmits.bind (hw : Transmits v fault w a) (hw' : Transmits v fault w' b) :
    Transmits v fault (w >>= fun _ => w') (a ++ b) := by
  intro s
  have hFirst := hw s
  show v.Delivered fault s (a ++ b) (EStateM.bind w (fun _ => w') s)
  unfold EStateM.bind
  cases hRun : w s with
  | ok u s₁ =>
    rw [hRun] at hFirst
    exact hFirst.after_whole (hw' s₁)
  | error failure s₁ =>
    rw [hRun] at hFirst
    exact hFirst.of_cut

/-- Flushing comes after all of the bytes, and not at all after a part of them. -/
theorem Transmits.flush (hw : Transmits v fault w a) (sink : Sink σ) (s : σ) :
    (∃ s', v.Delivered fault s a (.ok () s') ∧
      (w >>= fun _ => Writer.flush sink) s = settle (sink.flush s')) ∨
      ∃ failure s', v.Delivered fault s a (.error failure s') ∧
        (w >>= fun _ => Writer.flush sink) s = .error failure s' := by
  have hEnd := hw s
  have hRun : (w >>= fun _ => Writer.flush sink) s =
      EStateM.bind w (fun _ => Writer.flush sink) s := rfl
  rw [hRun, EStateM.bind]
  cases hWrites : w s with
  | ok u s' =>
    rw [hWrites] at hEnd
    exact Or.inl ⟨s', hEnd, rfl⟩
  | error failure s' =>
    rw [hWrites] at hEnd
    exact Or.inr ⟨failure, s', hEnd, rfl⟩

theorem transmits_writePieces (h : sink.Falters v fault) (pieces : List String) :
    Transmits v fault (writePieces sink pieces) (Text.encode (String.join pieces)) := by
  induction pieces with
  | nil => exact transmits_pure
  | cons piece more ih =>
    rw [String.join_cons, Text.encode_append]
    exact Transmits.bind (fun s => h.delivered s (Text.encode piece)) ih

end Writer

/-! ## Pages -/

namespace Markup

open ControlFlow (FlowGraph extract)
open Dot (Document Options)
open Writer

theorem exists_map_some {α β : Type} {f : α → Option β} {as : List α}
    (h : ∀ a ∈ as, (f a).isSome) : ∃ bs : List β, as.map f = bs.map some := by
  induction as with
  | nil => exact ⟨[], rfl⟩
  | cons a more ih =>
    obtain ⟨b, hb⟩ := Option.isSome_iff_exists.1 (h a List.mem_cons_self)
    obtain ⟨bs, hbs⟩ := ih fun later hMem => h later (List.mem_cons_of_mem a hMem)
    exact ⟨b :: bs, by rw [List.map_cons, hb, hbs, List.map_cons]⟩

namespace Page

variable {σ : Type} {sink : Sink σ} {v : Sink.View σ} {fault : Fault}

/-- What is to arrive of a page with some markup on it. -/
def bytes (around : Fragments) (text : String) : Bytes :=
  around.header ++ Text.encode text ++ around.footer

/-- How a page is written to an output with a given room: a page for which there is room arrives
whole, and the run ends as the output answers to being flushed; of a longer one there arrives just
what there was room for, and the run ends with the fault of the output. -/
structure WholeOrCut {α : Type} (sink : Sink σ) (v : Sink.View σ) (fault : Fault) (s : σ) (n : Nat)
    (page : Bytes) (a : α) (result : EStateM.Result Failure σ α) : Prop where
  cut : n < page.length → ∃ s', result = .error (.output fault) s' ∧
    v.arrived s' = v.arrived s ++ page.take n
  whole : page.length ≤ n → ∃ s', v.arrived s' = v.arrived s ++ page ∧
    v.arrived (sink.flush s').2 = v.arrived s ++ page ∧
    result = match sink.flush s' with
      | (none, s'') => .ok a s''
      | (some refusal, s'') => .error (.output refusal) s''

theorem wholeOrCut_flush (h : sink.Falters v fault) {w : Writer σ Unit} {page : Bytes} {s : σ}
    {n : Nat} (hw : Transmits v fault w page) (hRoom : v.room s = some n) :
    WholeOrCut sink v fault s n page () ((w >>= fun _ => Writer.flush sink) s) := by
  rcases hw.flush sink s with ⟨s', hEnd, hRun⟩ | ⟨failure, s', hEnd, hRun⟩
  · cases hEnd with
    | whole hFits hArrived hLeft =>
      have hLe := hFits n hRoom
      refine ⟨fun hLt => by omega, fun _ => ⟨s', hArrived, (h.flush s').trans hArrived, ?_⟩⟩
      rw [hRun]
      unfold settle
      rcases sink.flush s' with ⟨_ | refusal, s''⟩ <;> rfl
  · cases hEnd with
    | cut hFull hLt hArrived =>
      obtain rfl : n = _ := Option.some.inj (hRoom.symm.trans hFull)
      exact ⟨fun _ => ⟨s', hRun, hArrived⟩, fun hLe => by omega⟩

/-- A failure is the same whatever the run was to give, and so is what has arrived. -/
theorem WholeOrCut.giving {α : Type} {s : σ} {n : Nat} {page : Bytes}
    {result : EStateM.Result Failure σ Unit} (h : WholeOrCut sink v fault s n page () result)
    (a : α) : WholeOrCut sink v fault s n page a (Writer.giving a result) where
  cut hLt := by
    obtain ⟨s', rfl, hArrived⟩ := h.cut hLt
    exact ⟨s', rfl, hArrived⟩
  whole hLe := by
    obtain ⟨s', hArrived, hFlushed, rfl⟩ := h.whole hLe
    refine ⟨s', hArrived, hFlushed, ?_⟩
    rcases sink.flush s' with ⟨_ | refusal, s''⟩ <;> rfl

/-- Around some markup a page has a header and a footer. -/
theorem transmits_around (h : sink.Falters v fault) (around : Fragments) {w : Writer σ Unit}
    {text : String} (hw : Transmits v fault w (Text.encode text)) :
    Transmits v fault
      (writeBytes sink around.header >>= fun _ => w >>= fun _ => writeBytes sink around.footer)
      (bytes around text) := by
  have hBody := hw.bind fun s => h.delivered s around.footer
  have hPage := Transmits.bind (fun s => h.delivered s around.header) hBody
  rwa [← List.append_assoc] at hPage

theorem transmits_functions (h : sink.Falters v fault) {fs : List FlowGraph} {texts : List String}
    (hTexts : fs.map functionText? = texts.map some) :
    Transmits v fault (fs.forM (writeFunction sink)) (Text.encode (String.join texts)) := by
  induction fs generalizing texts with
  | nil =>
    obtain rfl := List.map_eq_nil_iff.1 hTexts.symm
    exact transmits_pure
  | cons f more ih =>
    obtain ⟨text, rest, rfl, hText, hRest⟩ := List.map_eq_cons_iff.1 hTexts.symm
    obtain ⟨pieces, hPieces, rfl⟩ := Option.map_eq_some_iff.1 hText.symm
    have hFirst : writeFunction sink f = writePieces sink pieces := by
      rw [writeFunction, hPieces]
      rfl
    rw [String.join_cons, Text.encode_append]
    exact Transmits.bind (hFirst ▸ transmits_writePieces h pieces) (ih hRest.symm)

theorem isSome_functionText? {f : FlowGraph} (hShown : f.Shown) : (functionText? f).isSome := by
  rw [functionText?, Option.isSome_map]
  exact hShown.markup

/-- The functions on a page stand between its header and its footer. -/
theorem writeFunctions_eq (sink : Sink σ) (around : Fragments) (fs : List FlowGraph) :
    writeFunctions sink around fs =
      (writeBytes sink around.header >>= fun _ => fs.forM (writeFunction sink) >>= fun _ =>
        writeBytes sink around.footer) >>= fun _ => flush sink := by
  simp only [writeFunctions, bind_assoc]

theorem writeGraph_eq (sink : Sink σ) (around : Fragments) {g : Graph} {pieces : List String}
    (hPieces : documentPieces? g = some pieces) :
    writeGraph sink around g =
      (writeBytes sink around.header >>= fun _ => writePieces sink pieces >>= fun _ =>
        writeBytes sink around.footer) >>= fun _ => flush sink := by
  simp only [writeGraph, hPieces, writePieces?, bind_assoc]

/-- A page with a graph read from a document, with the functions of a listing, or with the functions
as they are completed, arrives whole or is cut where the room of the output ends. -/
theorem page_whole_or_cut (h : sink.Falters v fault) (around : Fragments) {s : σ} {n : Nat}
    (hRoom : v.room s = some n) :
    (∀ (options : Options) (source : String), ∃ text,
      documentText? (Document.ofText options source).graph = some text ∧
        WholeOrCut sink v fault s n (bytes around text) ()
          (writeGraph sink around (Document.ofText options source).graph s)) ∧
      ∀ source : String, ∃ texts : List String,
        (extract source).functions.map functionText? = texts.map some ∧
          WholeOrCut sink v fault s n (bytes around (String.join texts)) ()
            (writeFunctions sink around (extract source).functions s) ∧
          WholeOrCut sink v fault s n (bytes around (String.join texts))
            (extract source).diagnostics (writeListing sink around source s) := by
  refine ⟨fun options source => ?_, fun source => ?_⟩
  · let g := (Document.ofText options source).graph
    have hg : g.WellFormed := Document.wellFormed_ofTokens _ _
    obtain ⟨pieces, hPieces, hText⟩ := hg.shown.exists_pieces
    refine ⟨String.join pieces, hText, ?_⟩
    rw [writeGraph_eq sink around hPieces]
    exact wholeOrCut_flush h (transmits_around h around (transmits_writePieces h pieces)) hRoom
  · have hShown : ∀ f ∈ (extract source).functions, f.Shown := fun f hf =>
      ControlFlow.FlowGraph.shown_of_graph (FlowGraph.wellFormed_of_mem_extract hf).graph
    obtain ⟨texts, hTexts⟩ := exists_map_some fun f hf => isSome_functionText? (hShown f hf)
    have hFunctions : WholeOrCut sink v fault s n (bytes around (String.join texts)) ()
        (writeFunctions sink around (extract source).functions s) := by
      rw [writeFunctions_eq]
      exact wholeOrCut_flush h (transmits_around h around (transmits_functions h hTexts)) hRoom
    refine ⟨texts, hTexts, hFunctions, ?_⟩
    rw [writeListing_apply]
    exact hFunctions.giving _

/-- An output has room for the header alone and refuses the first write after it. Although it would
take more, nothing of the two functions and no footer comes after. -/
theorem page_cut_after_header :
    (Sink.faltering (.refused "closed") none).Falters Sink.Faltering.view (.refused "closed") ∧
      Sink.Faltering.view.room { room := some 3 } = some 3 ∧
      ∃ s', writeListing (Sink.faltering (.refused "closed") none)
          ⟨Text.encode "<H>", Text.encode "<F>"⟩ "define void @f()\n  ret void\ndefine void @g()\n"
          { room := some 3 } = .error (.output (.refused "closed")) s' ∧
        Sink.Faltering.view.arrived s' = Text.encode "<H>" := by
  have h := Sink.falters_faltering (.refused "closed") none
  have hHeader : (Text.encode "<H>").length = 3 := by decide
  have hFooter : (Text.encode "<F>").length = 3 := by decide
  obtain ⟨-, hListing⟩ := page_whole_or_cut h ⟨Text.encode "<H>", Text.encode "<F>"⟩
    (s := { room := some 3 }) (n := 3) rfl
  obtain ⟨texts, -, -, hPage⟩ :=
    hListing "define void @f()\n  ret void\ndefine void @g()\n"
  obtain ⟨s', hRun, hArrived⟩ := hPage.cut (by simp only [bytes, List.length_append]; omega)
  refine ⟨h, rfl, s', hRun, ?_⟩
  rw [hArrived, bytes, List.append_assoc, List.take_left' hHeader]
  rfl

end Page

end Markup

end GraphMarkup
