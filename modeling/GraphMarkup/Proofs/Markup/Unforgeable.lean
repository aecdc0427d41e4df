import GraphMarkup.Proofs.FrontEnds
import GraphMarkup.Proofs.Markup.Delivery

/-!
# What markup tells

Names and labels come from outside and may hold anything, also what looks like markup. Markup that
is the same all the same shows the same: it can be taken apart from the front, because every part
of it tells where it ends and what it is of.

* An escaped text ends at the first character that no escaped text holds (`escape_append_inj`).
* A list of parts ends where something follows that no part begins (`SelfDelimiting.join_inj`), such
  as the blank line between the vertices and the edges of a group.
* From the elements of a graph its ids, labels, endings and edges can be read off
  (`Group.ofGraph?_inj`). The names of vertices that are numbered cannot, and in what order the
  blocks of a function were marked cannot either.
-/

namespace GraphMarkup

open ControlFlow (Terminator FlowGraph extract)
open Dot (Mode TokenStream Document)

namespace Markup

/-! ## Escaped texts -/

/-- Whether a character appears in no escaped text. -/
def isDelimiter (c : Char) : Bool := c == '<' || c == '>' || c == '"'

theorem all_escapeChar (c : Char) : (escapeChar c).all fun d => !isDelimiter d := by
  unfold escapeChar
  split
  case h_5 hAmp hLt hGt hQuot =>
    simp only [isDelimiter, List.all_cons, List.all_nil, Bool.and_true, Bool.not_or,
      Bool.and_eq_true, Bool.not_eq_true', beq_eq_false_iff_ne]
    exact ⟨⟨hLt, hGt⟩, hQuot⟩
  all_goals rfl

theorem all_escape (text : String) : (escape text).toList.all fun c => !isDelimiter c := by
  rw [escape_eq_escapeAll, escapeAll, String.toList_ofList, List.all_flatMap]
  exact List.all_eq_true.2 fun c _ => all_escapeChar c

/-- What a list with a boundary in it has in front of the boundary does not depend on what comes
after it. -/
theorem takeWhile_append_of_any {α : Type} {p : α → Bool} {xs : List α} (h : xs.any fun x => !p x)
    (rest : List α) : (xs ++ rest).takeWhile p = xs.takeWhile p := by
  induction xs with
  | nil => simp at h
  | cons x more ih =>
    rw [List.cons_append]
    cases hx : p x with
    | false =>
      have hNot : ¬ p x = true := by simp [hx]
      rw [List.takeWhile_cons_of_neg hNot, List.takeWhile_cons_of_neg hNot]
    | true =>
      rw [List.any_cons, hx, Bool.not_true, Bool.false_or] at h
      rw [List.takeWhile_cons_of_pos hx, List.takeWhile_cons_of_pos hx, ih h]

/-- In front of a separator with a delimiter in it, an escaped text tells where it ends and what it
was. -/
theorem escape_append_inj {s t rest rest' : String} (sep : String)
    (hSep : sep.toList.any isDelimiter)
    (h : escape s ++ (sep ++ rest) = escape t ++ (sep ++ rest')) : s = t ∧ rest = rest' := by
  let plain : Char → Bool := fun c => !isDelimiter c
  -- Both texts go up to the first delimiter, with the beginning of the separator behind them.
  have hUpTo : ∀ text after : String, (escape text ++ (sep ++ after)).toList.takeWhile plain =
      (escape text).toList ++ sep.toList.takeWhile plain := by
    intro text after
    rw [String.toList_append, String.toList_append,
      List.takeWhile_append_of_pos (List.all_eq_true.1 (all_escape text)),
      takeWhile_append_of_any (by simpa [plain] using hSep)]
  have hText : (escape s).toList ++ sep.toList.takeWhile plain =
      (escape t).toList ++ sep.toList.takeWhile plain := by
    rw [← hUpTo s rest, ← hUpTo t rest', h]
  have hEscaped : escape s = escape t := String.toList_inj.1 (List.append_cancel_right hText)
  rw [hEscaped, String.append_right_inj, String.append_right_inj] at h
  exact ⟨escape_inj.1 hEscaped, h⟩

/-! ## Texts with an end of their own -/

section SelfDelimiting

variable {α : Type} {write : α → String}

/-- A way to write values from which a value and its end can be told, whatever comes next. -/
def SelfDelimiting (write : α → String) : Prop :=
  ∀ a b rest rest', write a ++ rest = write b ++ rest' → a = b ∧ rest = rest'

/-- Values one after another tell how many they are if what comes next begins like none of them. -/
theorem SelfDelimiting.join_inj (h : SelfDelimiting write) {rest rest' : String}
    (hRest : ∀ a after, write a ++ after ≠ rest) (hRest' : ∀ a after, write a ++ after ≠ rest')
    {as bs : List α}
    (hEq : String.join (as.map write) ++ rest = String.join (bs.map write) ++ rest') :
    as = bs ∧ rest = rest' := by
  induction as generalizing bs with
  | nil =>
    cases bs with
    | nil => simpa using hEq
    | cons b bs =>
      rw [List.map_cons, String.join_cons, String.append_assoc] at hEq
      exact absurd (by simpa using hEq.symm) (hRest b _)
  | cons a as ih =>
    rw [List.map_cons, String.join_cons, String.append_assoc] at hEq
    cases bs with
    | nil => exact absurd (by simpa using hEq) (hRest' a _)
    | cons b bs =>
      rw [List.map_cons, String.join_cons, String.append_assoc] at hEq
      obtain ⟨rfl, hMore⟩ := h a b _ _ hEq
      obtain ⟨rfl, hLast⟩ := ih hMore
      exact ⟨rfl, hLast⟩

theorem join_flatMap (pieces : α → List String) (as : List α) :
    String.join (as.flatMap pieces) = String.join (as.map fun a => String.join (pieces a)) := by
  induction as with
  | nil => rfl
  | cons a more ih =>
    rw [List.flatMap_cons, String.join_append, List.map_cons, String.join_cons, ih]

end SelfDelimiting

/-! ## Elements -/

/-- The word for an ending is written as it is, which is how it would be escaped. -/
theorem escape_word (t : Terminator) : escape t.word = t.word := by
  cases t <;> decide

theorem word_inj {t u : Terminator} (h : t.word = u.word) : t = u := by
  have hRead := Terminator.ofWord?_word t
  rw [h, Terminator.ofWord?_word] at hRead
  exact (Option.some.inj hRead).symm

namespace VertexElement

def text (v : VertexElement) : String := String.join v.pieces

theorem text_plain (id label rest : String) : (plain id label).text ++ rest =
    "  <text id=\"" ++ (escape id ++ ("\">" ++ (escape label ++ ("</text>\n" ++ rest)))) := by
  simp only [text, pieces, String.join_cons, String.join_nil, String.append_assoc,
    String.empty_append]

theorem text_annotated (id label : String) (t : Terminator) (rest : String) :
    (annotated id label t).text ++ rest =
      "  <g id=\"" ++ (escape id ++ ("\" class=\"vlayout\">\n" ++ ("    <text>" ++ (escape label ++
        (":</text>\n" ++ ("    <text>&nbsp;&nbsp;" ++ (escape t.word ++
          ("</text>\n" ++ ("  </g>\n" ++ rest))))))))) := by
  simp only [text, pieces, escape_word, String.join_cons, String.join_nil, String.append_assoc,
    String.empty_append]

/-- The two kinds of element open with different tags. -/
theorem plain_ne_annotated (id id' label label' : String) (t : Terminator) (rest rest' : String) :
    (plain id label).text ++ rest ≠ (annotated id' label' t).text ++ rest' := by
  intro h
  rw [text_plain, text_annotated] at h
  have hChars := congrArg String.toList h
  simp at hChars

theorem selfDelimiting : SelfDelimiting text := by
  intro v w rest rest' h
  cases v with
  | plain id label =>
    cases w with
    | plain id' label' =>
      rw [text_plain, text_plain, String.append_right_inj] at h
      obtain ⟨rfl, hLabel⟩ := escape_append_inj "\">" (by decide) h
      obtain ⟨rfl, hRest⟩ := escape_append_inj "</text>\n" (by decide) hLabel
      exact ⟨rfl, hRest⟩
    | annotated id' label' t' => exact absurd h (plain_ne_annotated _ _ _ _ _ _ _)
  | annotated id label t =>
    cases w with
    | plain id' label' => exact absurd h.symm (plain_ne_annotated _ _ _ _ _ _ _)
    | annotated id' label' t' =>
      rw [text_annotated, text_annotated, String.append_right_inj] at h
      obtain ⟨rfl, hLabel⟩ := escape_append_inj "\" class=\"vlayout\">\n" (by decide) h
      rw [String.append_right_inj] at hLabel
      obtain ⟨rfl, hEnding⟩ := escape_append_inj ":</text>\n" (by decide) hLabel
      rw [String.append_right_inj] at hEnding
      obtain ⟨hWord, hRest⟩ := escape_append_inj "</text>\n" (by decide) hEnding
      rw [String.append_right_inj] at hRest
      rw [word_inj hWord]
      exact ⟨rfl, hRest⟩

end VertexElement

namespace PathElement

def text (p : PathElement) : String := String.join p.pieces

theorem text_append (p : PathElement) (rest : String) : p.text ++ rest =
    "  <path class=\"edge\" src=\"" ++ (escape p.src ++ ("\" dst=\"" ++ (escape p.dst ++
      ("\"/>\n" ++ rest)))) := by
  simp only [text, pieces, String.join_cons, String.join_nil, String.append_assoc,
    String.empty_append]

theorem selfDelimiting : SelfDelimiting text := by
  intro p q rest rest' h
  rw [text_append, text_append, String.append_right_inj] at h
  obtain ⟨hSrc, hDst⟩ := escape_append_inj "\" dst=\"" (by decide) h
  obtain ⟨hDst, hRest⟩ := escape_append_inj "\"/>\n" (by decide) hDst
  cases p
  cases q
  obtain rfl := hSrc
  obtain rfl := hDst
  exact ⟨rfl, hRest⟩

end PathElement

namespace Group

def text (group : Group) : String := String.join group.pieces

theorem text_append (group : Group) (rest : String) : group.text ++ rest =
    "<g class=\"layout\">\n" ++ (String.join (group.vertices.map VertexElement.text) ++
      ("\n" ++ (String.join (group.paths.map PathElement.text) ++ ("</g>\n" ++ rest)))) := by
  simp only [text, pieces, String.join_cons, String.join_append, join_flatMap, String.join_nil,
    List.cons_append, String.append_assoc, String.empty_append]
  rfl

theorem vertex_ne_blank (v : VertexElement) (rest rest' : String) :
    v.text ++ rest ≠ "\n" ++ rest' := by
  intro h
  have hChars := congrArg String.toList h
  cases v with
  | plain id label => simp [VertexElement.text_plain] at hChars
  | annotated id label t => simp [VertexElement.text_annotated] at hChars

theorem path_ne_end (p : PathElement) (rest rest' : String) :
    p.text ++ rest ≠ "</g>\n" ++ rest' := by
  intro h
  have hChars := congrArg String.toList h
  simp [PathElement.text_append] at hChars

theorem selfDelimiting : SelfDelimiting text := by
  intro group group' rest rest' h
  rw [text_append, text_append, String.append_right_inj] at h
  -- No vertex begins with the blank line that follows, and no path with the end of the group.
  obtain ⟨hVertices, hPaths⟩ := VertexElement.selfDelimiting.join_inj
    (fun v _ => vertex_ne_blank v _ _) (fun v _ => vertex_ne_blank v _ _) h
  rw [String.append_right_inj] at hPaths
  obtain ⟨hPaths, hRest⟩ := PathElement.selfDelimiting.join_inj
    (fun p _ => path_ne_end p _ _) (fun p _ => path_ne_end p _ _) hPaths
  rw [String.append_right_inj] at hRest
  cases group
  cases group'
  obtain rfl := hVertices
  obtain rfl := hPaths
  exact ⟨rfl, hRest⟩

end Group

/-! ## Functions -/

/-- What is shown of a function: its name, and the group of its blocks. -/
structure Surface where
  name : String
  group : Group

namespace Surface

def ofFunction? (f : FlowGraph) : Option Surface := (Group.ofFunction? f).map (⟨f.name, ·⟩)

/-- What opens the square that a function is drawn in. -/
def opening : List String :=
  let side := toString surfaceSize
  ["<svg width=\"", side, "\" height=\"", side, "\" viewBox=\"0 0 ", side, " ", side, "\">\n"]

def pieces (d : Surface) : List String :=
  ["\n", "<h2>", escape d.name, "</h2>\n"] ++ opening ++ d.group.pieces ++ ["</svg>\n"]

def text (d : Surface) : String := String.join d.pieces

theorem functionText?_eq (f : FlowGraph) : functionText? f = (ofFunction? f).map text := by
  rw [functionText?, functionPieces?, ofFunction?]
  cases Group.ofFunction? f with
  | none => rfl
  | some group => rfl

theorem text_append (d : Surface) (rest : String) : d.text ++ rest =
    "\n" ++ ("<h2>" ++ (escape d.name ++ ("</h2>\n" ++ (String.join opening ++
      (d.group.text ++ ("</svg>\n" ++ rest)))))) := by
  simp only [text, pieces, Group.text, String.join_cons, String.join_append, String.join_nil,
    String.append_assoc, String.empty_append]

theorem selfDelimiting : SelfDelimiting text := by
  intro d e rest rest' h
  rw [text_append, text_append, String.append_right_inj, String.append_right_inj] at h
  obtain ⟨hName, hGroup⟩ := escape_append_inj "</h2>\n" (by decide) h
  rw [String.append_right_inj] at hGroup
  obtain ⟨hGroup, hRest⟩ := Group.selfDelimiting _ _ _ _ hGroup
  rw [String.append_right_inj] at hRest
  cases d
  cases e
  obtain rfl := hName
  obtain rfl := hGroup
  exact ⟨rfl, hRest⟩

theorem join_text_inj {ds es : List Surface}
    (h : String.join (ds.map text) = String.join (es.map text)) : ds = es := by
  have hSome : ∀ (d : Surface) (after : String), d.text ++ after ≠ "" := by
    intro d after hEmpty
    have hChars := congrArg String.toList hEmpty
    simp [text_append] at hChars
  exact (selfDelimiting.join_inj hSome hSome (congrArg (· ++ "") h)).1

end Surface

end Markup

/-! ## From elements to graphs -/

section Edges

variable {α β : Type}

theorem mapM_inj {f : α → Option β} (hf : ∀ a b c, f a = some c → f b = some c → a = b)
    {as bs : List α} {cs : List β} (ha : as.mapM f = some cs) (hb : bs.mapM f = some cs) :
    as = bs := by
  rw [mapM_eq_some_iff] at ha hb
  induction cs generalizing as bs with
  | nil => rw [List.map_eq_nil_iff.1 ha, List.map_eq_nil_iff.1 hb]
  | cons c more ih =>
    obtain ⟨a, as, rfl, hac, ha⟩ := List.map_eq_cons_iff.1 ha
    obtain ⟨b, bs, rfl, hbc, hb⟩ := List.map_eq_cons_iff.1 hb
    rw [hf a b c hac hbc, ih ha hb]

/-- In a list without repeats, entries at its ends tell which edge it was. -/
theorem Edge.ends?_inj {xs : List α} (hDistinct : xs.Nodup) {e e' : Edge} {pair : α × α}
    (he : e.ends? xs = some pair) (he' : e'.ends? xs = some pair) : e = e' := by
  obtain ⟨hSrc, hDst⟩ := (Edge.isSome_ends? e xs).1 (he ▸ rfl)
  obtain ⟨hSrc', hDst'⟩ := (Edge.isSome_ends? e' xs).1 (he' ▸ rfl)
  rw [Edge.ends?_eq_some hSrc hDst] at he
  rw [Edge.ends?_eq_some hSrc' hDst', ← he, Option.some.injEq, Prod.mk.injEq,
    hDistinct.getElem_inj_iff, hDistinct.getElem_inj_iff] at he'
  cases e
  cases e'
  obtain ⟨rfl, rfl⟩ := he'
  rfl

end Edges

theorem Graph.vertices_ext {g h : Graph} (hNames : g.names = h.names)
    (hLabels : g.vertices.map (·.label) = h.vertices.map (·.label)) : g.vertices = h.vertices := by
  have hOf : ∀ vs : List Vertex,
      List.zipWith Vertex.mk (vs.map (·.name)) (vs.map (·.label)) = vs := fun vs => by
    simp [List.zipWith_map]
  rw [← hOf g.vertices, ← hOf h.vertices, ← Graph.names, hNames, hLabels, Graph.names]

namespace Markup

def VertexElement.label : VertexElement → String
  | .plain _ label => label
  | .annotated _ label _ => label

def VertexElement.ending? : VertexElement → Option Terminator
  | .plain _ _ => none
  | .annotated _ _ t => some t

section OfVertex

variable (ending? : String → Option Terminator)

theorem VertexElement.label_ofVertex (id : String) (v : Vertex) :
    (ofVertex ending? id v).label = v.label := by
  unfold ofVertex
  cases ending? v.name <;> rfl

theorem VertexElement.ending?_ofVertex (id : String) (v : Vertex) :
    (ofVertex ending? id v).ending? = ending? v.name := by
  unfold ofVertex
  cases ending? v.name <;> rfl

/-- What can be read off each element, whatever its id, can be read off the vertices. -/
theorem map_zipWith_ofVertex {β : Type} {read : VertexElement → β} {of : Vertex → β}
    (h : ∀ id v, read (VertexElement.ofVertex ending? id v) = of v) (g : Graph) (style : IdStyle) :
    (List.zipWith (VertexElement.ofVertex ending?) (g.ids style) g.vertices).map read =
      g.vertices.map of := by
  have hLength : (g.ids style).length = g.vertices.length := g.length_ids style
  apply List.ext_getElem
  · simp [hLength]
  · intro i hi hi'
    simp [h]

end OfVertex

/-- What the elements of two graphs that are shown alike have in common. -/
theorem Group.ofGraph?_inj {g h : Graph} {style : IdStyle}
    {ending? ending'? : String → Option Terminator} {group : Group} (hDistinct : g.names.Nodup)
    (hg : Group.ofGraph? g style ending? = some group)
    (hh : Group.ofGraph? h style ending'? = some group) :
    g.ids style = h.ids style ∧
      g.vertices.map (·.label) = h.vertices.map (·.label) ∧
      g.vertices.map (fun v => ending? v.name) = h.vertices.map (fun v => ending'? v.name) ∧
      g.edges = h.edges := by
  obtain ⟨pairs, hPairs, hGroup⟩ := Option.bind_eq_some_iff.1 hg
  obtain ⟨pairs', hPairs', hGroup'⟩ := Option.bind_eq_some_iff.1 hh
  obtain rfl := Option.some.inj hGroup
  obtain ⟨hVertices, hPaths⟩ := Group.mk.inj (Option.some.inj hGroup')
  have hIds : g.ids style = h.ids style := by
    rw [← map_id_zipWith ending? g style, ← hVertices, map_id_zipWith]
  have hPairsEq : pairs' = pairs := by
    refine List.map_injective_iff.2 ?_ hPaths
    rintro ⟨src, dst⟩ ⟨src', dst'⟩ hSame
    obtain ⟨rfl, rfl⟩ := PathElement.mk.inj hSame
    rfl
  refine ⟨hIds, ?_, ?_, ?_⟩
  · rw [← map_zipWith_ofVertex ending? (VertexElement.label_ofVertex ending?) g style, ← hVertices,
      map_zipWith_ofVertex ending'? (VertexElement.label_ofVertex ending'?)]
  · rw [← map_zipWith_ofVertex ending? (VertexElement.ending?_ofVertex ending?) g style,
      ← hVertices, map_zipWith_ofVertex ending'? (VertexElement.ending?_ofVertex ending'?)]
  · -- Ids do not repeat, also where names are the ids.
    rw [hPairsEq, Graph.edgeIds?, ← hIds] at hPairs'
    exact mapM_inj (fun _ _ _ => Edge.ends?_inj (Graph.nodup_ids hDistinct style)) hPairs hPairs'

/-- A document is told from its markup but for the names of its vertices. -/
theorem documentText?_inj {g h : Graph} {text : String} (hDistinct : g.names.Nodup)
    (hg : documentText? g = some text) (hh : documentText? h = some text) :
    g.vertices.map (·.label) = h.vertices.map (·.label) ∧ g.edges = h.edges := by
  obtain ⟨pieces, hPieces, rfl⟩ := Option.map_eq_some_iff.1 hg
  obtain ⟨group, hGroup, rfl⟩ := Option.map_eq_some_iff.1 hPieces
  obtain ⟨pieces', hPieces', hText⟩ := Option.map_eq_some_iff.1 hh
  obtain ⟨group', hGroup', rfl⟩ := Option.map_eq_some_iff.1 hPieces'
  obtain ⟨rfl, -⟩ := Group.selfDelimiting group' group "" "" (congrArg (· ++ "") hText)
  obtain ⟨-, hLabels, -, hEdges⟩ := Group.ofGraph?_inj hDistinct hGroup hGroup'
  exact ⟨hLabels, hEdges⟩

end Markup

/-! ## From surfaces to functions -/

namespace ControlFlow

namespace BlockEnds

/-- Where no block is marked twice, a mark is found under its block. -/
theorem get?_eq_some_iff {ends : BlockEnds} (hDistinct : (ends.map (·.1)).Nodup) {block : String}
    {t : Terminator} : ends.get? block = some t ↔ (block, t) ∈ ends := by
  induction ends with
  | nil => simp [get?]
  | cons first more ih =>
    obtain ⟨b, u⟩ := first
    obtain ⟨hNew, hMore⟩ := List.nodup_cons.1 hDistinct
    by_cases hBlock : block = b
    · subst hBlock
      have hOnce : (block, t) ∉ more := fun hMem => hNew (List.mem_map.2 ⟨_, hMem, rfl⟩)
      simp [get?, hOnce, eq_comm]
    · rw [List.mem_cons, Prod.mk.injEq, ← ih hMore]
      simp [get?, List.lookup_cons, beq_eq_false_iff_ne.2 hBlock, hBlock]

/-- Marks are known from the instruction of each block, but for their order. -/
theorem perm_of_get?_eq {ends others : BlockEnds} (hEnds : (ends.map (·.1)).Nodup)
    (hOthers : (others.map (·.1)).Nodup) (h : ∀ block, ends.get? block = others.get? block) :
    ends.Perm others := by
  refine (List.perm_ext_iff_of_nodup (.of_map _ hEnds) (.of_map _ hOthers)).2 ?_
  rintro ⟨block, t⟩
  rw [← get?_eq_some_iff hEnds, ← get?_eq_some_iff hOthers, h block]

end BlockEnds

namespace FlowGraph

theorem nodup_ends_of_mem_extract {source : String} {f : FlowGraph}
    (hf : f ∈ (extract source).functions) : (f.ends.map (·.1)).Nodup := by
  rw [functions_eq_segments] at hf
  obtain ⟨segment, -, rfl⟩ := List.mem_map.1 hf
  rw [(shows_ofSegment segment.1 segment.2).blocks]
  exact nodup_eraseDups _

def Extracted (f : FlowGraph) : Prop := ∃ source, f ∈ (extract source).functions

/-- The same function, in whatever order its blocks were marked. -/
structure Agrees (f g : FlowGraph) : Prop where
  name : f.name = g.name
  vertices : f.graph.vertices = g.graph.vertices
  edges : f.graph.edges = g.graph.edges
  ends : f.ends.Perm g.ends

open Markup in
/-- An extracted function is told from what is shown of it, but for the order of the marks. -/
theorem agrees_of_surface {f g : FlowGraph} {d : Surface} (hf : f.Extracted) (hg : g.Extracted)
    (hShown : Surface.ofFunction? f = some d) (hShown' : Surface.ofFunction? g = some d) :
    f.Agrees g := by
  obtain ⟨source, hf⟩ := hf
  obtain ⟨source', hg⟩ := hg
  have hwf := wellFormed_of_mem_extract hf
  have hwg := wellFormed_of_mem_extract hg
  obtain ⟨group, hGroup, rfl⟩ := Option.map_eq_some_iff.1 hShown
  obtain ⟨group', hGroup', hSame⟩ := Option.map_eq_some_iff.1 hShown'
  obtain ⟨hName, rfl⟩ := Surface.mk.inj hSame
  obtain ⟨hIds, hLabels, hEndings, hEdges⟩ :=
    Group.ofGraph?_inj hwf.graph.distinct hGroup hGroup'
  rw [Graph.ids_name, Graph.ids_name] at hIds
  have hVertices : f.graph.vertices = g.graph.vertices := Graph.vertices_ext hIds hLabels
  refine ⟨hName.symm, hVertices, hEdges, ?_⟩
  refine BlockEnds.perm_of_get?_eq (nodup_ends_of_mem_extract hf) (nodup_ends_of_mem_extract hg)
    fun block => ?_
  -- The ending of a block that is no vertex would not be shown, but there is none.
  by_cases hBlock : block ∈ f.graph.names
  · obtain ⟨v, hv, rfl⟩ := List.mem_map.1 hBlock
    rw [← hVertices] at hEndings
    exact List.map_inj_left.1 hEndings v hv
  · rw [BlockEnds.get?_eq_none (mt (hwf.blocks block) hBlock),
      BlockEnds.get?_eq_none (mt (hwg.blocks block) (hIds ▸ hBlock))]

open Markup in
theorem forall₂_agrees {fs gs : List FlowGraph} {ds : List Surface}
    (hfs : ∀ f ∈ fs, f.Extracted) (hgs : ∀ g ∈ gs, g.Extracted)
    (hShown : fs.map Surface.ofFunction? = ds.map some)
    (hShown' : gs.map Surface.ofFunction? = ds.map some) : List.Forall₂ Agrees fs gs := by
  induction ds generalizing fs gs with
  | nil =>
    obtain rfl := List.map_eq_nil_iff.1 hShown
    obtain rfl := List.map_eq_nil_iff.1 hShown'
    exact .nil
  | cons d more ih =>
    obtain ⟨f, fs, rfl, hf, hMore⟩ := List.map_eq_cons_iff.1 hShown
    obtain ⟨g, gs, rfl, hg, hMore'⟩ := List.map_eq_cons_iff.1 hShown'
    obtain ⟨hfFirst, hfs⟩ := List.forall_mem_cons.1 hfs
    obtain ⟨hgFirst, hgs⟩ := List.forall_mem_cons.1 hgs
    exact .cons (agrees_of_surface hfFirst hgFirst hf hg) (ih hfs hgs hMore hMore')

end FlowGraph

end ControlFlow

/-! ## Pages -/

namespace Markup

namespace Surface

theorem exists_surfaces {fs : List FlowGraph} (hExtracted : ∀ f ∈ fs, f.Extracted) :
    ∃ ds : List Surface, fs.map ofFunction? = ds.map some := by
  refine exists_map_some fun f hf => ?_
  obtain ⟨source, hSource⟩ := hExtracted f hf
  have hGraph := (FlowGraph.wellFormed_of_mem_extract hSource).graph
  have hText := Page.isSome_functionText? (FlowGraph.shown_of_graph hGraph)
  rwa [functionText?_eq, Option.isSome_map] at hText

theorem map_functionText? {fs : List FlowGraph} {ds : List Surface}
    (h : fs.map ofFunction? = ds.map some) : fs.map functionText? = (ds.map text).map some := by
  have hText : functionText? = Option.map text ∘ ofFunction? := funext functionText?_eq
  rw [hText, ← List.map_map, h, List.map_map, List.map_map]
  rfl

end Surface

namespace Page

/-- Where there is room for everything, a page of functions arrives. -/
theorem exists_page (around : Fragments) {fs : List FlowGraph} {texts : List String}
    (hTexts : fs.map functionText? = texts.map some) :
    ∃ page, writeFunctions Sink.recorder around fs #[] = .ok () page ∧
      page.toList = bytes around (String.join texts) := by
  have h := Sink.falters_recorder .wroteNothing
  have hPage := transmits_around h around (transmits_functions h hTexts)
  rw [writeFunctions_eq]
  rcases hPage.flush Sink.recorder #[] with ⟨page, hEnd, hRun⟩ | ⟨failure, page, hEnd, hRun⟩
  · cases hEnd with
    | whole hFits hArrived => exact ⟨page, hRun, hArrived⟩
  · cases hEnd with
    | cut hRoom => cases hRoom

/-- Whatever names and labels hold, a document is told from its markup but for the names of its
vertices, and functions are told from the page they are on but for the order in which their blocks
were marked. -/
theorem markup_unforgeable :
    (∀ (mode mode' : Mode) (tokens tokens' : TokenStream), ∃ text text',
      documentText? (Document.ofTokens mode tokens).graph = some text ∧
        documentText? (Document.ofTokens mode' tokens').graph = some text' ∧
          (text = text' →
            (Document.ofTokens mode tokens).graph.vertices.map (·.label) =
                (Document.ofTokens mode' tokens').graph.vertices.map (·.label) ∧
              (Document.ofTokens mode tokens).graph.edges =
                (Document.ofTokens mode' tokens').graph.edges)) ∧
      ∀ (around : Fragments) (fs gs : List FlowGraph),
        (∀ f ∈ fs, f.Extracted) → (∀ g ∈ gs, g.Extracted) → ∃ page page',
          writeFunctions Sink.recorder around fs #[] = .ok () page ∧
            writeFunctions Sink.recorder around gs #[] = .ok () page' ∧
              (page = page' → List.Forall₂ FlowGraph.Agrees fs gs) := by
  refine ⟨fun mode mode' tokens tokens' => ?_, fun around fs gs hfs hgs => ?_⟩
  · have hg := Document.wellFormed_ofTokens mode tokens
    have hh := Document.wellFormed_ofTokens mode' tokens'
    obtain ⟨_, -, hText⟩ := hg.shown.exists_pieces
    obtain ⟨_, -, hText'⟩ := hh.shown.exists_pieces
    exact ⟨_, _, hText, hText', fun hSame => documentText?_inj hg.distinct hText (hSame ▸ hText')⟩
  · obtain ⟨ds, hds⟩ := Surface.exists_surfaces hfs
    obtain ⟨es, hes⟩ := Surface.exists_surfaces hgs
    obtain ⟨page, hPage, hBytes⟩ := exists_page around (Surface.map_functionText? hds)
    obtain ⟨page', hPage', hBytes'⟩ := exists_page around (Surface.map_functionText? hes)
    refine ⟨page, page', hPage, hPage', fun hSame => ?_⟩
    rw [hSame, hBytes', bytes, bytes, List.append_left_inj, List.append_right_inj] at hBytes
    obtain rfl := Surface.join_text_inj (Text.encode_injective hBytes)
    exact FlowGraph.forall₂_agrees hfs hgs hds hes

/-- There are different documents that look the same, with other names for their vertices, and
different listings on the same page, with blocks marked in another order. -/
theorem markup_alike :
    (∃ source source' : String,
      (Document.ofText {} source).graph ≠ (Document.ofText {} source').graph ∧ ∃ text,
        documentText? (Document.ofText {} source).graph = some text ∧
          documentText? (Document.ofText {} source').graph = some text ∧
            (Document.ofText {} source).graph.vertices.map (·.label) =
              (Document.ofText {} source').graph.vertices.map (·.label)) ∧
      ∃ source source' : String, (extract source).functions ≠ (extract source').functions ∧ ∃ page,
        writeFunctions Sink.recorder ⟨[], []⟩ (extract source).functions #[] = .ok () page ∧
          writeFunctions Sink.recorder ⟨[], []⟩ (extract source').functions #[] = .ok () page ∧
            List.Forall₂ FlowGraph.Agrees (extract source).functions
              (extract source').functions := by
  obtain ⟨hDocuments, hFunctions⟩ := markup_unforgeable
  constructor
  · refine ⟨"digraph D \x7b a [label=\"<b> & c\"]; \x7d",
      "digraph D \x7b d [label=\"<b> & c\"]; \x7d", by decide +kernel, ?_⟩
    obtain ⟨text, text', hText, hText', hSame⟩ := hDocuments .recover .recover
      (TokenStream.ofText .extended "digraph D \x7b a [label=\"<b> & c\"]; \x7d")
      (TokenStream.ofText .extended "digraph D \x7b d [label=\"<b> & c\"]; \x7d")
    have hEq : some text = some text' := by
      rw [← hText, ← hText']
      decide +kernel
    obtain rfl := Option.some.inj hEq
    exact ⟨text, hText, hText', (hSame rfl).1⟩
  · refine ⟨"define @f()\na:\nb:\n ret\na:\n ret", "define @f()\na:\n ret\nb:\n ret",
      by decide +kernel, ?_⟩
    let fs := (extract "define @f()\na:\nb:\n ret\na:\n ret").functions
    let gs := (extract "define @f()\na:\n ret\nb:\n ret").functions
    have hfs : ∀ f ∈ fs, f.Extracted := fun f hf => ⟨_, hf⟩
    have hgs : ∀ g ∈ gs, g.Extracted := fun g hg => ⟨_, hg⟩
    obtain ⟨page, page', hPage, hPage', hSame⟩ := hFunctions ⟨[], []⟩ fs gs hfs hgs
    have hTexts : fs.map functionText? = gs.map functionText? := by decide +kernel
    obtain ⟨ds, hds⟩ := Surface.exists_surfaces hfs
    have hText := Surface.map_functionText? hds
    obtain ⟨_, hRun, hBytes⟩ := exists_page ⟨[], []⟩ hText
    obtain ⟨_, hRun', hBytes'⟩ := exists_page ⟨[], []⟩ (hTexts.symm.trans hText)
    cases hPage.symm.trans hRun
    cases hPage'.symm.trans hRun'
    obtain rfl := Array.toList_inj.1 (hBytes.trans hBytes'.symm)
    exact ⟨page, hPage, hPage', hSame rfl⟩

end Page

end Markup

end GraphMarkup
