import GraphMarkup.Proofs.Markup.Unforgeable

/-!
# Markup and JSON of one graph

A graph is shown as markup or as JSON. The two are written from the graph independently of each
other: markup asks for the ending of each vertex in turn, JSON has all endings of a function in one
object. They tell the same, item by item (`SameGraph`, `SameFunction`): the items of the JSON lists
and the elements of the group come in the same order, with the same ids and labels, and the blocks
that are drawn with an instruction are the ones that the object of endings has a field for. The last
needs that every block with an ending is a vertex, or its field would have no element.

Ids that are numbered are written in markup as they are (`escape_of_mem_ids`); names are escaped.
-/

namespace GraphMarkup

open ControlFlow (Terminator BlockEnds FlowGraph extract)
open Dot (Document Options)

/-! ## Fields of JSON objects -/

namespace Json

/-- Of fields with one name the last one is found. -/
theorem Fields.get?_sorted (fs : Fields) (name : String) :
    fs.sorted.get? name = Fields.get? fs.reverse name := by
  unfold sorted
  induction fs using List.reverseRecOn with
  | nil => rfl
  | append_singleton fs field ih =>
    obtain ⟨key, v⟩ := field
    rw [List.foldl_append, List.foldl_cons, List.foldl_nil, get?_insert, ih,
      List.reverse_append, List.reverse_singleton, List.singleton_append, get?, get?,
      List.lookup_cons]
    by_cases hKey : name = key
    · simp [hKey]
    · simp [hKey, beq_eq_false_iff_ne.2 hKey]

/-- The value of a field, if there is one of that name. -/
def Value.field? (name : String) : Value → Option Value
  | .object fields => Fields.get? fields name
  | _ => none

theorem Value.field?_ofFields (fs : Fields) (name : String) :
    (ofFields fs).field? name = Fields.get? fs.reverse name :=
  fs.get?_sorted name

end Json

theorem ControlFlow.BlockEnds.get?_fields (marks : BlockEnds) (block : String) :
    Json.Fields.get? (marks.map fun (b, t) => (b, .text t.word)) block =
      (marks.get? block).map fun t => .text t.word := by
  induction marks with
  | nil => rfl
  | cons mark more ih =>
    obtain ⟨b, t⟩ := mark
    simp only [Json.Fields.get?, get?, List.map_cons, List.lookup_cons] at ih ⊢
    cases block == b
    · exact ih
    · rfl

/-- The object of endings has a field for each block with an ending and no other. -/
theorem ControlFlow.BlockEnds.field?_toJson {ends : BlockEnds} (hDistinct : (ends.map (·.1)).Nodup)
    (block : String) :
    ends.toJson.field? block = (ends.get? block).map fun t => .text t.word := by
  have hReverse : (ends.reverse.map (·.1)).Nodup := by
    rw [List.map_reverse]
    exact List.nodup_reverse.2 hDistinct
  have hOnce : BlockEnds.get? ends.reverse block = ends.get? block := by
    apply Option.ext
    intro t
    rw [get?_eq_some_iff hReverse, get?_eq_some_iff hDistinct, List.mem_reverse]
  rw [toJson, Json.Value.field?_ofFields, ← List.map_reverse, get?_fields, hOnce]

namespace Markup

/-! ## Texts of elements

The texts that stand in an element are given as they are written. -/

def plainText (id label : String) : String :=
  "  <text id=\"" ++ id ++ "\">" ++ label ++ "</text>\n"

def annotatedText (id label word : String) : String :=
  "  <g id=\"" ++ id ++ "\" class=\"vlayout\">\n"
    ++ "    <text>" ++ label ++ ":</text>\n"
    ++ "    <text>&nbsp;&nbsp;" ++ word ++ "</text>\n"
    ++ "  </g>\n"

def pathText (src dst : String) : String :=
  "  <path class=\"edge\" src=\"" ++ src ++ "\" dst=\"" ++ dst ++ "\"/>\n"

def groupText (elements paths : List String) : String :=
  "<g class=\"layout\">\n" ++ String.join elements ++ "\n" ++ String.join paths ++ "</g>\n"

def surfaceText (heading group : String) : String :=
  "\n" ++ "<h2>" ++ heading ++ "</h2>\n"
    ++ "<svg width=\"800\" height=\"800\" viewBox=\"0 0 800 800\">\n" ++ group ++ "</svg>\n"

theorem VertexElement.text_plain_eq (id label : String) :
    (plain id label).text = plainText (escape id) (escape label) := by
  have hText := text_plain id label ""
  rw [String.append_empty, String.append_empty] at hText
  rw [hText]
  unfold plainText
  simp only [String.append_assoc]

theorem VertexElement.text_annotated_eq (id label : String) (t : Terminator) :
    (annotated id label t).text = annotatedText (escape id) (escape label) t.word := by
  have hText := text_annotated id label t ""
  rw [String.append_empty, String.append_empty, escape_word] at hText
  rw [hText]
  unfold annotatedText
  simp only [String.append_assoc]

theorem PathElement.text_eq (p : PathElement) :
    p.text = pathText (escape p.src) (escape p.dst) := by
  have hText := p.text_append ""
  rw [String.append_empty, String.append_empty] at hText
  rw [hText]
  unfold pathText
  simp only [String.append_assoc]

theorem Group.text_eq (group : Group) :
    group.text =
      groupText (group.vertices.map VertexElement.text) (group.paths.map PathElement.text) := by
  have hText := group.text_append ""
  rw [String.append_empty, String.append_empty] at hText
  rw [hText]
  unfold groupText
  simp only [String.append_assoc]

theorem Surface.text_eq (d : Surface) : d.text = surfaceText (escape d.name) d.group.text := by
  have hOpening : String.join opening =
      "<svg width=\"800\" height=\"800\" viewBox=\"0 0 800 800\">\n" := by decide
  have hText := d.text_append ""
  rw [hOpening, String.append_empty, String.append_empty] at hText
  rw [hText]
  unfold surfaceText
  simp only [String.append_assoc]

/-! ## What is told twice -/

/-- A plain element tells of a vertex what its JSON does: it has the same id, and for its text the
label as it is escaped. -/
def PlainAs (v : Json.Value) (element : String) : Prop :=
  ∃ id label, v.field? "id" = some (.text id) ∧ v.field? "label" = some (.text label) ∧
    element = plainText id (escape label)

/-- An element tells of a block what its JSON and an object of endings do: it shows the instruction
that the object has for the id, and is plain where the object has none. -/
def DrawnAs (endings v : Json.Value) (element : String) : Prop :=
  ∃ id label, v.field? "id" = some (.text id) ∧ v.field? "label" = some (.text label) ∧
    ((∃ t : Terminator, endings.field? id = some (.text t.word) ∧
        element = annotatedText (escape id) (escape label) t.word) ∨
      endings.field? id = none ∧ element = plainText (escape id) (escape label))

/-- A path element tells of an edge what its JSON does, where `write` says how ids are written. -/
def PathAs (write : String → String) (e : Json.Value) (path : String) : Prop :=
  ∃ src dst, e.field? "src" = some (.text src) ∧ e.field? "dst" = some (.text dst) ∧
    path = pathText (write src) (write dst)

/-- The vertices and edges of some JSON are told one by one by the elements of a group. -/
structure SameGraph (vertexAs pathAs : Json.Value → String → Prop) (json : Json.Value)
    (elements paths : List String) : Prop where
  vertices : ∃ vs, json.field? "vertices" = some (.list vs) ∧ List.Forall₂ vertexAs vs elements
  edges : ∃ es, json.field? "edges" = some (.list es) ∧ List.Forall₂ pathAs es paths

/-- The JSON of a function is told by a heading and a group: blocks have an ending just if they are
drawn with one. -/
structure SameFunction (json endings : Json.Value) (heading : String)
    (elements paths : List String) : Prop where
  name : ∃ name, json.field? "function" = some (.text name) ∧ heading = escape name
  terminators : json.field? "terminators" = some endings
  graph : SameGraph (DrawnAs endings) (PathAs escape) json elements paths
  drawn : ∀ block (t : Terminator), endings.field? block = some (.text t.word) ↔
    ∃ label, annotatedText (escape block) (escape label) t.word ∈ elements
  instructions : ∀ block v, endings.field? block = some v → ∃ t : Terminator, v = .text t.word

/-! ## Both views of a graph -/

/-- Numbered ids hold nothing that markup is made of. -/
theorem escape_of_mem_ids {g : Graph} {id : String} (hId : id ∈ g.ids .sequential) :
    escape id = id := by
  obtain ⟨place, hPlace, rfl⟩ := List.mem_mapIdx.1 hId
  have hDigits : ∀ c ∈ Nat.toDigits 10 place, isReserved c = false := by
    intro c hc
    have hDigit := Nat.isDigit_of_mem_toDigits (by decide) (by decide) hc
    by_contra hReserved
    simp only [isReserved, Bool.not_eq_false, Bool.or_eq_true, beq_iff_eq] at hReserved
    rcases hReserved with ((rfl | rfl) | rfl) | rfl
    all_goals exact absurd hDigit (by decide)
  rw [escape, if_neg]
  simp only [IdStyle.idOf, Nat.toString_eq_repr, String.toList_append, Nat.toList_repr,
    List.any_append, Bool.or_eq_true, not_or, Bool.not_eq_true]
  exact ⟨by decide, List.any_eq_false.2 fun c hc => by simp [hDigits c hc]⟩

theorem forall₂_zipWith {α β γ δ : Type} {R : γ → δ → Prop} {f : α → β → γ} {h : α → β → δ}
    {as : List α} {bs : List β} (hAll : ∀ p ∈ as.zip bs, R (f p.1 p.2) (h p.1 p.2)) :
    List.Forall₂ R (List.zipWith f as bs) (List.zipWith h as bs) := by
  rw [← List.map_uncurry_zip_eq_zipWith, ← List.map_uncurry_zip_eq_zipWith,
    List.forall₂_map_left_iff, List.forall₂_map_right_iff, List.forall₂_same]
  exact hAll

section Views

variable {g : Graph} {style : IdStyle}

/-- What the two views have in common: the vertices with their ids, and the ids at the ends of the
edges. -/
theorem exists_views (hRange : g.EdgesInRange) (style : IdStyle)
    (ending? : String → Option Terminator) :
    ∃ pairs : List (String × String),
      g.toFields? style =
          some [("vertices", .list (List.zipWith Vertex.toJson (g.ids style) g.vertices)),
            ("edges", .list (pairs.map edgeJson))] ∧
        Group.ofGraph? g style ending? =
          some ⟨List.zipWith (VertexElement.ofVertex ending?) (g.ids style) g.vertices,
            pairs.map fun (src, dst) => ⟨src, dst⟩⟩ ∧
          ∀ p ∈ pairs, p.1 ∈ g.ids style ∧ p.2 ∈ g.ids style := by
  obtain ⟨pairs, hPairs, hIn⟩ := Graph.edgeIds?_eq_some hRange style
  refine ⟨pairs, Graph.toFields?_of_edgeIds? hPairs, ?_, hIn⟩
  rw [Group.ofGraph?, hPairs]
  rfl

theorem forall₂_elements (ending? : String → Option Terminator)
    {vertexAs : Json.Value → String → Prop}
    (h : ∀ p ∈ (g.ids style).zip g.vertices,
      vertexAs (Vertex.toJson p.1 p.2) (VertexElement.ofVertex ending? p.1 p.2).text) :
    List.Forall₂ vertexAs (List.zipWith Vertex.toJson (g.ids style) g.vertices)
      ((List.zipWith (VertexElement.ofVertex ending?) (g.ids style) g.vertices).map
        VertexElement.text) := by
  rw [List.map_zipWith]
  exact forall₂_zipWith h

theorem forall₂_paths {write : String → String} {pairs : List (String × String)}
    (hWrite : ∀ p ∈ pairs, write p.1 = escape p.1 ∧ write p.2 = escape p.2) :
    List.Forall₂ (PathAs write) (pairs.map edgeJson)
      ((pairs.map fun (src, dst) => PathElement.mk src dst).map PathElement.text) := by
  rw [List.map_map, List.forall₂_map_left_iff, List.forall₂_map_right_iff, List.forall₂_same]
  intro p hp
  obtain ⟨hSrc, hDst⟩ := hWrite p hp
  refine ⟨p.1, p.2, rfl, rfl, ?_⟩
  rw [hSrc, hDst]
  exact PathElement.text_eq _

/-- Where names are the ids, a vertex stands beside its name. -/
theorem zip_ids_name (g : Graph) :
    (g.ids .name).zip g.vertices = g.vertices.map fun v => (v.name, v) := by
  have hZip : (g.vertices.map (·.name)).zip (g.vertices.map id) =
      g.vertices.map fun v => (v.name, v) := List.zip_map'
  rwa [List.map_id, ← Graph.names, ← Graph.ids_name] at hZip

theorem eq_name_of_mem_zip {p : String × Vertex} (hp : p ∈ (g.ids .name).zip g.vertices) :
    p.1 = p.2.name := by
  rw [zip_ids_name] at hp
  obtain ⟨v, -, rfl⟩ := List.mem_map.1 hp
  rfl

end Views

theorem sameGraph_document {g : Graph} (hg : g.WellFormed) :
    ∃ json elements paths, g.toJson? .sequential = some json ∧
      documentText? g = some (groupText elements paths) ∧
        SameGraph PlainAs (PathAs id) json elements paths := by
  obtain ⟨pairs, hFields, hGroup, hIn⟩ := exists_views hg.inRange .sequential fun _ => none
  refine ⟨_, _, _, congrArg (Option.map Json.Value.ofFields) hFields, ?text,
    ⟨_, rfl, forall₂_elements (fun _ => none) fun p hp => ⟨p.1, p.2.label, rfl, rfl, ?_⟩⟩,
    ⟨_, rfl, forall₂_paths fun p hp => ?_⟩⟩
  case text =>
    rw [documentText?, documentPieces?, Group.ofDocument?, hGroup, Option.map_some, Option.map_some]
    exact congrArg some (Group.text_eq _)
  · have hId := escape_of_mem_ids (List.of_mem_zip hp).1
    exact (VertexElement.text_plain_eq p.1 p.2.label).trans (by rw [hId])
  · exact ⟨(escape_of_mem_ids (hIn p hp).1).symm, (escape_of_mem_ids (hIn p hp).2).symm⟩

section Functions

variable {f : FlowGraph}

/-- The element of a block is drawn by the ending that JSON has for it. -/
theorem drawnAs_ofVertex (hEnds : (f.ends.map (·.1)).Nodup) {p : String × Vertex}
    (hp : p ∈ (f.graph.ids .name).zip f.graph.vertices) :
    DrawnAs f.ends.toJson (Vertex.toJson p.1 p.2)
      (VertexElement.ofVertex f.terminator? p.1 p.2).text := by
  refine ⟨p.1, p.2.label, rfl, rfl, ?_⟩
  have hField := f.ends.field?_toJson hEnds p.1
  rw [eq_name_of_mem_zip hp] at hField ⊢
  rw [VertexElement.ofVertex, FlowGraph.terminator?]
  cases hEnding : f.ends.get? p.2.name with
  | none =>
    rw [hEnding] at hField
    exact Or.inr ⟨hField, VertexElement.text_plain_eq _ _⟩
  | some t =>
    rw [hEnding] at hField
    exact Or.inl ⟨t, hField, VertexElement.text_annotated_eq _ _ _⟩

theorem field?_toJson_eq_some_iff (hEnds : (f.ends.map (·.1)).Nodup) (block : String)
    (t : Terminator) :
    f.ends.toJson.field? block = some (.text t.word) ↔ f.ends.get? block = some t := by
  rw [f.ends.field?_toJson hEnds, Option.map_eq_some_iff]
  constructor
  · rintro ⟨u, hGet, hWord⟩
    rw [hGet, word_inj (Json.Value.text.inj hWord)]
  · intro hGet
    exact ⟨t, hGet, rfl⟩

/-- An element that shows an instruction tells which vertex it is of and what it shows. -/
theorem text_ofVertex_eq_annotatedText {ending? : String → Option Terminator}
    {id block label : String} {v : Vertex} {t : Terminator} :
    (VertexElement.ofVertex ending? id v).text =
        annotatedText (escape block) (escape label) t.word ↔
      id = block ∧ v.label = label ∧ ending? v.name = some t := by
  rw [← VertexElement.text_annotated_eq]
  constructor
  · intro hText
    obtain ⟨hSame, -⟩ := VertexElement.selfDelimiting _ _ "" "" (congrArg (· ++ "") hText)
    unfold VertexElement.ofVertex at hSame
    cases hEnding : ending? v.name with
    | none => simp [hEnding] at hSame
    | some u =>
      simp only [hEnding, VertexElement.annotated.injEq] at hSame
      obtain ⟨rfl, rfl, rfl⟩ := hSame
      exact ⟨rfl, rfl, rfl⟩
  · rintro ⟨rfl, rfl, hEnding⟩
    simp only [VertexElement.ofVertex, hEnding]

/-- A block has an ending just if an element shows it. -/
theorem field?_toJson_iff_drawn (hf : f.WellFormed) (hEnds : (f.ends.map (·.1)).Nodup)
    (block : String) (t : Terminator) :
    f.ends.toJson.field? block = some (.text t.word) ↔
      ∃ label, annotatedText (escape block) (escape label) t.word ∈
        (List.zipWith (VertexElement.ofVertex f.terminator?) (f.graph.ids .name)
          f.graph.vertices).map VertexElement.text := by
  rw [field?_toJson_eq_some_iff hEnds, List.map_zipWith, ← List.map_uncurry_zip_eq_zipWith,
    zip_ids_name, List.map_map]
  constructor
  · intro hGet
    -- The block is a vertex, or there would be no element for its ending.
    have hMarked : block ∈ f.ends.map (·.1) := by
      by_contra hNot
      rw [BlockEnds.get?_eq_none hNot] at hGet
      cases hGet
    obtain ⟨v, hv, rfl⟩ := List.mem_map.1 (hf.blocks block hMarked)
    refine ⟨v.label, List.mem_map.2 ⟨v, hv, ?_⟩⟩
    exact text_ofVertex_eq_annotatedText.2 ⟨rfl, rfl, hGet⟩
  · rintro ⟨label, hMem⟩
    obtain ⟨v, -, hShown⟩ := List.mem_map.1 hMem
    obtain ⟨rfl, -, hEnding⟩ := text_ofVertex_eq_annotatedText.1 hShown
    exact hEnding

theorem sameFunction_of_wellFormed (hf : f.WellFormed) (hEnds : (f.ends.map (·.1)).Nodup) :
    ∃ json endings heading elements paths, f.toJson? = some json ∧
      functionText? f = some (surfaceText heading (groupText elements paths)) ∧
        SameFunction json endings heading elements paths := by
  obtain ⟨pairs, hFields, hGroup, -⟩ := exists_views hf.graph.inRange .name f.terminator?
  refine ⟨_, f.ends.toJson, escape f.name, _, _, by rw [FlowGraph.toJson?, hFields]; rfl, ?_, {
    name := ⟨f.name, rfl, rfl⟩
    terminators := rfl
    graph := {
      vertices := ⟨_, rfl, forall₂_elements f.terminator? fun p hp => drawnAs_ofVertex hEnds hp⟩
      edges := ⟨_, rfl, forall₂_paths fun p _ => ⟨rfl, rfl⟩⟩ }
    drawn := field?_toJson_iff_drawn hf hEnds
    instructions := ?_ }⟩
  · rw [Surface.functionText?_eq, Surface.ofFunction?, Group.ofFunction?, hGroup, Option.map_some,
      Option.map_some, Surface.text_eq, Group.text_eq]
  · intro block v hField
    rw [f.ends.field?_toJson hEnds] at hField
    obtain ⟨t, -, rfl⟩ := Option.map_eq_some_iff.1 hField
    exact ⟨t, rfl⟩

end Functions

/-- Every document and every function of a listing is told alike by its JSON and by its markup. -/
theorem markup_matches_json :
    (∀ (options : Options) (source : String), ∃ json elements paths,
      (Document.ofText options source).graph.toJson? .sequential = some json ∧
        documentText? (Document.ofText options source).graph = some (groupText elements paths) ∧
          SameGraph PlainAs (PathAs id) json elements paths) ∧
      ∀ source : String, ∀ f ∈ (extract source).functions, ∃ json endings heading elements paths,
        f.toJson? = some json ∧
          functionText? f = some (surfaceText heading (groupText elements paths)) ∧
            SameFunction json endings heading elements paths :=
  ⟨fun _ _ => sameGraph_document (Document.wellFormed_ofTokens _ _), fun _ _ hf =>
    sameFunction_of_wellFormed (FlowGraph.wellFormed_of_mem_extract hf)
      (FlowGraph.nodup_ends_of_mem_extract hf)⟩

/-- A block that ends and one that does not, in one listing. -/
theorem markup_matches_json_branch :
    ∃ f ∈ (extract "define @f()\na:\n br label %b").functions,
      ∃ json endings heading elements paths, f.toJson? = some json ∧
        functionText? f = some (surfaceText heading (groupText elements paths)) ∧
          SameFunction json endings heading elements paths := by
  have hf : (⟨"f", ⟨[⟨"a", "a"⟩, ⟨"b", "b"⟩], [⟨0, 1⟩]⟩, [("a", .br)]⟩ : FlowGraph) ∈
      (extract "define @f()\na:\n br label %b").functions := by decide +kernel
  exact ⟨_, hf, markup_matches_json.2 _ _ hf⟩

end Markup

end GraphMarkup
