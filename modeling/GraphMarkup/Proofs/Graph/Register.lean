import GraphMarkup.Proofs.Graph.History

/-!
# What a graph keeps of its calls

A graph is a register of names: whatever calls were made on it since it was empty, it holds the
names that were mentioned since it was last cleared, in the order in which they were first
mentioned, each with the label that was set last at its place since then, and the edges that were
drawn.

`recorded` says which graph that is, by looking at the list of calls and without making any of them.
`apply_recorded` is the step: a call leads from the graph of some calls to the graph of those calls
and itself. So `built`, which makes the calls one by one, gives the same graph
(`built_eq_recorded`), and whatever is asked of a graph can be read off its calls
(`registers_built`). Only clearing moves a name that has a place.
-/

namespace GraphMarkup.Graph

/-! ## What a call says -/

namespace Call

def mention? : Call → Option String
  | vertex name => some name
  | _ => none

def drawn? : Call → Option Edge
  | addEdge src dst => some ⟨src, dst⟩
  | _ => none

/-- The label that a call sets at a place. -/
def labelAt? (id : VertexId) : Call → Option String
  | setLabel place label => if place = id then some label else none
  | _ => none

end Call

/-! ## What some calls say -/

/-- The calls since the graph was last cleared. -/
def sinceCleared (calls : List Call) : List Call := calls.rtakeWhile (· != .clear)

/-- The names that were asked for since the graph was last cleared, each once, in the order in which
they were first mentioned. -/
def mentioned (calls : List Call) : List String :=
  ((sinceCleared calls).filterMap Call.mention?).eraseDups

/-- The edges that were drawn since the graph was last cleared. -/
def drawn (calls : List Call) : List Edge := (sinceCleared calls).filterMap Call.drawn?

/-- The calls since a name was first mentioned, of those since the graph was last cleared. -/
def sinceMentioned (name : String) (calls : List Call) : List Call :=
  (sinceCleared calls).dropWhile (·.mention? != some name)

/-- The label that was set last at a place since a name was first mentioned, or the name itself if
none was. -/
def labelOf (calls : List Call) (id : VertexId) (name : String) : String :=
  ((sinceMentioned name calls).filterMap (Call.labelAt? id)).getLast?.getD name

/-- The vertex of a name at its place. -/
def vertexOf (calls : List Call) (id : VertexId) (name : String) : Vertex :=
  ⟨name, labelOf calls id name⟩

/-- The graph that some calls tell of. -/
def recorded (calls : List Call) : Graph where
  vertices := (mentioned calls).mapIdx (vertexOf calls)
  edges := drawn calls

/-- The graph that some calls make out of the empty one. -/
def built (calls : List Call) : Graph := calls.foldl (fun g call => (call.apply g).2) empty

/-! ## One more call -/

section Concat

variable {calls : List Call} {call : Call} {name : String}

theorem sinceCleared_clear (calls : List Call) : sinceCleared (calls ++ [Call.clear]) = [] := by
  rw [sinceCleared, List.rtakeWhile_concat]
  rfl

theorem sinceCleared_concat (hKeep : call ≠ .clear) (calls : List Call) :
    sinceCleared (calls ++ [call]) = sinceCleared calls ++ [call] := by
  rw [sinceCleared, List.rtakeWhile_concat, if_pos (by simpa using hKeep)]
  rfl

theorem mentioned_vertex (calls : List Call) (name : String) :
    mentioned (calls ++ [Call.vertex name]) =
      if name ∈ mentioned calls then mentioned calls else mentioned calls ++ [name] := by
  have hConcat : mentioned (calls ++ [Call.vertex name]) =
      ((sinceCleared calls).filterMap Call.mention? ++ [name]).eraseDups := by
    rw [mentioned, sinceCleared_concat (by simp), List.filterMap_append]
    rfl
  rw [hConcat, eraseDups_concat]
  simp only [mentioned, List.mem_eraseDups]

theorem mentioned_concat (hKeep : call ≠ .clear) (hSilent : call.mention? = none)
    (calls : List Call) : mentioned (calls ++ [call]) = mentioned calls := by
  unfold mentioned
  rw [sinceCleared_concat hKeep, List.filterMap_append, List.filterMap_cons_none hSilent,
    List.filterMap_nil, List.append_nil]

theorem drawn_concat (hKeep : call ≠ .clear) (calls : List Call) :
    drawn (calls ++ [call]) = drawn calls ++ call.drawn?.toList := by
  unfold drawn
  rw [sinceCleared_concat hKeep, List.filterMap_append]
  cases hDrawn : call.drawn? <;> simp [hDrawn]

theorem sinceMentioned_eq_nil_iff :
    sinceMentioned name calls = [] ↔ name ∉ mentioned calls := by
  unfold sinceMentioned mentioned
  rw [List.dropWhile_eq_nil_iff, List.mem_eraseDups, List.mem_filterMap, not_exists]
  exact forall_congr' fun call => by simp

/-- A call goes on the list of those after the first mention of a name that was mentioned before. -/
theorem sinceMentioned_concat (hKeep : call ≠ .clear) (hMem : name ∈ mentioned calls) :
    sinceMentioned name (calls ++ [call]) = sinceMentioned name calls ++ [call] := by
  have hSome : sinceMentioned name calls ≠ [] := fun hNil => sinceMentioned_eq_nil_iff.1 hNil hMem
  unfold sinceMentioned at hSome ⊢
  rw [sinceCleared_concat hKeep, List.dropWhile_append, if_neg (by simpa using hSome)]

theorem sinceMentioned_first (hNew : name ∉ mentioned calls) :
    sinceMentioned name (calls ++ [Call.vertex name]) = [.vertex name] := by
  have hNil := sinceMentioned_eq_nil_iff.2 hNew
  unfold sinceMentioned at hNil ⊢
  rw [sinceCleared_concat (by simp), List.dropWhile_append, hNil]
  simp [Call.mention?]

theorem labelOf_concat (hKeep : call ≠ .clear) (hMem : name ∈ mentioned calls) (id : VertexId) :
    labelOf (calls ++ [call]) id name = (call.labelAt? id).getD (labelOf calls id name) := by
  unfold labelOf
  rw [sinceMentioned_concat hKeep hMem, List.filterMap_append]
  cases hLabel : call.labelAt? id <;> simp [hLabel]

/-- A vertex that is made is labelled with its name, whatever was set at its place before. -/
theorem labelOf_first (hNew : name ∉ mentioned calls) (id : VertexId) :
    labelOf (calls ++ [Call.vertex name]) id name = name := by
  rw [labelOf, sinceMentioned_first hNew]
  rfl

end Concat

/-! ## The graph of some calls -/

section Recorded

variable {call : Call} (calls : List Call)

@[simp] theorem names_recorded : (recorded calls).names = mentioned calls := by
  apply List.ext_getElem?
  intro id
  rw [names, recorded, List.getElem?_map, List.getElem?_mapIdx, Option.map_map]
  exact congrFun Option.map_id _

theorem vertexOf_concat (hKeep : call ≠ .clear) {name : String} (hMem : name ∈ mentioned calls)
    (id : VertexId) :
    vertexOf (calls ++ [call]) id name =
      { vertexOf calls id name with
        label := (call.labelAt? id).getD (vertexOf calls id name).label } := by
  rw [vertexOf, labelOf_concat hKeep hMem]
  rfl

/-- A call that sets no label leaves the vertices there are as they were. -/
theorem mapIdx_vertexOf_concat (hKeep : call ≠ .clear)
    (hUnlabelled : ∀ id, call.labelAt? id = none) :
    (mentioned calls).mapIdx (vertexOf (calls ++ [call])) =
      (mentioned calls).mapIdx (vertexOf calls) := by
  rw [List.mapIdx_eq_mapIdx_iff]
  intro id hLt
  rw [vertexOf_concat calls hKeep (List.getElem_mem hLt), hUnlabelled]
  rfl

theorem recorded_concat (hKeep : call ≠ .clear) (hUnlabelled : ∀ id, call.labelAt? id = none)
    (hNames : mentioned (calls ++ [call]) = mentioned calls) :
    recorded (calls ++ [call]) =
      ⟨(recorded calls).vertices, drawn calls ++ call.drawn?.toList⟩ := by
  rw [recorded, hNames, mapIdx_vertexOf_concat calls hKeep hUnlabelled, drawn_concat hKeep]
  rfl

theorem intern_recorded (name : String) :
    ((recorded calls).intern name).2 = recorded (calls ++ [Call.vertex name]) := by
  have hKeep : Call.vertex name ≠ .clear := by simp
  have hEdges : drawn calls ++ (Call.vertex name).drawn?.toList = drawn calls := List.append_nil _
  by_cases hMem : name ∈ mentioned calls
  · have hNames : mentioned (calls ++ [Call.vertex name]) = mentioned calls := by
      rw [mentioned_vertex, if_pos hMem]
    rw [intern_of_mem (by rwa [names_recorded]),
      recorded_concat calls hKeep (fun _ => rfl) hNames, hEdges]
    rfl
  · have hNone : (recorded calls).idOf? name = none := by
      rwa [idOf?_eq_none, names_recorded]
    have hAdded : recorded (calls ++ [Call.vertex name]) =
        ⟨(recorded calls).vertices ++ [⟨name, name⟩], drawn calls⟩ := by
      rw [recorded, mentioned_vertex, if_neg hMem, List.mapIdx_concat,
        mapIdx_vertexOf_concat calls hKeep fun _ => rfl, drawn_concat hKeep, hEdges, vertexOf,
        labelOf_first hMem]
      rfl
    rw [intern, hNone, hAdded]
    rfl

theorem setLabel_recorded (id : VertexId) (label : String) :
    (recorded calls).setLabel id label = recorded (calls ++ [Call.setLabel id label]) := by
  have hKeep : Call.setLabel id label ≠ .clear := by simp
  have hNames := mentioned_concat hKeep rfl calls
  have hEdges : drawn (calls ++ [Call.setLabel id label]) = drawn calls := by
    rw [drawn_concat hKeep]
    exact List.append_nil _
  rw [setLabel, recorded, recorded, Graph.mk.injEq, hNames]
  refine ⟨List.ext_getElem? fun place => ?_, hEdges.symm⟩
  rw [List.getElem?_modify, List.getElem?_mapIdx, List.getElem?_mapIdx, Option.map_eq_map,
    Option.map_map]
  refine Option.map_congr fun name hName => ?_
  rw [vertexOf_concat calls hKeep (List.mem_of_getElem? hName), Function.comp_apply]
  by_cases hPlace : id = place <;> simp [Call.labelAt?, hPlace]

/-- A call leads from the graph of the calls before it to the graph of those and itself. -/
theorem apply_recorded : (call.apply (recorded calls)).2 = recorded (calls ++ [call]) := by
  cases call with
  | vertex name => exact intern_recorded calls name
  | idOf name =>
    rw [recorded_concat calls (by simp) (fun _ => rfl) (mentioned_concat (by simp) rfl calls)]
    exact congrArg (Graph.mk _) (List.append_nil _).symm
  | addEdge src dst =>
    rw [recorded_concat calls (by simp) (fun _ => rfl) (mentioned_concat (by simp) rfl calls)]
    rfl
  | setLabel id label => exact setLabel_recorded calls id label
  | clear =>
    have hNothing : recorded (calls ++ [Call.clear]) = empty := by
      rw [recorded, mentioned, drawn, sinceCleared_clear]
      rfl
    exact hNothing.symm

theorem built_append (later : List Call) :
    built (calls ++ later) = later.foldl (fun g call => (call.apply g).2) (built calls) :=
  List.foldl_append

theorem built_eq_recorded : built calls = recorded calls := by
  induction calls using List.reverseRecOn with
  | nil => rfl
  | append_singleton calls call ih =>
    rw [built_append, ih]
    exact apply_recorded calls

end Recorded

/-! ## What is asked of a graph -/

section Asked

variable {calls : List Call}

theorem nodup_mentioned (calls : List Call) : (mentioned calls).Nodup := nodup_eraseDups _

theorem names_built (calls : List Call) : (built calls).names = mentioned calls := by
  rw [built_eq_recorded, names_recorded]

/-- The place of a name is where it stands among the names. -/
theorem idOf?_eq_idxOf? (g : Graph) (name : String) : g.idOf? name = g.names.idxOf? name := by
  rw [idOf?, names, List.idxOf?, List.findIdx?_map]
  rfl

theorem mentioned_prefix_concat {call : Call} (hKeep : call ≠ .clear) (calls : List Call) :
    mentioned calls <+: mentioned (calls ++ [call]) := by
  cases call with
  | vertex name =>
    rw [mentioned_vertex]
    split
    · exact List.prefix_rfl
    · exact List.prefix_append _ _
  | idOf | addEdge | setLabel =>
    rw [mentioned_concat hKeep rfl]
  | clear => exact absurd rfl hKeep

/-- Names are only added at the end while nothing is cleared. -/
theorem mentioned_prefix_append {later : List Call} (hKept : .clear ∉ later) :
    mentioned calls <+: mentioned (calls ++ later) := by
  induction later using List.reverseRecOn with
  | nil =>
    rw [List.append_nil]
  | append_singleton later call ih =>
    rw [List.mem_append, List.mem_singleton, not_or] at hKept
    rw [← List.append_assoc]
    exact (ih hKept.1).trans (mentioned_prefix_concat (Ne.symm hKept.2) _)

/-- A name keeps its place while names are only added at the end. -/
theorem idOf?_of_prefix {g h : Graph} {name : String} {id : VertexId} (hNames : g.names <+: h.names)
    (hId : g.idOf? name = some id) : h.idOf? name = some id := by
  obtain ⟨hMem, rfl⟩ := idOf?_eq_some_iff.1 hId
  obtain ⟨more, hMore⟩ := hNames
  rw [idOf?_eq_some_iff, ← hMore]
  exact ⟨List.mem_append_left _ hMem, List.idxOf_append_of_mem hMem⟩

theorem idOf?_intern (g : Graph) (name : String) :
    (g.intern name).2.idOf? name = some (g.intern name).1 :=
  idOf?_eq_some_iff.2 ⟨mem_names_intern g name, (intern_fst g name).symm⟩

theorem find?_eq_none_of_notMem {g : Graph} {name : String} (hNew : name ∉ g.names) :
    g.find? name = none := by
  rw [find?, List.find?_eq_none]
  intro v hv hName
  exact hNew (List.mem_map.2 ⟨v, hv, beq_iff_eq.1 hName⟩)

/-- At the place of a name stands its vertex. -/
theorem vertexAt?_built {name : String} {id : VertexId} (hId : (built calls).idOf? name = some id) :
    (built calls).vertexAt? id = some (vertexOf calls id name) := by
  obtain ⟨hMem, hPlace⟩ := idOf?_eq_some_iff.1 hId
  rw [names_built] at hMem hPlace
  rw [vertexAt?, built_eq_recorded, recorded, List.getElem?_mapIdx, ← hPlace,
    List.getElem?_idxOf hMem]
  rfl

theorem setLabel_of_le {g : Graph} {id : VertexId} (hOutside : g.vertexCount ≤ id)
    (label : String) : g.setLabel id label = g := by
  rw [setLabel, List.modify_eq_self hOutside]

/-- A graph is an ordered set of names, each at a place of its own, and answers what the calls made
on it say. -/
structure Registers (calls : List Call) (g : Graph) : Prop where
  /-- The vertices are the names that were mentioned, each once and in the order of their first
  mention. -/
  names : g.vertices.map (·.name) = mentioned calls
  distinct : (mentioned calls).Nodup
  /-- Every name has the place at which it stands among the names. -/
  place : ∀ name, g.idOf? name = (mentioned calls).idxOf? name
  /-- Whoever asks for a name is told its place, also if it is new. -/
  told : ∀ name, some (g.intern name).1 = (mentioned (calls ++ [Call.vertex name])).idxOf? name
  /-- A name keeps its place until the graph is cleared. -/
  stays : ∀ name id, g.idOf? name = some id → ∀ later, .clear ∉ later →
    (built (calls ++ later)).idOf? name = some id ∧ ((built (calls ++ later)).intern name).1 = id
  /-- By name and by place the same vertex is found. -/
  found : ∀ name id, g.idOf? name = some id →
    ∃ v, g.find? name = some v ∧ g.vertexAt? id = some v ∧ v.name = name ∧
      v.label = labelOf calls id name
  unknown : ∀ name, name ∉ mentioned calls → g.find? name = none
  /-- No label is set outside. -/
  outside : ∀ id, g.vertexCount ≤ id → ∀ label, g.setLabel id label = g
  edges : g.edges = drawn calls

/-- Whatever calls were made on an empty graph, it answers what they say. -/
theorem registers_built (calls : List Call) : Registers calls (built calls) where
  names := names_built calls
  distinct := nodup_mentioned calls
  place name := by rw [idOf?_eq_idxOf?, names_built]
  told name := by
    have hLater : ((built calls).intern name).2 = built (calls ++ [Call.vertex name]) := by
      rw [built_eq_recorded, built_eq_recorded, intern_recorded]
    rw [← idOf?_intern, hLater, idOf?_eq_idxOf?, names_built]
  stays name id hId later hKept := by
    have hNames : (built calls).names <+: (built (calls ++ later)).names := by
      rw [names_built, names_built]
      exact mentioned_prefix_append hKept
    have hLater := idOf?_of_prefix hNames hId
    exact ⟨hLater, by rw [intern, hLater]⟩
  found name id hId := by
    have hAt := vertexAt?_built hId
    exact ⟨vertexOf calls id name, by rw [find?_of_idOf? hId, hAt], hAt, rfl, rfl⟩
  unknown name hNew := find?_eq_none_of_notMem (by rwa [names_built])
  outside id hOutside label := setLabel_of_le hOutside label
  edges := by
    rw [built_eq_recorded]
    rfl

/-- A label that is set before there is a vertex is lost, and asking again takes none back. -/
example :
    (built [.setLabel 0 "x", .vertex "a", .setLabel 0 "y", .vertex "b", .vertex "a"]).vertices =
      [⟨"a", "y"⟩, ⟨"b", "b"⟩] := by
  decide

end Asked

end GraphMarkup.Graph
