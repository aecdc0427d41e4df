import GraphMarkup.Proofs.Graph.Places

/-!
# What a list of mentions makes

A graph that was made by interning and linking alone is known from the names that were mentioned
and the links that were made: `Graph.ofMentions` says which graph it is, without the steps, and
`intern_snd_ofMentions` and `addEdge_ofMentions` say that each step leads from one such graph to
the next. `Graph.edgeNames?_ofMentions` reads the links back.

Where something is said of a name more than once, `lastSaid?` is what holds.
-/

namespace GraphMarkup

/-! ## Order of first mention -/

section Order

variable {names : List String} {name : String}

theorem eraseDups_concat (names : List String) (name : String) :
    (names ++ [name]).eraseDups =
      if name ∈ names then names.eraseDups else names.eraseDups ++ [name] := by
  rw [List.eraseDups_append]
  by_cases hMem : name ∈ names
  · simp [List.removeAll, hMem]
  · simp [List.removeAll, hMem, List.eraseDups_cons]

theorem eraseDups_concat_of_mem (hMem : name ∈ names) :
    (names ++ [name]).eraseDups = names.eraseDups := by
  rw [eraseDups_concat, if_pos hMem]

theorem nodup_eraseDups (names : List String) : names.eraseDups.Nodup := by
  induction names using List.reverseRecOn with
  | nil => exact List.nodup_nil
  | append_singleton names name ih =>
    rw [eraseDups_concat]
    split_ifs with hMem
    · exact ih
    · refine List.nodup_append.2 ⟨ih, List.nodup_singleton name, fun a hA b hB hEq => hMem ?_⟩
      rw [List.mem_singleton.1 hB] at hEq
      exact List.mem_eraseDups.1 (hEq ▸ hA)

/-- Later mentions do not move a name. -/
theorem idxOf_eraseDups_concat {other : String} (hMem : name ∈ names) :
    (names ++ [other]).eraseDups.idxOf name = names.eraseDups.idxOf name := by
  rw [eraseDups_concat]
  split_ifs
  · rfl
  · exact List.idxOf_append_of_mem (List.mem_eraseDups.2 hMem)

end Order

/-! ## The last word -/

section Last

variable {β : Type}

/-- What was said last of a name. -/
def lastSaid? (said : List (String × β)) (name : String) : Option β :=
  ((said.filter (·.1 == name)).getLast?).map (·.2)

theorem lastSaid?_concat (said : List (String × β)) (key name : String) (value : β) :
    lastSaid? (said ++ [(key, value)]) name =
      if name = key then some value else lastSaid? said name := by
  unfold lastSaid?
  rw [List.filter_append]
  by_cases hKey : name = key
  · simp [hKey]
  · have hBeq : (key == name) = false := beq_eq_false_iff_ne.2 (Ne.symm hKey)
    simp [hKey, hBeq]

/-- Where the last one said is kept in front, a look-up finds it first. -/
theorem lookup_reverse (said : List (String × β)) (name : String) :
    said.reverse.lookup name = lastSaid? said name := by
  induction said using List.reverseRecOn with
  | nil => rfl
  | append_singleton said entry ih =>
    obtain ⟨key, value⟩ := entry
    rw [List.reverse_append, List.reverse_singleton, List.singleton_append, List.lookup_cons,
      lastSaid?_concat, ih]
    by_cases hKey : name = key
    · simp [hKey]
    · simp [hKey, beq_eq_false_iff_ne.2 hKey]

theorem lastSaid?_eq_none {said : List (String × β)} {name : String} :
    lastSaid? said name = none ↔ name ∉ said.map (·.1) := by
  rw [lastSaid?, Option.map_eq_none_iff, List.getLast?_eq_none_iff, List.filter_eq_nil_iff]
  constructor
  · intro hNone hMem
    obtain ⟨entry, hEntry, hName⟩ := List.mem_map.1 hMem
    exact hNone entry hEntry (beq_iff_eq.2 hName)
  · intro hNot entry hEntry hName
    exact hNot (List.mem_map.2 ⟨entry, hEntry, beq_iff_eq.1 hName⟩)

end Last

namespace Graph

/-- The graph in which names were mentioned and links were made, each in its order. -/
def ofMentions (names : List String) (links : List (String × String)) : Graph where
  vertices := names.eraseDups.map fun name => ⟨name, name⟩
  edges := links.map fun link =>
    ⟨names.eraseDups.idxOf link.1, names.eraseDups.idxOf link.2⟩

/-- Every link is between names that were mentioned. -/
def LinksAmong (names : List String) (links : List (String × String)) : Prop :=
  ∀ link ∈ links, link.1 ∈ names ∧ link.2 ∈ names

variable {names : List String} {links : List (String × String)} {name : String}

@[simp] theorem names_ofMentions (names : List String) (links : List (String × String)) :
    (ofMentions names links).names = names.eraseDups := by
  simp [Graph.names, ofMentions, Function.comp_def]

theorem ofMentions_again (hMem : name ∈ names) (links : List (String × String)) :
    ofMentions (names ++ [name]) links = ofMentions names links := by
  rw [ofMentions, ofMentions, eraseDups_concat_of_mem hMem]

/-- Interning a name is to mention it. -/
theorem intern_snd_ofMentions (hAmong : LinksAmong names links) (name : String) :
    ((ofMentions names links).intern name).2 = ofMentions (names ++ [name]) links := by
  have hEdges : (ofMentions names links).edges = (ofMentions (names ++ [name]) links).edges := by
    refine List.map_congr_left fun link hLink => ?_
    rw [idxOf_eraseDups_concat (hAmong link hLink).1, idxOf_eraseDups_concat (hAmong link hLink).2]
  unfold intern
  split
  next id hId =>
    have hMem := (idOf?_eq_some_iff.1 hId).1
    rw [names_ofMentions, List.mem_eraseDups] at hMem
    exact (ofMentions_again hMem links).symm
  next hNone =>
    have hNew := (idOf?_eq_none _ _).1 hNone
    rw [names_ofMentions, List.mem_eraseDups] at hNew
    rw [hEdges]
    simp [ofMentions, eraseDups_concat, hNew]

theorem intern_fst_ofMentions (hAmong : LinksAmong names links) (name : String) :
    ((ofMentions names links).intern name).1 = (names ++ [name]).eraseDups.idxOf name := by
  rw [intern_fst, intern_snd_ofMentions hAmong, names_ofMentions]

theorem addEdge_ofMentions (src dst : String) :
    (ofMentions names links).addEdge (names.eraseDups.idxOf src) (names.eraseDups.idxOf dst) =
      ofMentions names (links ++ [(src, dst)]) := by
  simp [addEdge, ofMentions]

theorem edgeNames?_ofMentions (hAmong : LinksAmong names links) :
    (ofMentions names links).edgeNames? = some links := by
  have hEnds : ∀ link ∈ links,
      Edge.ends? ⟨names.eraseDups.idxOf link.1, names.eraseDups.idxOf link.2⟩ names.eraseDups =
        some link := by
    intro link hLink
    obtain ⟨hSrc, hDst⟩ := hAmong link hLink
    simp [Edge.ends?, List.getElem?_idxOf, hSrc, hDst]
  rw [edgeNames?, names_ofMentions, edgesBy?, ofMentions]
  clear hAmong
  induction links with
  | nil => rfl
  | cons link more ih =>
    rw [List.map_cons, List.mapM_cons, hEnds link List.mem_cons_self,
      ih fun later hLater => hEnds later (List.mem_cons_of_mem _ hLater)]
    rfl

end Graph

end GraphMarkup
