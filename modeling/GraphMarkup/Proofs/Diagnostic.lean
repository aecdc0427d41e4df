import GraphMarkup.Diagnostic.Json
import GraphMarkup.Proofs.Json.ReadBack

/-!
# Diagnostics read back from JSON

A diagnostic is encoded as an object in two ways, which differ in the order of its fields only. Both
are read back as the diagnostic, as is the object with its fields in any other order
(`ofTree?_object`): the reader looks for each field by its name, and no name comes twice
(`single?_fieldTrees`). The words of the stages, the thirty-two bits of the line and all texts are
read from what they are written as.

Reading looks at the lexemes of a text, so blanks may be put between them (`ofJsonText?_of_row`).
-/

namespace GraphMarkup.Diagnostic

/-! ## Fields -/

/-- The fields of a diagnostic. -/
def fields (d : Diagnostic) : Json.Fields :=
  [("stage", .text d.stage.word), ("line", .number d.line.toNat), ("message", .text d.message)]

theorem toRecord_eq (d : Diagnostic) : d.toRecord = .object d.fields := rfl

theorem toJson_eq (d : Diagnostic) : d.toJson = .ofFields d.fields := rfl

theorem sorted_fields (d : Diagnostic) : d.fields.sorted =
    [("line", .number d.line.toNat), ("message", .text d.message), ("stage", .text d.stage.word)] :=
  rfl

theorem perm_sorted_fields (d : Diagnostic) : d.fields.sorted.Perm d.fields := by
  rw [sorted_fields]
  exact @List.perm_append_comm _ [_, _] [_]

theorem nodup_fields (d : Diagnostic) : (d.fields.map (·.1)).Nodup := by
  show ["stage", "line", "message"].Nodup
  decide

/-! ## Reading -/

theorem fieldTrees_eq_map (fields : Json.Fields) :
    Json.fieldTrees fields = fields.map fun (name, v) => (some name, v.tree) := by
  induction fields with
  | nil => rfl
  | cons field more ih =>
    obtain ⟨name, v⟩ := field
    rw [Json.fieldTrees, ih, List.map_cons]

theorem filter_name {fields : Json.Fields} (hDistinct : (fields.map (·.1)).Nodup)
    {name : String} {v : Json.Value} (hField : (name, v) ∈ fields) :
    fields.filter (·.1 == name) = [(name, v)] := by
  induction fields with
  | nil => cases hField
  | cons field more ih =>
    obtain ⟨hNew, hMore⟩ := List.nodup_cons.1 hDistinct
    have hApart : ∀ other ∈ more, other.1 ≠ field.1 := fun other hOther hName =>
      hNew (List.mem_map.2 ⟨other, hOther, hName⟩)
    rcases List.mem_cons.1 hField with rfl | hField
    · have hNone : more.filter (·.1 == name) = [] :=
        List.filter_eq_nil_iff.2 fun other hOther => by simpa using hApart other hOther
      simp [hNone]
    · have hOther : field.1 ≠ name := (hApart _ hField).symm
      simp [hOther, ih hMore hField]

/-- Where no name comes twice, a field is the only one of its name. -/
theorem single?_fieldTrees {fields : Json.Fields} (hDistinct : (fields.map (·.1)).Nodup)
    {name : String} {v : Json.Value} (hField : (name, v) ∈ fields) :
    single? name (Json.fieldTrees fields) = some v.tree := by
  have hFilter : (Json.fieldTrees fields).filter (·.1 == some name) =
      (fields.filter (·.1 == name)).map fun (name, v) => (some name, v.tree) := by
    rw [fieldTrees_eq_map, List.filter_map]
    rfl
  rw [single?, hFilter, filter_name hDistinct hField]
  rfl

theorem readStage?_word (stage : Stage) :
    readStage? (.string (some stage.word)) = some stage := by
  rw [readStage?, Stage.ofWord?_word]

theorem readLine?_toNat (line : UInt32) : readLine? (.natural line.toNat) = some line := by
  rw [readLine?, if_pos line.toNat_lt, UInt32.ofNat_toNat]

/-- A diagnostic is read from its fields in whatever order they are. -/
theorem ofTree?_object {d : Diagnostic} {fields : Json.Fields} (h : fields.Perm d.fields) :
    ofTree? (Json.Value.object fields).tree = some d := by
  have hDistinct : (fields.map (·.1)).Nodup :=
    (h.map _).nodup_iff.2 d.nodup_fields
  have hNamed : (Json.fieldTrees fields).all (·.1.isSome) = true := by
    rw [fieldTrees_eq_map, List.all_map]
    exact List.all_eq_true.2 fun _ _ => rfl
  have hGuard : (guard ((Json.fieldTrees fields).all (·.1.isSome)) : Option Unit) = some () := by
    rw [hNamed]
    rfl
  have hStage := single?_fieldTrees hDistinct (h.mem_iff.2 (.head _))
  have hLine := single?_fieldTrees hDistinct (h.mem_iff.2 (.tail _ (.head _)))
  have hMessage := single?_fieldTrees hDistinct (h.mem_iff.2 (.tail _ (.tail _ (.head _))))
  simp only [Json.Value.tree] at hStage hLine hMessage
  rw [Json.Value.tree, ofTree?, hGuard]
  simp only [hStage, hLine, hMessage, Option.bind_eq_bind, Option.bind_some, Option.pure_def,
    readStage?_word, readLine?_toNat, readMessage?]

theorem ofJsonText?_of_row {d : Diagnostic} {fields : Json.Fields} (h : fields.Perm d.fields)
    {text : String} (hRow : Json.Row Json.IsGap (Json.Value.object fields).lexemes text.toList) :
    ofJsonText? text = some d := by
  rw [ofJsonText?, Json.ofText?_of_row hRow]
  exact ofTree?_object h

theorem ofJsonText?_compact {d : Diagnostic} {fields : Json.Fields} (h : fields.Perm d.fields) :
    ofJsonText? (Json.Value.object fields).compact = some d := by
  rw [ofJsonText?, Json.ofText?_compact]
  exact ofTree?_object h

/-! ## Both encodings -/

theorem stringText_word (stage : Stage) :
    Json.stringText stage.word = "\"" ++ stage.word ++ "\"" := by
  cases stage <;> decide +kernel

theorem stringText_names : Json.stringText "stage" = "\"stage\"" ∧
    Json.stringText "line" = "\"line\"" ∧ Json.stringText "message" = "\"message\"" := by
  decide +kernel

theorem compact_toRecord (d : Diagnostic) : d.toRecord.compact =
    "\x7b\"stage\":\"" ++ d.stage.word ++ "\",\"line\":" ++ toString d.line.toNat ++
      ",\"message\":" ++ Json.stringText d.message ++ "\x7d" := by
  simp only [toRecord_eq, fields, Json.Value.compact, Json.compactFields, stringText_word,
    stringText_names]
  rw [← String.toList_inj]
  simp

theorem compact_toJson (d : Diagnostic) : d.toJson.compact =
    "\x7b\"line\":" ++ toString d.line.toNat ++ ",\"message\":" ++ Json.stringText d.message ++
      ",\"stage\":\"" ++ d.stage.word ++ "\"\x7d" := by
  simp only [toJson_eq, Json.Value.ofFields, sorted_fields, Json.Value.compact, Json.compactFields,
    stringText_word, stringText_names]
  rw [← String.toList_inj]
  simp

/-- The two encodings of a diagnostic are one object, in two orders of its fields. From the text of
this object on one line the diagnostic is read back, in whatever order the fields are and whatever
blanks are put between the lexemes, which stand there with nothing between them. -/
theorem survives_json (d : Diagnostic) :
    (d.toRecord = .object d.fields ∧ d.toJson = .ofFields d.fields) ∧
      (d.toRecord.compact = "\x7b\"stage\":\"" ++ d.stage.word ++ "\",\"line\":" ++
            toString d.line.toNat ++ ",\"message\":" ++ Json.stringText d.message ++ "\x7d" ∧
          d.toJson.compact = "\x7b\"line\":" ++ toString d.line.toNat ++ ",\"message\":" ++
            Json.stringText d.message ++ ",\"stage\":\"" ++ d.stage.word ++ "\"\x7d") ∧
        (ofJsonText? d.toRecord.compact = some d ∧ ofJsonText? d.toJson.compact = some d) ∧
          ∀ fields : Json.Fields, fields.Perm d.fields →
            Json.Row (· = []) (Json.Value.object fields).lexemes
                (Json.Value.object fields).compact.toList ∧
              ∀ text : String,
                Json.Row Json.IsGap (Json.Value.object fields).lexemes text.toList →
                  ofJsonText? text = some d :=
  ⟨⟨toRecord_eq d, toJson_eq d⟩, ⟨compact_toRecord d, compact_toJson d⟩,
    ⟨ofJsonText?_compact (.refl _), ofJsonText?_compact d.perm_sorted_fields⟩,
    fun _ hPerm => ⟨Json.row_compact _, fun _ => ofJsonText?_of_row hPerm⟩⟩

/-- The fields backwards and on several lines, with a message that is nearly all escaped. -/
theorem survives_json_backwards :
    ofJsonText? ("\n\x7b\"message\": \"\\\"\\\\\\n\\u0001\u00e9\", \"line\": 4294967295, " ++
        "\"stage\": \"extract\"\n\x7d") =
      some ⟨.extract, 4294967295, "\"\\\n\x01\u00e9"⟩ := by
  let d : Diagnostic := ⟨.extract, 4294967295, "\"\\\n\x01\u00e9"⟩
  have hFields := Json.row_separated Json.isKind_isGap Json.isGap_space
    (.cons (Json.row_field Json.isKind_isGap Json.isGap_space "message"
        ((Json.Lexeme.Spelled.string d.message).row Json.isKind_isGap))
      (.cons (Json.row_field Json.isKind_isGap Json.isGap_space "line"
          (Json.row_number Json.isKind_isGap d.line.toNat))
        (.cons (Json.row_field Json.isKind_isGap Json.isGap_space "stage"
            ((Json.Lexeme.Spelled.string d.stage.word).row Json.isKind_isGap)) .nil)))
  have hRow := (Json.row_bracketed Json.isKind_isGap Json.isGap_nil .curly
    (Json.isGap_newLine 0) hFields).gap Json.isKind_isGap (Json.isGap_newLine 0)
  refine ((survives_json d).2.2.2 d.fields.reverse (List.reverse_perm _)).2 _ ?_
  refine (congrArg (Json.Row Json.IsGap _) ?_).mp hRow
  decide +kernel

end GraphMarkup.Diagnostic
