import GraphMarkup.Json.Tree
import GraphMarkup.Proofs.Json.Rows

/-!
# Written values read back

A value that is written in either layout is read as itself (`ofText?_compact`, `ofText?_pretty`), so
neither layout writes two values alike (`compact_inj`, `pretty_inj`). Both layouts write the same
lexemes (`Value.lexemes`) and differ in the blanks between them only, so all that is said about them
apart is that they are rows of these lexemes, without any blank (`row_compact`) or with some
(`row_prettyAt`). What a row is read as is said once, for blanks wherever there may be any
(`ofText?_of_row`).

The reader keeps the containers that are still open. Reading the lexemes of a value has one effect,
whatever is open: the value joins the innermost container (`foldlM_value`). The parts of a container
are read with the comma in front of each but the first.
-/

namespace GraphMarkup.Json

/-! ## Values as they are read -/

/-- Parts one after the other, with commas between them. -/
def separated (parts : List (List Lexeme)) : List Lexeme := [Lexeme.comma].intercalate parts

mutual

/-- The lexemes of a value. -/
def Value.lexemes : Value → List Lexeme
  | .null => [.null]
  | .text s => [.string (some s)]
  | .number n => [.number (some n)]
  | .list items => .opening .square :: separated (itemLexemes items) ++ [.closing .square]
  | .object fields => .opening .curly :: separated (fieldLexemes fields) ++ [.closing .curly]

def itemLexemes : List Value → List (List Lexeme)
  | [] => []
  | v :: more => v.lexemes :: itemLexemes more

def fieldLexemes : List (String × Value) → List (List Lexeme)
  | [] => []
  | (name, v) :: more => (.string (some name) :: .colon :: v.lexemes) :: fieldLexemes more

end

mutual

/-- What a value is read as. -/
def Value.tree : Value → Tree
  | .null => .null
  | .text s => .string (some s)
  | .number n => .natural n
  | .list items => .list (itemTrees items)
  | .object fields => .object (fieldTrees fields)

def itemTrees : List Value → List Tree
  | [] => []
  | v :: more => v.tree :: itemTrees more

def fieldTrees : List (String × Value) → List (Option String × Tree)
  | [] => []
  | (name, v) :: more => (some name, v.tree) :: fieldTrees more

end

mutual

theorem Value.tree_inj : ∀ {v w : Value}, v.tree = w.tree → v = w
  | .null, .null, _ => rfl
  | .text _, .text _, h => by cases h; rfl
  | .number _, .number _, h => by cases h; rfl
  | .list _, .list _, h => congrArg Value.list (itemTrees_inj (Tree.list.inj h))
  | .object _, .object _, h => congrArg Value.object (fieldTrees_inj (Tree.object.inj h))

theorem itemTrees_inj : ∀ {vs ws : List Value}, itemTrees vs = itemTrees ws → vs = ws
  | [], [], _ => rfl
  | _ :: _, _ :: _, h => by
    obtain ⟨hHead, hMore⟩ := List.cons.inj h
    rw [Value.tree_inj hHead, itemTrees_inj hMore]

theorem fieldTrees_inj : ∀ {fs gs : List (String × Value)}, fieldTrees fs = fieldTrees gs → fs = gs
  | [], [], _ => rfl
  | (_, _) :: _, (_, _) :: _, h => by
    obtain ⟨hHead, hMore⟩ := List.cons.inj h
    obtain ⟨hName, hValue⟩ := Prod.mk.inj hHead
    rw [Option.some.inj hName, Value.tree_inj hValue, fieldTrees_inj hMore]

end

/-! ## Reading lexemes -/

/-- The lexemes of parts behind a first one. -/
def following (parts : List (List Lexeme)) : List Lexeme := parts.flatMap (.comma :: ·)

theorem separated_cons (part : List Lexeme) (more : List (List Lexeme)) :
    separated (part :: more) = part ++ following more := by
  unfold separated
  induction more generalizing part with
  | nil => simp [following]
  | cons next more ih =>
    rw [List.intercalate_cons_cons, ih, following, following, List.flatMap_cons]
    simp

/-- The first item of a list is read like any other value: it does not begin with the end of a
list. -/
theorem foldlM_firstItem (v : Value) (frames : List Frame) (rest : List Lexeme) :
    (v.lexemes ++ rest).foldlM Awaited.step? (.firstItem frames) =
      (v.lexemes ++ rest).foldlM Awaited.step? (.value (.list [] :: frames)) := by
  cases v <;> rfl

mutual

/-- A value joins the innermost open container. -/
theorem foldlM_value : ∀ (v : Value) (frames : List Frame) (rest : List Lexeme),
    (v.lexemes ++ rest).foldlM Awaited.step? (.value frames) =
      rest.foldlM Awaited.step? (.afterValue v.tree frames)
  | .null, _, _ => rfl
  | .text _, _, _ => rfl
  | .number _, _, _ => rfl
  | .list [], _, _ => rfl
  | .list (v :: more), frames, rest => by
    simp only [Value.lexemes, itemLexemes, separated_cons, List.cons_append, List.append_assoc]
    calc (v.lexemes ++ (following (itemLexemes more) ++ ([Lexeme.closing .square] ++ rest))).foldlM
            Awaited.step? (.firstItem frames)
        _ = (following (itemLexemes more) ++ .closing .square :: rest).foldlM Awaited.step?
            (.nextItem [v.tree] frames) := by
          rw [foldlM_firstItem, foldlM_value v]
          rfl
        _ = _ := foldlM_nextItem more [v.tree] frames rest
  | .object [], _, _ => rfl
  | .object ((name, v) :: more), frames, rest => by
    simp only [Value.lexemes, fieldLexemes, separated_cons, List.cons_append, List.append_assoc]
    calc (v.lexemes ++ (following (fieldLexemes more) ++ ([Lexeme.closing .curly] ++ rest))).foldlM
            Awaited.step? (.value (.object [] (some name) :: frames))
        _ = (following (fieldLexemes more) ++ .closing .curly :: rest).foldlM Awaited.step?
            (.nextField [(some name, v.tree)] frames) := by
          rw [foldlM_value v]
          rfl
        _ = _ := foldlM_nextField more [(some name, v.tree)] frames rest

theorem foldlM_nextItem : ∀ (items : List Value) (read : List Tree) (frames : List Frame)
    (rest : List Lexeme),
    (following (itemLexemes items) ++ .closing .square :: rest).foldlM Awaited.step?
        (.nextItem read frames) =
      rest.foldlM Awaited.step? (.afterValue (.list (read.reverse ++ itemTrees items)) frames)
  | [], read, frames, rest => by
    rw [itemTrees, List.append_nil]
    rfl
  | v :: more, read, frames, rest => by
    simp only [itemLexemes, following, List.flatMap_cons, List.cons_append, List.append_assoc]
    calc (v.lexemes ++ (following (itemLexemes more) ++ .closing .square :: rest)).foldlM
            Awaited.step? (.value (.list read :: frames))
        _ = (following (itemLexemes more) ++ .closing .square :: rest).foldlM Awaited.step?
            (.nextItem (v.tree :: read) frames) := foldlM_value v _ _
        _ = _ := by
          rw [foldlM_nextItem more, List.reverse_cons, List.append_assoc]
          rfl

theorem foldlM_nextField : ∀ (fields : List (String × Value))
    (read : List (Option String × Tree)) (frames : List Frame) (rest : List Lexeme),
    (following (fieldLexemes fields) ++ .closing .curly :: rest).foldlM Awaited.step?
        (.nextField read frames) =
      rest.foldlM Awaited.step? (.afterValue (.object (read.reverse ++ fieldTrees fields)) frames)
  | [], read, frames, rest => by
    rw [fieldTrees, List.append_nil]
    rfl
  | (name, v) :: more, read, frames, rest => by
    simp only [fieldLexemes, following, List.flatMap_cons, List.cons_append, List.append_assoc]
    calc (v.lexemes ++ (following (fieldLexemes more) ++ .closing .curly :: rest)).foldlM
            Awaited.step? (.value (.object read (some name) :: frames))
        _ = (following (fieldLexemes more) ++ .closing .curly :: rest).foldlM Awaited.step?
            (.nextField ((some name, v.tree) :: read) frames) := foldlM_value v _ _
        _ = _ := by
          rw [foldlM_nextField more, List.reverse_cons, List.append_assoc]
          rfl

end

/-- The lexemes of a value are read as the value. -/
theorem ofLexemes?_lexemes (v : Value) : Tree.ofLexemes? v.lexemes = some v.tree := by
  have hRead := foldlM_value v [] []
  rw [List.append_nil] at hRead
  rw [Tree.ofLexemes?, hRead]
  rfl

/-! ## Rows of a value -/

theorem numbersApart_separated {parts : List (List Lexeme)} (h : ∀ p ∈ parts, NumbersApart p) :
    NumbersApart (separated parts) := by
  induction parts with
  | nil => exact .nil
  | cons part more ih =>
    obtain ⟨hPart, hMore⟩ := List.forall_mem_cons.1 h
    cases more with
    | nil => simpa [separated] using hPart
    | cons next more =>
      have hRest := ih hMore
      rw [separated, List.intercalate_cons_cons, List.append_assoc]
      exact hPart.append_cons rfl hRest

theorem numbersApart_bracketed (b : Bracket) {ls : List Lexeme} (h : NumbersApart ls) :
    NumbersApart (.opening b :: ls ++ [.closing b]) := by
  have hClosed : NumbersApart (ls ++ [.closing b]) := h.append_cons rfl .nil
  have hEmpty : NumbersApart [] := .nil
  exact hEmpty.append_cons rfl hClosed

mutual

/-- In a value a number is followed by a mark or by nothing. -/
theorem numbersApart_lexemes : ∀ v : Value, NumbersApart v.lexemes
  | .null => numbersApart_singleton _
  | .text _ => numbersApart_singleton _
  | .number _ => numbersApart_singleton _
  | .list items =>
    numbersApart_bracketed .square (numbersApart_separated (numbersApart_itemLexemes items))
  | .object fields =>
    numbersApart_bracketed .curly (numbersApart_separated (numbersApart_fieldLexemes fields))

theorem numbersApart_itemLexemes : ∀ items : List Value,
    ∀ p ∈ itemLexemes items, NumbersApart p
  | [] => List.forall_mem_nil _
  | v :: more =>
    List.forall_mem_cons.2 ⟨numbersApart_lexemes v, numbersApart_itemLexemes more⟩

theorem numbersApart_fieldLexemes : ∀ fields : List (String × Value),
    ∀ p ∈ fieldLexemes fields, NumbersApart p
  | [] => List.forall_mem_nil _
  | (name, v) :: more => by
    refine List.forall_mem_cons.2 ⟨?_, numbersApart_fieldLexemes more⟩
    exact (numbersApart_singleton (.string (some name))).append_cons rfl (numbersApart_lexemes v)

end

section Parts

variable {Gap : List Char → Prop} (hKind : IsKind Gap)

include hKind

theorem row_number (n : Nat) : Row Gap [.number (some n)] (toString n).toList := by
  rw [Nat.toString_eq_repr, Nat.toList_repr]
  exact (Lexeme.Spelled.number n).row hKind

variable {gap : List Char} (hGap : Gap gap)

include hGap

/-- A field is its name, the colon and its value. -/
theorem row_field (name : String) {ls : List Lexeme} {text : List Char} (h : Row Gap ls text) :
    Row Gap (.string (some name) :: .colon :: ls)
      ((stringText name).toList ++ ':' :: gap ++ text) := by
  have hName := (Lexeme.Spelled.string name).row hKind
  have hColon := (row_mark hKind (by decide : (Lexeme.colon, ':') ∈ marks)).append hKind
    (h.gap hKind hGap)
  simpa using hName.append hKind hColon

theorem row_separated {parts : List (List Lexeme)} {texts : List (List Char)}
    (h : List.Forall₂ (Row Gap) parts texts) :
    Row Gap (separated parts) ((',' :: gap).intercalate texts) := by
  induction h with
  | nil => exact .done hKind.nothing
  | @cons part text parts texts hHead hMore ih =>
    cases hMore with
    | nil => simpa [separated] using hHead
    | cons hNext hMore =>
      have hComma := (row_mark hKind (by decide : (Lexeme.comma, ',') ∈ marks)).append hKind
        (ih.gap hKind hGap)
      rw [separated, List.intercalate_cons_cons, List.intercalate_cons_cons]
      simpa [separated] using hHead.append hKind hComma

theorem row_bracketed (b : Bracket) {gap' : List Char} (hGap' : Gap gap') {ls : List Lexeme}
    {text : List Char} (h : Row Gap ls text) :
    Row Gap (.opening b :: ls ++ [.closing b]) (b.left :: gap ++ text ++ gap' ++ [b.right]) := by
  have hOpened := (row_mark hKind (mem_marks_opening b)).append hKind (h.gap hKind hGap)
  have hClosing := (row_mark hKind (mem_marks_closing b)).gap hKind hGap'
  simpa using hOpened.append hKind hClosing

end Parts

/-! ## Both layouts -/

mutual

/-- On one line there is nothing between the lexemes of a value. -/
theorem row_compact : ∀ v : Value, Row (· = []) v.lexemes v.compact.toList
  | .null => Lexeme.Spelled.null.row isKind_nothing
  | .text s => (Lexeme.Spelled.string s).row isKind_nothing
  | .number n => row_number isKind_nothing n
  | .list items => by
    have hItems := row_separated isKind_nothing rfl (forall₂_compactItems items)
    have hList := row_bracketed isKind_nothing rfl .square rfl hItems
    simpa [Value.compact, Value.lexemes, Bracket.left, Bracket.right] using hList
  | .object fields => by
    have hFields := row_separated isKind_nothing rfl (forall₂_compactFields fields)
    have hObject := row_bracketed isKind_nothing rfl .curly rfl hFields
    simpa [Value.compact, Value.lexemes, Bracket.left, Bracket.right] using hObject

theorem forall₂_compactItems : ∀ items : List Value,
    List.Forall₂ (Row (· = [])) (itemLexemes items) ((compactItems items).map String.toList)
  | [] => .nil
  | v :: more => .cons (row_compact v) (forall₂_compactItems more)

theorem forall₂_compactFields : ∀ fields : List (String × Value),
    List.Forall₂ (Row (· = [])) (fieldLexemes fields) ((compactFields fields).map String.toList)
  | [] => .nil
  | (name, v) :: more => by
    have hField := row_field isKind_nothing rfl name (row_compact v)
    exact .cons (by simpa using hField) (forall₂_compactFields more)

end

theorem row_spread (depth : Nat) (b : Bracket) {left right : String}
    (hLeft : left.toList = [b.left]) (hRight : right.toList = [b.right]) {parts : List String}
    {lexemes : List (List Lexeme)}
    (h : List.Forall₂ (Row IsGap) lexemes (parts.map String.toList)) :
    Row IsGap (.opening b :: separated lexemes ++ [.closing b])
      (spread depth left right parts).toList := by
  cases parts with
  | nil =>
    have hParts := row_separated isKind_isGap isGap_nil h
    have hEmpty := row_bracketed isKind_isGap isGap_nil b isGap_nil hParts
    simpa [spread, hLeft, hRight] using hEmpty
  | cons part parts =>
    have hParts := row_separated isKind_isGap (isGap_newLine (depth + 1)) h
    have hSpread :=
      row_bracketed isKind_isGap (isGap_newLine (depth + 1)) b (isGap_newLine depth) hParts
    simpa [spread, hLeft, hRight] using hSpread

mutual

theorem row_prettyAt : ∀ (depth : Nat) (v : Value), Row IsGap v.lexemes (v.prettyAt depth).toList
  | _, .null => by
    rw [Value.prettyAt, Value.lexemes]
    exact Lexeme.Spelled.null.row isKind_isGap
  | _, .text s => by
    rw [Value.prettyAt, Value.lexemes]
    exact (Lexeme.Spelled.string s).row isKind_isGap
  | _, .number n => by
    rw [Value.prettyAt, Value.lexemes]
    exact row_number isKind_isGap n
  | depth, .list items => by
    rw [Value.prettyAt, Value.lexemes]
    exact row_spread depth .square (by decide) (by decide) (forall₂_prettyItems (depth + 1) items)
  | depth, .object fields => by
    rw [Value.prettyAt, Value.lexemes]
    exact row_spread depth .curly (by decide) (by decide) (forall₂_prettyFields (depth + 1) fields)

theorem forall₂_prettyItems : ∀ (depth : Nat) (items : List Value),
    List.Forall₂ (Row IsGap) (itemLexemes items) ((prettyItems depth items).map String.toList)
  | _, [] => .nil
  | depth, v :: more => by
    rw [prettyItems, itemLexemes]
    exact .cons (row_prettyAt depth v) (forall₂_prettyItems depth more)

theorem forall₂_prettyFields : ∀ (depth : Nat) (fields : List (String × Value)),
    List.Forall₂ (Row IsGap) (fieldLexemes fields) ((prettyFields depth fields).map String.toList)
  | _, [] => .nil
  | depth, (name, v) :: more => by
    have hField := row_field isKind_isGap isGap_space name (row_prettyAt depth v)
    rw [prettyFields, fieldLexemes]
    exact .cons (by simpa using hField) (forall₂_prettyFields depth more)

end

/-! ## Reading back -/

/-- A text that holds the lexemes of a value is read as the value. -/
theorem ofText?_of_laid {text : String} {v : Value} (h : Laid v.lexemes text.toList) :
    Tree.ofText? text = some v.tree := by
  rw [Tree.ofText?, lexemes?_of_laid h]
  exact ofLexemes?_lexemes v

/-- A value is read from its lexemes whatever blanks there are between them. -/
theorem ofText?_of_row {text : String} {v : Value} (h : Row IsGap v.lexemes text.toList) :
    Tree.ofText? text = some v.tree :=
  ofText?_of_laid (h.holds (numbersApart_lexemes v)).laid

theorem ofText?_compact (v : Value) : Tree.ofText? v.compact = some v.tree := by
  refine ofText?_of_row ((row_compact v).mono fun gap hGap => ?_)
  rw [hGap]
  exact isGap_nil

theorem ofText?_pretty (v : Value) : Tree.ofText? v.pretty = some v.tree :=
  ofText?_of_row (row_prettyAt 0 v)

/-- No two values are written alike on one line. -/
theorem compact_inj {v w : Value} (h : v.compact = w.compact) : v = w := by
  have hRead := ofText?_compact v
  rw [h, ofText?_compact w] at hRead
  exact (Value.tree_inj (Option.some.inj hRead)).symm

/-- No two values are written alike over several lines. -/
theorem pretty_inj {v w : Value} (h : v.pretty = w.pretty) : v = w := by
  have hRead := ofText?_pretty v
  rw [h, ofText?_pretty w] at hRead
  exact (Value.tree_inj (Option.some.inj hRead)).symm

end GraphMarkup.Json
