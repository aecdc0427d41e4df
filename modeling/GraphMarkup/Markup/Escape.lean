/-!
# Escaping text in markup

Text that stands in the content of an element or in a quoted attribute must not hold the
characters that markup is made of. Four characters are reserved and written as references; all
others stand for themselves. Most texts hold none of the four and are left as they are.
-/

namespace GraphMarkup.Markup

/-- A character as it is written in markup. -/
def escapeChar : Char → List Char
  | '&' => ['&', 'a', 'm', 'p', ';']
  | '<' => ['&', 'l', 't', ';']
  | '>' => ['&', 'g', 't', ';']
  | '"' => ['&', 'q', 'u', 'o', 't', ';']
  | c => [c]

/-- Whether a character cannot stand for itself. -/
def isReserved (c : Char) : Bool := c == '&' || c == '<' || c == '>' || c == '"'

/-- A text with every character written as in markup. -/
def escapeAll (text : String) : String := String.ofList (text.toList.flatMap escapeChar)

/-- A text as it is written in markup: itself if it has no reserved character. -/
def escape (text : String) : String :=
  if text.toList.any isReserved then escapeAll text else text

theorem escapeChar_of_not_isReserved {c : Char} (h : isReserved c = false) :
    escapeChar c = [c] := by
  unfold escapeChar
  split <;> simp_all [isReserved]

/-- Leaving a text as it is and writing it character by character come to the same. -/
theorem escape_eq_escapeAll (text : String) : escape text = escapeAll text := by
  unfold escape
  split
  · rfl
  next hNone =>
    have hPlain : ∀ c ∈ text.toList, escapeChar c = [c] := fun c hc => by
      apply escapeChar_of_not_isReserved
      simp only [List.any_eq_true, not_exists, not_and, Bool.not_eq_true] at hNone
      exact hNone c hc
    have hFlat : ∀ cs : List Char, (∀ c ∈ cs, escapeChar c = [c]) →
        cs.flatMap escapeChar = cs := by
      intro cs h
      induction cs with
      | nil => rfl
      | cons c rest ih =>
        rw [List.flatMap_cons, h c List.mem_cons_self,
          ih fun d hd => h d (List.mem_cons_of_mem _ hd)]
        rfl
    rw [escapeAll, hFlat _ hPlain, String.ofList_toList]

/-! ## Nothing is lost -/

theorem escapeChar_ne_nil (c : Char) : escapeChar c ≠ [] := by
  unfold escapeChar
  split <;> simp

/-- What a character is written as tells where it ends and which one it is. -/
theorem escapeChar_append_inj {c d : Char} {cs ds : List Char}
    (h : escapeChar c ++ cs = escapeChar d ++ ds) : c = d ∧ cs = ds := by
  unfold escapeChar at h
  split at h <;> split at h <;>
    simp only [List.cons_append, List.nil_append, List.cons.injEq] at h <;> grind

theorem flatMap_escapeChar_inj {cs ds : List Char}
    (h : cs.flatMap escapeChar = ds.flatMap escapeChar) : cs = ds := by
  induction cs generalizing ds with
  | nil =>
    cases ds with
    | nil => rfl
    | cons d ds => simp [escapeChar_ne_nil] at h
  | cons c cs ih =>
    cases ds with
    | nil => simp [escapeChar_ne_nil] at h
    | cons d ds =>
      simp only [List.flatMap_cons] at h
      obtain ⟨rfl, hRest⟩ := escapeChar_append_inj h
      rw [ih hRest]

/-- Different texts are written differently. -/
theorem escape_inj {s t : String} : escape s = escape t ↔ s = t := by
  refine ⟨fun h => ?_, fun h => h ▸ rfl⟩
  rw [escape_eq_escapeAll, escape_eq_escapeAll] at h
  exact String.toList_inj.1 (flatMap_escapeChar_inj (String.ofList_inj.1 h))

end GraphMarkup.Markup
