import GraphMarkup.Proofs.Markup.Unforgeable

/-!
# Escaping undone

An escaped text can be read back: `unescape` replaces each reference by its character in one pass
from the front. It does not look again at what it has put in, so a text that looks escaped already
comes back as it was.

The escaped texts are just the safe ones (`Safe`): those without a delimiter in which every
ampersand begins a reference. A safe text that is not empty begins with what some character is
written as (`Safe.exists_front`), so it can be taken apart from the front.
-/

namespace GraphMarkup.Markup

/-! ## References -/

/-- The references, each with the character that it stands for. -/
def references : List (String × Char) :=
  [("&amp;", '&'), ("&lt;", '<'), ("&gt;", '>'), ("&quot;", '"')]

theorem escapeChar_of_mem_references {r : String × Char} (hr : r ∈ references) :
    escapeChar r.2 = r.1.toList := by
  have hTable : ∀ r ∈ references, escapeChar r.2 = r.1.toList := by decide
  exact hTable r hr

theorem exists_reference {c : Char} (hc : isReserved c = true) : ∃ r ∈ references, r.2 = c := by
  simp only [isReserved, Bool.or_eq_true, beq_iff_eq] at hc
  rcases hc with ((rfl | rfl) | rfl) | rfl <;> decide

/-- An ampersand can only be at the beginning of what a character is written as, and what it
begins there is a reference. -/
theorem reference_of_escapeChar_eq {c : Char} {front after : List Char}
    (h : escapeChar c = front ++ '&' :: after) :
    ∃ r ∈ references, r.1.toList = '&' :: after := by
  cases hc : isReserved c with
  | true =>
    obtain ⟨r, hr, rfl⟩ := exists_reference hc
    rw [escapeChar_of_mem_references hr] at h
    have hTable : ∀ r ∈ references, '&' ∉ r.1.toList.tail := by decide
    cases front with
    | nil => exact ⟨r, hr, h⟩
    | cons d front =>
      have hMem : '&' ∈ r.1.toList.tail := by
        rw [h]
        exact List.mem_append_right front List.mem_cons_self
      exact absurd hMem (hTable r hr)
  | false =>
    rw [escapeChar_of_not_isReserved hc] at h
    have hMem : '&' ∈ [c] := by
      rw [h]
      exact List.mem_append_right front List.mem_cons_self
    rw [← List.mem_singleton.1 hMem] at hc
    cases hc

/-! ## Reading references -/

/-- Replaces references in one pass. An ampersand that begins none is left as it is. -/
def unescapeChars : List Char → List Char
  | '&' :: 'a' :: 'm' :: 'p' :: ';' :: rest => '&' :: unescapeChars rest
  | '&' :: 'l' :: 't' :: ';' :: rest => '<' :: unescapeChars rest
  | '&' :: 'g' :: 't' :: ';' :: rest => '>' :: unescapeChars rest
  | '&' :: 'q' :: 'u' :: 'o' :: 't' :: ';' :: rest => '"' :: unescapeChars rest
  | c :: rest => c :: unescapeChars rest
  | [] => []

/-- A text with its references replaced. -/
def unescape (text : String) : String := String.ofList (unescapeChars text.toList)

theorem unescapeChars_reference {r : String × Char} (hr : r ∈ references) (rest : List Char) :
    unescapeChars (r.1.toList ++ rest) = r.2 :: unescapeChars rest := by
  simp only [references, List.mem_cons, List.not_mem_nil, or_false] at hr
  rcases hr with rfl | rfl | rfl | rfl <;> rfl

theorem unescapeChars_plain {c : Char} (hc : c ≠ '&') (rest : List Char) :
    unescapeChars (c :: rest) = c :: unescapeChars rest := by
  rw [unescapeChars]
  all_goals
    intros
    contradiction

/-- A character is read back from what it is written as, whatever follows. -/
theorem unescapeChars_escapeChar (c : Char) (rest : List Char) :
    unescapeChars (escapeChar c ++ rest) = c :: unescapeChars rest := by
  cases hc : isReserved c with
  | true =>
    obtain ⟨r, hr, rfl⟩ := exists_reference hc
    rw [escapeChar_of_mem_references hr, unescapeChars_reference hr]
  | false =>
    have hAmp : c ≠ '&' := by
      rintro rfl
      cases hc
    rw [escapeChar_of_not_isReserved hc]
    exact unescapeChars_plain hAmp rest

theorem unescapeChars_flatMap (cs : List Char) : unescapeChars (cs.flatMap escapeChar) = cs := by
  induction cs with
  | nil => rfl
  | cons c cs ih => rw [List.flatMap_cons, unescapeChars_escapeChar, ih]

/-! ## Safe texts -/

/-- A text without a delimiter in which every ampersand begins a reference. -/
structure Safe (cs : List Char) : Prop where
  undelimited : ∀ c ∈ cs, isDelimiter c = false
  referring : ∀ after, '&' :: after <:+ cs → ∃ r ∈ references, r.1.toList <+: '&' :: after

theorem Safe.of_append {front cs : List Char} (h : Safe (front ++ cs)) : Safe cs where
  undelimited c hc := h.undelimited c (List.mem_append_right front hc)
  referring after hAfter := h.referring after (hAfter.trans (List.suffix_append front cs))

theorem safe_flatMap_escapeChar (cs : List Char) : Safe (cs.flatMap escapeChar) where
  undelimited c hc := by
    obtain ⟨d, -, hd⟩ := List.mem_flatMap.1 hc
    simpa using List.all_eq_true.1 (all_escapeChar d) c hd
  referring after := by
    rintro ⟨front, hFront⟩
    induction cs generalizing front with
    | nil => simp at hFront
    | cons c cs ih =>
      rw [List.flatMap_cons, List.append_eq_append_iff] at hFront
      rcases hFront with ⟨back, hChar, hAfter⟩ | ⟨front', -, hRest⟩
      · cases back with
        | nil => exact ih [] hAfter
        | cons d back =>
          -- The ampersand is in what the first character is written as.
          obtain ⟨rfl, hAfter⟩ := List.cons.inj hAfter
          obtain ⟨r, hr, hText⟩ := reference_of_escapeChar_eq hChar
          refine ⟨r, hr, ?_⟩
          rw [hText, hAfter]
          exact List.prefix_append _ _
      · exact ih front' hRest.symm

theorem Safe.exists_front {c : Char} {cs : List Char} (h : Safe (c :: cs)) :
    ∃ d rest, escapeChar d ++ rest = c :: cs := by
  by_cases hAmp : c = '&'
  · subst hAmp
    obtain ⟨r, hr, rest, hRest⟩ := h.referring cs List.suffix_rfl
    exact ⟨r.2, rest, by rw [escapeChar_of_mem_references hr, hRest]⟩
  · have hPlain : isReserved c = false := by
      have hDelimiter := h.undelimited c List.mem_cons_self
      simp only [isDelimiter, isReserved, Bool.or_eq_false_iff, beq_eq_false_iff_ne] at *
      exact ⟨⟨⟨hAmp, hDelimiter.1.1⟩, hDelimiter.1.2⟩, hDelimiter.2⟩
    exact ⟨c, cs, by rw [escapeChar_of_not_isReserved hPlain, List.singleton_append]⟩

/-- A safe text is what some text is written as. -/
theorem Safe.exists_flatMap {cs : List Char} (h : Safe cs) :
    ∃ ds : List Char, ds.flatMap escapeChar = cs := by
  induction hLength : cs.length using Nat.strongRecOn generalizing cs with
  | ind n ih =>
    cases cs with
    | nil => exact ⟨[], rfl⟩
    | cons c cs =>
      obtain ⟨d, rest, hFront⟩ := h.exists_front
      have hSafe : Safe rest := Safe.of_append (hFront ▸ h)
      have hShort : rest.length < n := by
        have hSome := List.length_pos_iff.2 (escapeChar_ne_nil d)
        have hSum := congrArg List.length hFront
        rw [List.length_append] at hSum
        omega
      obtain ⟨ds, rfl⟩ := ih rest.length hShort hSafe rfl
      exact ⟨d :: ds, by rw [List.flatMap_cons, hFront]⟩

/-! ## Escaped texts -/

theorem toList_escape (text : String) : (escape text).toList = text.toList.flatMap escapeChar := by
  rw [escape_eq_escapeAll, escapeAll, String.toList_ofList]

theorem unescape_escape (text : String) : unescape (escape text) = text := by
  rw [unescape, toList_escape, unescapeChars_flatMap, String.ofList_toList]

/-- A text that looks escaped is escaped all the same, and comes back as it was. -/
example : escape "&amp;lt; & lt;" = "&amp;amp;lt; &amp; lt;" ∧
    unescape "&amp;amp;lt; &amp; lt;" = "&amp;lt; & lt;" := by
  decide +kernel

theorem escape_unescape_iff (text : String) :
    escape (unescape text) = text ↔ Safe text.toList := by
  refine ⟨fun h => ?_, fun h => ?_⟩
  · rw [← h, toList_escape]
    exact safe_flatMap_escapeChar _
  · obtain ⟨ds, hText⟩ := h.exists_flatMap
    rw [← String.toList_inj, toList_escape, unescape, String.toList_ofList, ← hText,
      unescapeChars_flatMap]

theorem length_le_flatMap (cs : List Char) : cs.length ≤ (cs.flatMap escapeChar).length := by
  rw [List.length_flatMap, ← List.length_map fun c => (escapeChar c).length]
  refine List.length_le_sum_of_one_le _ fun n hn => ?_
  obtain ⟨c, -, rfl⟩ := List.mem_map.1 hn
  exact List.length_pos_iff.2 (escapeChar_ne_nil c)

/-- Copying a text character by character leaves it as it is just if none of them is reserved. -/
theorem escapeAll_eq_self_iff (text : String) :
    escapeAll text = text ↔ text.toList.any isReserved = false := by
  refine ⟨fun h => ?_, fun h => ?_⟩
  · have hSame : text.toList.flatMap escapeChar = text.toList := by
      rw [← toList_escape, escape_eq_escapeAll, h]
    generalize text.toList = cs at hSame
    induction cs with
    | nil => rfl
    | cons c cs ih =>
      rw [List.flatMap_cons] at hSame
      cases hc : isReserved c with
      | true =>
        -- A reference is longer than its character, and nothing becomes shorter.
        obtain ⟨r, hr, rfl⟩ := exists_reference hc
        have hTable : ∀ r ∈ references, 1 < r.1.toList.length := by decide
        have hLong := hTable r hr
        have hRest := length_le_flatMap cs
        have hLength := congrArg List.length hSame
        rw [escapeChar_of_mem_references hr, List.length_append, List.length_cons] at hLength
        omega
      | false =>
        rw [escapeChar_of_not_isReserved hc] at hSame
        rw [List.any_cons, hc, ih (List.cons.inj hSame).2]
        rfl
  · rw [← escape_eq_escapeAll, escape, if_neg (by simp [h])]

theorem escape_append (a b : String) : escape (a ++ b) = escape a ++ escape b := by
  rw [← String.toList_inj, toList_escape, String.toList_append, String.toList_append,
    toList_escape, toList_escape, List.flatMap_append]

/-- Escaping gives a safe text, from which one pass gives the text back; the safe texts are just
those that come about in this way. It makes no difference whether a text is left as it is or copied,
where the first is done just if copying would not change it, nor whether two texts are escaped
before or after they are put together. -/
theorem escape_reversible (text : String) :
    Safe (escape text).toList ∧ unescape (escape text) = text ∧
      (escape (unescape text) = text ↔ Safe text.toList) ∧
        escape text = escapeAll text ∧
          (escapeAll text = text ↔ text.toList.any isReserved = false) ∧
            ∀ more, escape (text ++ more) = escape text ++ escape more := by
  refine ⟨?_, unescape_escape text, escape_unescape_iff text, escape_eq_escapeAll text,
    escapeAll_eq_self_iff text, escape_append text⟩
  rw [toList_escape]
  exact safe_flatMap_escapeChar _

end GraphMarkup.Markup
