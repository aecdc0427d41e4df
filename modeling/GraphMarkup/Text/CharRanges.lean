/-!
# Classes of characters given by ranges

A class of characters is written down as the ranges of code points that it covers, in ascending
order. `CharRanges.contains` searches such a list and stops at the first range that starts above
the character; `CharRanges.contains_iff` says that on an ascending list nothing is missed.
-/

namespace GraphMarkup.Text

/-- Ranges of code points, both ends included. -/
abbrev CharRanges := List (Nat × Nat)

namespace CharRanges

/-- Each range ends before the next one starts. -/
def Ascending (t : CharRanges) : Prop := t.Pairwise fun a b => a.2 < b.1

/-- Whether a code point lies in one of the ranges, the ranges being in ascending order. -/
def covers : CharRanges → Nat → Bool
  | [], _ => false
  | (lo, hi) :: rest, n => if n < lo then false else n ≤ hi || covers rest n

/-- Whether a character belongs to the class. -/
def contains (t : CharRanges) (c : Char) : Bool := t.covers c.toNat

/-- What the search finds is in one of the ranges. -/
theorem exists_of_covers {t : CharRanges} {n : Nat} (h : t.covers n = true) :
    ∃ r ∈ t, r.1 ≤ n ∧ n ≤ r.2 := by
  induction t with
  | nil => simp [covers] at h
  | cons r rest ih =>
    obtain ⟨lo, hi⟩ := r
    unfold covers at h
    split at h
    · simp at h
    next hLo =>
      simp only [Bool.or_eq_true, decide_eq_true_eq] at h
      rcases h with hHi | hRest
      · exact ⟨(lo, hi), List.mem_cons_self, Nat.le_of_not_lt hLo, hHi⟩
      · obtain ⟨r, hMem, hIn⟩ := ih hRest
        exact ⟨r, List.mem_cons_of_mem _ hMem, hIn⟩

/-- On ascending ranges the search stops early only where nothing can follow. -/
theorem covers_iff {t : CharRanges} (hAsc : t.Ascending)
    (hOrdered : ∀ r ∈ t, r.1 ≤ r.2) (n : Nat) :
    t.covers n = true ↔ ∃ r ∈ t, r.1 ≤ n ∧ n ≤ r.2 := by
  refine ⟨exists_of_covers, ?_⟩
  induction t with
  | nil => simp
  | cons r rest ih =>
    obtain ⟨lo, hi⟩ := r
    obtain ⟨hHead, hTail⟩ := List.pairwise_cons.1 hAsc
    rintro ⟨q, hMem, hqLo, hqHi⟩
    have hLoHi : lo ≤ hi := hOrdered _ List.mem_cons_self
    rcases List.mem_cons.1 hMem with rfl | hRest
    · unfold covers
      simp [Nat.not_lt.2 hqLo, hqHi]
    · have hAbove : hi < q.1 := hHead q hRest
      have hNot : ¬ n < lo := by omega
      have hIn := ih hTail (fun r hr => hOrdered r (List.mem_cons_of_mem _ hr))
        ⟨q, hRest, hqLo, hqHi⟩
      unfold covers
      simp [hNot, hIn]

theorem contains_iff {t : CharRanges} (hAsc : t.Ascending)
    (hOrdered : ∀ r ∈ t, r.1 ≤ r.2) (c : Char) :
    t.contains c = true ↔ ∃ r ∈ t, r.1 ≤ c.toNat ∧ c.toNat ≤ r.2 :=
  covers_iff hAsc hOrdered c.toNat

end CharRanges

end GraphMarkup.Text
