import GraphMarkup.Proofs.Dot.LeftOver
import GraphMarkup.Proofs.Dot.Reserved

/-!
# Where two sets of reserved words differ

Reserving other words makes other tokens of some of the words of a text, and it is the same text all
the same: token by token the lines agree, and so do the tokens, unless one of the sets reserves a
word and the other does not (`relabelled_ofText`).

Two facts make this out. Up to keywords a text has one stream, whatever is reserved. And each stream
keeps to its own set (`Token.KeepsTo`), so whether a word has become a keyword can be told from the
word and the set alone.
-/

namespace GraphMarkup.Dot

namespace Token

variable {ks : KeywordSet} {t : Token} {k : Keyword}

/-- A keyword is in the set, and a name is not the word of one that is. -/
structure KeepsTo (ks : KeywordSet) (t : Token) : Prop where
  keyword : ∀ k, t = .keyword k → ks.contains k
  ident : ∀ k, t = .ident k.word → ¬ ks.contains k

theorem Legal.keepsTo (h : t.Legal ks) : t.KeepsTo ks := by
  cases t with
  | ident name =>
    refine ⟨by simp, fun k hName hReserved => ?_⟩
    exact h.2 k hReserved (Token.ident.inj hName)
  | keyword l =>
    refine ⟨fun k hToken => ?_, by simp⟩
    cases hToken
    exact h
  | str | mark | unrecognized | eof => exact ⟨by simp, by simp⟩

/-- Of a word that is reserved there is the keyword. -/
theorem KeepsTo.eq_keyword_iff (h : t.KeepsTo ks) :
    t = .keyword k ↔ t.unreserved = .ident k.word ∧ ks.contains k := by
  constructor
  · intro hToken
    exact ⟨congrArg unreserved hToken, h.keyword k hToken⟩
  · rintro ⟨hWord, hReserved⟩
    cases t with
    | keyword l =>
      have hSpelled : l.word = k.word := Token.ident.inj hWord
      rw [Keyword.word_inj hSpelled]
    | ident name => exact absurd hReserved (h.ident k hWord)
    | str | mark | unrecognized | eof => cases hWord

/-- Of a word that is not reserved there is the name. -/
theorem KeepsTo.eq_ident_iff (h : t.KeepsTo ks) :
    t = .ident k.word ↔ t.unreserved = .ident k.word ∧ ¬ ks.contains k := by
  constructor
  · intro hToken
    exact ⟨congrArg unreserved hToken, h.ident k hToken⟩
  · rintro ⟨hWord, hFree⟩
    cases t with
    | keyword l =>
      have hSpelled : l.word = k.word := Token.ident.inj hWord
      rw [← Keyword.word_inj hSpelled] at hFree
      exact absurd (h.keyword l rfl) hFree
    | ident name => exact hWord
    | str | mark | unrecognized | eof => cases hWord

/-- Only a keyword is taken for something else where no word is reserved. -/
theorem unreserved_of_no_word (h : ∀ k : Keyword, t.unreserved ≠ .ident k.word) :
    t.unreserved = t := by
  cases t with
  | keyword k => exact absurd rfl (h k)
  | ident | str | mark | unrecognized | eof => rfl

end Token

/-- A keyword, and its word as a name where it is not reserved. -/
def Token.Freed (k : Keyword) (t u : Token) : Prop := t = .keyword k ∧ u = .ident k.word

/-- What two sets of reserved words make of one place in a text. -/
structure Located.Relabelled (ks ls : KeywordSet) (t u : Located) : Prop where
  line : u.line = t.line
  token : u.token = t.token ∨ ∃ k, Token.Freed k t.token u.token ∨ Token.Freed k u.token t.token
  /-- A keyword is freed in the second stream exactly if the first set alone reserves it. -/
  first : ∀ k, Token.Freed k t.token u.token ↔
    t.token.unreserved = .ident k.word ∧ ks.contains k ∧ ¬ ls.contains k
  second : ∀ k, Token.Freed k u.token t.token ↔
    u.token.unreserved = .ident k.word ∧ ls.contains k ∧ ¬ ks.contains k

section Streams

variable {ks ls : KeywordSet}

theorem Token.freed_iff {t u : Token} {k : Keyword} (ht : t.KeepsTo ks) (hu : u.KeepsTo ls)
    (hSame : t.unreserved = u.unreserved) :
    Freed k t u ↔ t.unreserved = .ident k.word ∧ ks.contains k ∧ ¬ ls.contains k := by
  rw [Freed, ht.eq_keyword_iff, hu.eq_ident_iff, hSame]
  constructor
  · rintro ⟨⟨hWord, hFirst⟩, -, hSecond⟩
    exact ⟨hWord, hFirst, hSecond⟩
  · rintro ⟨hWord, hFirst, hSecond⟩
    exact ⟨⟨hWord, hFirst⟩, hWord, hSecond⟩

/-- Tokens that are the same up to keywords differ in nothing else. -/
theorem Token.eq_or_freed {t u : Token} (ht : t.KeepsTo ks) (hu : u.KeepsTo ls)
    (hSame : t.unreserved = u.unreserved) : u = t ∨ ∃ k, Freed k t u ∨ Freed k u t := by
  by_cases hWord : ∃ k : Keyword, t.unreserved = .ident k.word
  · obtain ⟨k, hWord⟩ := hWord
    have hWord' : u.unreserved = .ident k.word := hSame ▸ hWord
    by_cases hFirst : ks.contains k
    · have hKeyword : t = .keyword k := ht.eq_keyword_iff.2 ⟨hWord, hFirst⟩
      by_cases hSecond : ls.contains k
      · exact .inl ((hu.eq_keyword_iff.2 ⟨hWord', hSecond⟩).trans hKeyword.symm)
      · exact .inr ⟨k, .inl ⟨hKeyword, hu.eq_ident_iff.2 ⟨hWord', hSecond⟩⟩⟩
    · have hName : t = .ident k.word := ht.eq_ident_iff.2 ⟨hWord, hFirst⟩
      by_cases hSecond : ls.contains k
      · exact .inr ⟨k, .inr ⟨hu.eq_keyword_iff.2 ⟨hWord', hSecond⟩, hName⟩⟩
      · exact .inl ((hu.eq_ident_iff.2 ⟨hWord', hSecond⟩).trans hName.symm)
  · have hNone : ∀ k : Keyword, t.unreserved ≠ .ident k.word := not_exists.1 hWord
    have hNone' : ∀ k : Keyword, u.unreserved ≠ .ident k.word := hSame ▸ hNone
    exact .inl (by rw [← unreserved_of_no_word hNone, hSame, unreserved_of_no_word hNone'])

theorem Located.relabelled {t u : Located} (ht : t.token.KeepsTo ks) (hu : u.token.KeepsTo ls)
    (hSame : t.unreserved = u.unreserved) : t.Relabelled ks ls u := by
  obtain ⟨hToken, hLine⟩ := Located.mk.inj hSame
  exact ⟨hLine.symm, Token.eq_or_freed ht hu hToken, fun k => Token.freed_iff ht hu hToken,
    fun k => Token.freed_iff hu ht hToken.symm⟩

theorem forall₂_relabelled {tokens others : TokenStream} (ht : ∀ t ∈ tokens, t.token.KeepsTo ks)
    (hu : ∀ u ∈ others, u.token.KeepsTo ls)
    (hSame : tokens.map Located.unreserved = others.map Located.unreserved) :
    List.Forall₂ (Located.Relabelled ks ls) tokens others := by
  induction tokens generalizing others with
  | nil =>
    rw [List.map_eq_nil_iff.1 hSame.symm]
    exact .nil
  | cons t tokens ih =>
    obtain ⟨u, others, rfl, hFirst, hLater⟩ := List.map_eq_cons_iff.1 hSame.symm
    rw [List.forall_mem_cons] at ht hu
    exact .cons (Located.relabelled ht.1 hu.1 hFirst.symm) (ih ht.2 hu.2 hLater.symm)

theorem keepsTo_of_mem_ending {line : UInt32} {left : List Char} {t : Located}
    (hMem : t ∈ ending line left) : t.token.KeepsTo ks := by
  rcases mem_ending_iff.1 hMem with rfl | ⟨-, rfl⟩
  · exact ⟨by simp, by simp⟩
  · exact ⟨by simp, by simp⟩

/-- The tokens of a text keep to the words that are reserved. -/
theorem keepsTo_of_mem_ofText {source : String} {t : Located}
    (hMem : t ∈ TokenStream.ofText ks source) : t.token.KeepsTo ks := by
  obtain ⟨body, line, hStream, hLegal⟩ := exists_ofText_eq_ending ks source
  rw [hStream] at hMem
  rcases List.mem_append.1 hMem with hBody | hEnding
  · exact (hLegal t hBody).keepsTo
  · exact keepsTo_of_mem_ending hEnding

/-- Under two sets of reserved words a text has as many tokens, on the same lines. A token is the
same in both streams, or it is a word that exactly one of the sets reserves, which is the keyword
there and a name in the other stream. No name is a word that its stream reserves. -/
theorem relabelled_ofText (ks ls : KeywordSet) (source : String) :
    List.Forall₂ (Located.Relabelled ks ls) (TokenStream.ofText ks source)
        (TokenStream.ofText ls source) ∧
      (∀ t ∈ TokenStream.ofText ks source, ∀ k, ks.contains k → t.token ≠ .ident k.word) ∧
      ∀ u ∈ TokenStream.ofText ls source, ∀ k, ls.contains k → u.token ≠ .ident k.word := by
  refine ⟨?_, fun t ht k hReserved hName => ?_, fun u hu k hReserved hName => ?_⟩
  · exact forall₂_relabelled (fun t => keepsTo_of_mem_ofText) (fun u => keepsTo_of_mem_ofText)
      (map_unreserved_ofText ks ls source)
  · exact (keepsTo_of_mem_ofText ht).ident k hName hReserved
  · exact (keepsTo_of_mem_ofText hu).ident k hName hReserved

end Streams

end GraphMarkup.Dot
