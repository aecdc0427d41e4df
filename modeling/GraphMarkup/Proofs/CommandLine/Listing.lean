import GraphMarkup.Proofs.CommandLine.Outcome
import GraphMarkup.Proofs.Dot.LeftOver
import GraphMarkup.Proofs.Dot.Reserved
import GraphMarkup.Proofs.Text.Quoted

/-!
# Listings of tokens

The tokens of a text are printed one after another, each with its line in front and a newline behind
it (`Located.entry`, `listing`). Strings are printed as they are, so an entry may hold newlines and
text that looks like other entries.

* From a listing its tokens can be told, with their texts and lines
  (`prints_tokens_apart`): every entry tells where it ends (`Located.entry_append_inj`). A number
  ends at its colon, the beginning of what follows tells the kind of the token (`Kind.ofChars`), and
  the text of a token holds nothing that could end it, because a name has no parenthesis in it and a
  string no quote, and left-over text is quoted.
* A token does not always have a line of its own: a string takes one line more for each newline in
  it. No other token does, so there is a line for each token just if no string holds a newline
  (`prints_tokens_lines`).
-/

namespace GraphMarkup

/-! ## Texts cut at newlines -/

namespace Text

/-- A text cut at every newline. What stands behind the last one is a part by itself. -/
def cut (text : String) : List String := (text.toList.splitOn '\n').map String.ofList

theorem cut_append_newline (s t : String) : cut (s ++ ("\n" ++ t)) = cut s ++ cut t := by
  have hChars : (s ++ ("\n" ++ t)).toList = s.toList ++ '\n' :: t.toList := by simp
  rw [cut, hChars, List.splitOn_append_cons_self, List.map_append]
  rfl

theorem cut_of_newline_not_mem {s : String} (h : '\n' ∉ s.toList) : cut s = [s] := by
  rw [cut, List.splitOn_eq_singleton h, List.map_singleton, String.ofList_toList]

theorem length_cut (s : String) : (cut s).length = newlines s.toList + 1 := by
  rw [cut, List.length_map]
  induction s.toList with
  | nil => rfl
  | cons c cs ih =>
    rw [List.splitOn_cons_eq_if_modifyHead, newlines, List.count_cons]
    rw [newlines] at ih
    by_cases hNewline : c = '\n'
    · simp [hNewline, ih]
    · simp [hNewline, ih]

/-- In front of a separator that starts with a character it does not hold, a text tells where it
ends. -/
theorem append_separator_inj {s t rest rest' : String} (separator : String) {stop : Char}
    (hStop : separator.toList.head? = some stop) (hs : stop ∉ s.toList) (ht : stop ∉ t.toList)
    (h : s ++ (separator ++ rest) = t ++ (separator ++ rest')) : s = t ∧ rest = rest' := by
  obtain ⟨more, hMore⟩ := List.head?_eq_some_iff.1 hStop
  have hChars := congrArg String.toList h
  simp only [String.toList_append, hMore, List.cons_append] at hChars
  obtain ⟨hText, hRest⟩ := append_cons_inj hs ht hChars
  exact ⟨String.toList_inj.1 hText, String.toList_inj.1 (List.append_cancel_left hRest)⟩

end Text

namespace Dot

/-! ## Entries -/

namespace Token

/-- What a token may hold, whatever words are reserved. -/
def Spelled : Token → Prop
  | .ident text => IsWord text.toList
  | .str text => '"' ∉ text.toList
  | _ => True

theorem Legal.spelled {ks : KeywordSet} {t : Token} (h : t.Legal ks) : t.Spelled := by
  cases t with
  | ident text => exact h.1
  | str text => exact h
  | keyword | mark | unrecognized | eof => trivial

/-- What an entry can be an entry of. -/
inductive Kind where
  | ident
  | str
  | keyword
  | mark
  | unrecognized
  | eof
deriving DecidableEq, Repr

def kind : Token → Kind
  | .ident _ => .ident
  | .str _ => .str
  | .keyword _ => .keyword
  | .mark _ => .mark
  | .unrecognized _ => .unrecognized
  | .eof => .eof

/-- The kind of a token by what it is shown with in front. -/
def Kind.ofChars : List Char → Kind
  | 'I' :: _ => .ident
  | 'S' :: _ => .str
  | 'K' :: _ => .keyword
  | 'E' :: 'r' :: _ => .unrecognized
  | 'E' :: _ => .eof
  | _ => .mark

theorem ofChars_display (t : Token) (rest : String) :
    Kind.ofChars (t.display ++ rest).toList = t.kind := by
  cases t with
  | ident | str | keyword | unrecognized | eof => simp [display, Kind.ofChars, kind]
  | mark m => cases m <;> simp [display, Mark.text, Kind.ofChars, kind]

end Token

theorem Mark.text_inj {m n : Mark} (h : m.text = n.text) : m = n := by
  cases m <;> cases n <;> first | rfl | exact absurd h (by decide)

/-- A word holds nothing that is no part of words. -/
theorem not_mem_of_isWord {cs : List Char} (h : IsWord cs) {c : Char} (hc : isWordPart c = false) :
    c ∉ cs := by
  intro hMem
  have hPart := Piece.isWordPart_of_legal_word h c hMem
  rw [hc] at hPart
  cases hPart

theorem Mark.newline_not_mem_text (m : Mark) : '\n' ∉ m.text.toList := by
  cases m <;> decide

theorem paren_not_mem_keyword (k : Keyword) : ')' ∉ k.word.toList := by
  cases k <;> decide

/-- A shown token tells which it is, and where it ends. -/
theorem Token.display_append_inj {t u : Token} (ht : t.Spelled) (hu : u.Spelled)
    {rest rest' : String} (h : t.display ++ ("\n" ++ rest) = u.display ++ ("\n" ++ rest')) :
    t = u ∧ rest = rest' := by
  have hKind : t.kind = u.kind := by rw [← ofChars_display t, h, ofChars_display]
  -- Only tokens of one kind are left, and each ends at what no text of its kind holds.
  match t, u, hKind with
  | .ident text, .ident text', _ =>
    simp only [display, String.append_assoc, String.append_right_inj] at h
    obtain ⟨rfl, hRest⟩ := Text.append_separator_inj ")" rfl (not_mem_of_isWord ht (by decide))
      (not_mem_of_isWord hu (by decide)) h
    exact ⟨rfl, (String.append_right_inj "\n").1 hRest⟩
  | .str text, .str text', _ =>
    simp only [display, String.append_assoc, String.append_right_inj] at h
    obtain ⟨rfl, hRest⟩ := Text.append_separator_inj "\")" rfl ht hu h
    exact ⟨rfl, (String.append_right_inj "\n").1 hRest⟩
  | .keyword k, .keyword k', _ =>
    simp only [display, String.append_assoc, String.append_right_inj] at h
    obtain ⟨hWord, hRest⟩ := Text.append_separator_inj ")" rfl (paren_not_mem_keyword k)
      (paren_not_mem_keyword k') h
    exact ⟨by rw [Keyword.word_inj hWord], (String.append_right_inj "\n").1 hRest⟩
  | .mark m, .mark m', _ =>
    obtain ⟨hText, hRest⟩ := Text.append_separator_inj "\n" rfl m.newline_not_mem_text
      m'.newline_not_mem_text h
    exact ⟨by rw [Mark.text_inj hText], hRest⟩
  | .unrecognized text, .unrecognized text', _ =>
    simp only [display, String.append_assoc, String.append_right_inj] at h
    obtain ⟨rfl, hRest⟩ := Text.quoted_append_inj h
    rw [String.append_right_inj] at hRest
    exact ⟨rfl, (String.append_right_inj "\n").1 hRest⟩
  | .eof, .eof, _ =>
    rw [String.append_right_inj] at h
    exact ⟨rfl, (String.append_right_inj "\n").1 h⟩

/-- A located token with the newline that ends its entry. -/
def Located.entry (t : Located) : String := t.display ++ "\n"

theorem Located.entry_append (t : Located) (rest : String) : t.entry ++ rest =
    toString t.line.toNat ++ (": " ++ (t.token.display ++ ("\n" ++ rest))) := by
  simp only [entry, display, String.append_assoc]

theorem Located.entry_append_inj {t u : Located} (ht : t.token.Spelled) (hu : u.token.Spelled)
    {rest rest' : String} (h : t.entry ++ rest = u.entry ++ rest') : t = u ∧ rest = rest' := by
  have hColon : ∀ n : Nat, ':' ∉ (toString n).toList := fun n => by
    rw [Nat.toString_eq_repr, Nat.toList_repr]
    exact Text.not_mem_toDigits (by decide) (by decide) (by decide)
  rw [entry_append, entry_append] at h
  obtain ⟨hLine, hToken⟩ := Text.append_separator_inj ": " rfl (hColon _) (hColon _) h
  obtain ⟨hToken, hRest⟩ := Token.display_append_inj ht hu hToken
  have hLines : t.line = u.line := UInt32.toNat_inj.1 (Nat.repr_inj.1 hLine)
  cases t
  cases u
  cases hToken
  cases hLines
  exact ⟨rfl, hRest⟩

/-! ## Listings -/

/-- All entries of a stream. -/
def TokenStream.listing (ts : TokenStream) : String := String.join (ts.map Located.entry)

theorem spelled_of_mem_ofText {ks : KeywordSet} {source : String} {t : Located}
    (ht : t ∈ TokenStream.ofText ks source) : t.token.Spelled := by
  obtain ⟨body, line, hStream, hLegal⟩ := exists_ofText_eq_ending ks source
  rw [hStream] at ht
  rcases List.mem_append.1 ht with hBody | hEnding
  · exact (hLegal t hBody).spelled
  · rcases mem_ending_iff.1 hEnding with rfl | ⟨-, rfl⟩
    · trivial
    · trivial

/-- A token that is spelled like one of a text. -/
abbrev SpelledToken := { t : Located // t.token.Spelled }

theorem selfDelimiting_entry : Markup.SelfDelimiting fun t : SpelledToken => t.1.entry := by
  intro t u rest rest' h
  obtain ⟨hToken, hRest⟩ := Located.entry_append_inj t.2 u.2 h
  exact ⟨Subtype.ext hToken, hRest⟩

theorem listing_inj {ts us : TokenStream} (hts : ∀ t ∈ ts, t.token.Spelled)
    (hus : ∀ u ∈ us, u.token.Spelled) (h : ts.listing = us.listing) : ts = us := by
  obtain ⟨ts, rfl⟩ : ∃ spelled : List SpelledToken, spelled.map Subtype.val = ts :=
    CanLift.prf ts hts
  obtain ⟨us, rfl⟩ : ∃ spelled : List SpelledToken, spelled.map Subtype.val = us :=
    CanLift.prf us hus
  have hSome : ∀ (t : SpelledToken) (after : String), t.1.entry ++ after ≠ "" := by
    intro t after hEmpty
    have hChars := congrArg String.toList hEmpty
    simp [Located.entry] at hChars
  rw [TokenStream.listing, TokenStream.listing, List.map_map, List.map_map] at h
  rw [(selfDelimiting_entry.join_inj hSome hSome (congrArg (· ++ "") h)).1]

/-! ## Lines of listings -/

/-- How many newlines are shown with a token. -/
def Token.breaks : Token → Nat
  | .str text => Text.newlines text.toList
  | _ => 0

theorem newlines_eq_zero {cs : List Char} (h : '\n' ∉ cs) : Text.newlines cs = 0 :=
  List.count_eq_zero.2 h

theorem Token.newlines_display {t : Token} (h : t.Spelled) :
    Text.newlines t.display.toList = t.breaks := by
  cases t with
  | ident text =>
    have hWord : '\n' ∉ text.toList := not_mem_of_isWord h (by decide)
    exact newlines_eq_zero (by simp [display, hWord])
  | str text =>
    simp only [display, String.toList_append, Text.newlines_append]
    exact Nat.zero_add _
  | keyword k => cases k <;> decide
  | mark m => cases m <;> decide
  | unrecognized text =>
    exact newlines_eq_zero (by simp [display, Text.newline_not_mem_quoted])
  | eof => decide

theorem Located.newlines_display {t : Located} (h : t.token.Spelled) :
    Text.newlines t.display.toList = t.token.breaks := by
  have hLine : '\n' ∉ (toString t.line.toNat ++ ": ").toList := by
    rw [String.toList_append, List.mem_append, Nat.toString_eq_repr, Nat.toList_repr, not_or]
    exact ⟨Text.not_mem_toDigits (by decide) (by decide) (by decide), by decide⟩
  rw [display, String.toList_append, Text.newlines_append, newlines_eq_zero hLine, Nat.zero_add,
    Token.newlines_display h]

theorem Token.breaks_eq_zero_iff {t : Token} :
    t.breaks = 0 ↔ ∀ text, t = .str text → '\n' ∉ text.toList := by
  cases t with
  | str text => simp [breaks, Text.newlines, List.count_eq_zero]
  | ident | keyword | mark | unrecognized | eof => simp [breaks]

theorem cut_listing (ts : TokenStream) :
    Text.cut ts.listing = (ts.flatMap fun t => Text.cut t.display) ++ [""] := by
  induction ts with
  | nil => rfl
  | cons t ts ih =>
    have hListing :
        TokenStream.listing (t :: ts) = t.display ++ ("\n" ++ TokenStream.listing ts) := by
      rw [TokenStream.listing, List.map_cons, String.join_cons, Located.entry, String.append_assoc]
      rfl
    rw [hListing, Text.cut_append_newline, ih, List.flatMap_cons, List.append_assoc]

section Lines

variable {ts : TokenStream} (hts : ∀ t ∈ ts, t.token.Spelled)

include hts

/-- There is a line for each token, and one more for each newline in a string. -/
theorem length_cut_listing : (Text.cut ts.listing).length =
    ts.length + (ts.map fun t => t.token.breaks).sum + 1 := by
  have hEntries : (ts.map fun t => (Text.cut t.display).length) =
      ts.map fun t => t.token.breaks + 1 := by
    refine List.map_congr_left fun t ht => ?_
    rw [Text.length_cut, Located.newlines_display (hts t ht)]
  have hSum : (ts.map fun t => t.token.breaks + 1).sum =
      (ts.map fun t => t.token.breaks).sum + ts.length := by
    rw [List.sum_map_add]
    simp
  rw [cut_listing, List.length_append, List.length_flatMap, hEntries, hSum, List.length_singleton,
    Nat.add_comm ts.length]

/-- Every entry is a line by itself just if no string holds a newline. -/
theorem cut_listing_eq_iff : Text.cut ts.listing = ts.map Located.display ++ [""] ↔
    ∀ t ∈ ts, ∀ text, t.token = .str text → '\n' ∉ text.toList := by
  constructor
  · intro hLines t ht
    have hLength := congrArg List.length hLines
    rw [length_cut_listing hts, List.length_append, List.length_map,
      List.length_singleton] at hLength
    have hSum : (ts.map fun t => t.token.breaks).sum = 0 := by omega
    rw [List.sum_eq_zero_iff] at hSum
    exact Token.breaks_eq_zero_iff.1 (hSum _ (List.mem_map_of_mem ht))
  · intro hWhole
    have hEntries : ∀ t ∈ ts, Text.cut t.display = [t.display] := by
      intro t ht
      have hNone := Located.newlines_display (hts t ht)
      rw [Token.breaks_eq_zero_iff.2 (hWhole t ht)] at hNone
      exact Text.cut_of_newline_not_mem (List.count_eq_zero.1 hNone)
    rw [cut_listing, List.flatMap_congr hEntries, List.map_eq_flatMap]

end Lines

end Dot

namespace CommandLine

open Dot (TokenStream KeywordSet Token)

namespace Program

variable {σ α : Type}

/-- A program that succeeds, and prints a text to its output. -/
def Prints (arrived : σ → Bytes) (p : Program σ α) (s : σ) (text : String) : Prop :=
  ∃ a s', p s = .ok a s' ∧ arrived s' = arrived s ++ Text.encode text

/-- Once its input is read, the token command prints the listing of its tokens. -/
theorem prints_tokens {sink : Sink σ} {arrived : σ → Bytes} (hTakes : sink.TakesAll arrived)
    {w : World} {file : Option String} {source : String} (hSource : readSource w file = .ok source)
    (ks : KeywordSet) (s : σ) :
    Prints arrived (tokens sink w file ks) s (TokenStream.ofText ks source).listing := by
  obtain ⟨s', hRun, hArrived⟩ :=
    delivers_lines hTakes Dot.Located.display (TokenStream.ofText ks source) s
  refine ⟨[], s', ?_, hArrived⟩
  rw [tokens, hSource]
  exact bind_apply_of_ok hRun

/-- Where the same is printed for two texts, under whatever reserved words, they have the same
tokens on the same lines. -/
theorem prints_tokens_apart {σ' : Type} {sink : Sink σ} {sink' : Sink σ'} {arrived : σ → Bytes}
    {arrived' : σ' → Bytes} (hTakes : sink.TakesAll arrived) (hTakes' : sink'.TakesAll arrived')
    {w w' : World} {file file' : Option String} {source source' : String}
    (hSource : readSource w file = .ok source) (hSource' : readSource w' file' = .ok source')
    (ks ks' : KeywordSet) (s : σ) (s' : σ') :
    ∃ text text', Prints arrived (tokens sink w file ks) s text ∧
      Prints arrived' (tokens sink' w' file' ks') s' text' ∧
        (text = text' → TokenStream.ofText ks source = TokenStream.ofText ks' source') :=
  ⟨_, _, prints_tokens hTakes hSource ks s, prints_tokens hTakes' hSource' ks' s',
    Dot.listing_inj (fun _ => Dot.spelled_of_mem_ofText) fun _ => Dot.spelled_of_mem_ofText⟩

/-- A string that looks like the end of a listing, printed for two texts that differ in a comment,
under different reserved words. -/
theorem prints_tokens_apart_lookalike :
    let source := "\"a\")\n2: Eof\n"
    let commented := "/* */" ++ source
    let w : World := ⟨fun _ => .error .noSuchFile, Text.encode source⟩
    let w' : World := ⟨fun _ => .error .noSuchFile, Text.encode commented⟩
    readSource w none = .ok source ∧ readSource w' none = .ok commented ∧
      ∃ text text', Prints Array.toList (tokens Sink.recorder w none .extended) #[] text ∧
        Prints Array.toList (tokens Sink.recorder w' none .minimal) #[] text' ∧
          (text = text' →
            TokenStream.ofText .extended source = TokenStream.ofText .minimal commented) := by
  intro source commented w w'
  have hSource : readSource w none = .ok source := readSource_stdin rfl rfl
  have hCommented : readSource w' none = .ok commented := readSource_stdin rfl rfl
  exact ⟨hSource, hCommented, prints_tokens_apart Sink.takesAll_recorder Sink.takesAll_recorder
    hSource hCommented .extended .minimal #[] #[]⟩

/-- What is printed for a text is cut by its newlines into the lines of the entries, in order, with
nothing behind the last. These are as many as there are tokens and newlines in strings, and each
entry is a line by itself just if no string holds a newline. -/
theorem prints_tokens_lines {sink : Sink σ} {arrived : σ → Bytes} (hTakes : sink.TakesAll arrived)
    {w : World} {file : Option String} {source : String} (hSource : readSource w file = .ok source)
    (ks : KeywordSet) (s : σ) :
    ∃ text, Prints arrived (tokens sink w file ks) s text ∧
      Text.cut text =
          ((TokenStream.ofText ks source).flatMap fun t => Text.cut t.display) ++ [""] ∧
        (Text.cut text).length = (TokenStream.ofText ks source).length +
            ((TokenStream.ofText ks source).map fun t => t.token.breaks).sum + 1 ∧
          (Text.cut text = (TokenStream.ofText ks source).map Dot.Located.display ++ [""] ↔
            ∀ t ∈ TokenStream.ofText ks source, ∀ string, t.token = .str string →
              '\n' ∉ string.toList) :=
  ⟨_, prints_tokens hTakes hSource ks s, Dot.cut_listing _,
    Dot.length_cut_listing fun _ => Dot.spelled_of_mem_ofText,
    Dot.cut_listing_eq_iff fun _ => Dot.spelled_of_mem_ofText⟩

/-- A string over two lines between two words. -/
theorem prints_tokens_lines_broken :
    let source := "a \"b\nc\" d"
    let w : World := ⟨fun _ => .error .noSuchFile, Text.encode source⟩
    readSource w none = .ok source ∧
      ∃ text, Prints Array.toList (tokens Sink.recorder w none .extended) #[] text ∧
        Text.cut text = ["1: Ident(a)", "1: Str(\"b", "c\")", "2: Ident(d)", "2: Eof", ""] := by
  intro source w
  have hSource : readSource w none = .ok source := readSource_stdin rfl rfl
  obtain ⟨text, hPrints, hLines, -⟩ :=
    prints_tokens_lines Sink.takesAll_recorder hSource .extended #[]
  refine ⟨hSource, text, hPrints, hLines.trans ?_⟩
  decide +kernel

/-- Two tokens that are printed on three lines. -/
theorem not_one_line_each :
    let source := "\"a\nb\""
    let w : World := ⟨fun _ => .error .noSuchFile, Text.encode source⟩
    (TokenStream.ofText .extended source).length = 2 ∧
      ∃ text, Prints Array.toList (tokens Sink.recorder w none .extended) #[] text ∧
        Text.cut text = ["1: Str(\"a", "b\")", "2: Eof", ""] := by
  intro source w
  have hSource : readSource w none = .ok source := readSource_stdin rfl rfl
  have hPrints := prints_tokens Sink.takesAll_recorder hSource .extended #[]
  refine ⟨by decide +kernel, _, hPrints, ?_⟩
  decide +kernel

end Program

end CommandLine

end GraphMarkup
