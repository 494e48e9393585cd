/-
How long a string stays open where strings do not span lines. A string that a line leaves open is one that
the line reads to its end, and an odd number of backslashes comes last; only a line of blanks reads nothing
of a string, and passes on what was open before it. So a string is open behind some lines only if one of them
ends in such backslashes and all lines below that one are blank.
-/
import Mathlib.Order.WellFounded
import ShaderText.Proofs.Lexing.Dispatch
import ShaderText.Proofs.Lexing.Trace
import ShaderText.Proofs.Literal.String
import ShaderText.Proofs.Reindent.Lines

namespace ShaderText

/-! ## Lexemes that lead into a literal -/

/-- Where strings do not span lines, one that goes on takes all of its line and ends in an odd number of
backslashes. -/
theorem Lexeme.odd_of_region_string {quote quote' : Char} {opened : Nat} {cs : List Char}
    (h : (Lexeme.string false quote opened cs).region = .string quote') : Odd (trailingBackslashes cs) := by
  by_cases hquote : ∃ front, QuoteBehind quote cs front
  · obtain ⟨front, hfront, hfirst⟩ := WellFounded.has_min (measure List.length).wf
      {front | QuoteBehind quote cs front} hquote
    rw [string_of_first false opened hfront fun front' h' => Nat.le_of_not_lt (hfirst front' h')] at h
    cases h
  · rw [string_of_no_quote false opened (not_exists.1 hquote)] at h
    by_contra hodd
    simp [hodd] at h

theorem Lexeme.region_comment_ne_string (opened : Nat) (cs : List Char) (quote : Char) :
    (Lexeme.comment opened cs).region ≠ .string quote := by
  unfold Lexeme.comment
  dsimp only
  split_ifs <;> simp

theorem Lexeme.region_string_ne_comment (multiLine : Bool) (quote : Char) (opened : Nat) (cs : List Char) :
    (Lexeme.string multiLine quote opened cs).region ≠ .comment := by
  unfold Lexeme.string
  dsimp only
  split_ifs <;> simp

namespace Mode

variable {m : Mode}

theorem region_wordLexeme (region : Region) (g : Grammar) (word : List Char) :
    (wordLexeme region g word).region = region := by
  unfold wordLexeme
  split_ifs <;> rfl

/-- In code, what leads into a string is a quotation mark, and what leads into a comment its opener. -/
theorem shapeLexeme_cases (m : Mode) (cs : List Char) :
    (m.shapeLexeme .code cs).region = .code ∨
      (∃ quote rest, cs = quote :: rest ∧ isQuote quote = true ∧
        m.shapeLexeme .code cs = .string m.multiLineStrings quote 1 rest) ∨
      ∃ rest, cs = '/' :: '*' :: rest ∧ m.shapeLexeme .code cs = .comment 2 rest := by
  cases cs with
  | nil => exact .inl rfl
  | cons c cs =>
    rw [m.shapeLexeme_eq_dispatch .code c cs, dispatch]
    split_ifs with hquote _ _ hblock
    · exact .inr (.inl ⟨c, cs, rfl, hquote, rfl⟩)
    · exact .inl rfl
    · exact .inl rfl
    · obtain ⟨rfl, hstar⟩ := hblock
      obtain ⟨rest, rfl⟩ := List.head?_eq_some_iff.1 hstar
      exact .inr (.inr ⟨rest, rfl, rfl⟩)
    · exact .inl rfl
    · exact .inl rfl
    · exact .inl (region_wordLexeme .code _ _)

/-- A token that is a string does not lead into a comment. -/
theorem region_ne_comment (m : Mode) {c : Cursor} {s : State} (h : (m.lexeme c s).category = .string) :
    (m.lexeme c s).region ≠ .comment := by
  unfold lexeme at h ⊢
  cases hs : s.region with
  | code =>
    simp only [hs, codeLexeme] at h ⊢
    cases hcapture : m.capture? c s with
    | some captured => simp
    | none =>
      rw [hcapture] at h
      rcases m.shapeLexeme_cases c.rest with hcode | ⟨quote, rest, -, -, hx⟩ | ⟨rest, -, hx⟩
      · simp only [hcode]; simp
      · simp only [hx]; exact Lexeme.region_string_ne_comment _ _ _ _
      · simp only [hx] at h; cases h
  | string quote => exact Lexeme.region_string_ne_comment _ _ _ _
  | comment => rw [hs] at h; cases h

/-! ## To the end of a line -/

/-- A lexeme that leads into a string takes the rest of its line, and the line ends in an odd number of
backslashes; a string that goes on from the line above must not have one in front of it. -/
theorem odd_of_region_lexeme (hoff : m.multiLineStrings = false) {c : Cursor} {s : State} {quote : Char}
    (hbefore : ∀ quote, s.region = .string quote → trailingBackslashes c.before = 0)
    (h : (m.lexeme c s).region = .string quote) : Odd (trailingBackslashes (c.before ++ c.rest)) := by
  unfold lexeme at h
  cases hs : s.region with
  | code =>
    simp only [hs, codeLexeme] at h
    cases hcapture : m.capture? c s with
    | some captured => rw [hcapture] at h; cases h
    | none =>
      rw [hcapture] at h
      rcases m.shapeLexeme_cases c.rest with hcode | ⟨quote', rest, hrest, hquote, hx⟩ | ⟨rest, -, hx⟩
      · simp only [hcode] at h; cases h
      · have hnone : trailingBackslashes (c.before ++ [quote']) = 0 := by
          rw [trailingBackslashes_concat, if_neg]
          rintro rfl
          cases hquote
        simp only [hx, hoff] at h
        rw [hrest, ← List.singleton_append, ← List.append_assoc, trailingBackslashes_append hnone]
        exact Lexeme.odd_of_region_string h
      · simp only [hx] at h
        exact absurd h (Lexeme.region_comment_ne_string 2 rest quote)
  | string quote' =>
    simp only [hs, hoff] at h
    rw [trailingBackslashes_append (hbefore quote' hs)]
    exact Lexeme.odd_of_region_string h
  | comment =>
    simp only [hs] at h
    exact absurd h (Lexeme.region_comment_ne_string 0 c.rest quote)

/-- A line that leaves a string open ends in an odd number of backslashes, if it is read from code or from
the start of its content. -/
theorem odd_of_region_lexFrom (hoff : m.multiLineStrings = false) (c : Cursor) (s : State)
    (hs : s.enter c = s) {quote : Char}
    (hc : s.region = .code ∨
      trailingBackslashes (c.before ++ c.token) = 0 ∧ c.rest ≠ [] ∧ leadingBlanks c.rest = [])
    (h : (m.lexFrom c s).2.region = .string quote) : Odd (trailingBackslashes c.line) := by
  induction c, s, hs using m.entered_induction with
  | atEnd c s hs hend =>
    rw [m.lexFrom_of_end s hend] at h
    rcases hc with hcode | ⟨-, hne, -⟩
    · rw [hcode] at h
      cases h
    · exact absurd hend hne
  | blanks c s hs _ hblank ih =>
    have hcode : s.region = .code := hc.resolve_right fun hcontent => hblank hcontent.2.2
    rw [m.lexFrom_of_blank hs hblank] at h
    rw [← Cursor.line_startToken, ← Cursor.line_take c.startToken (leadingBlanks c.rest).length]
    exact ih (.inl hcode) h
  | lexeme c s x hs _ hne hblank hx ih =>
    rw [m.lexFrom_of_lexeme hs hne hblank hx] at h
    rcases m.region_lexeme c.startToken s with hcode | ⟨hall, -⟩
    · rw [hx] at hcode
      rw [← Cursor.line_startToken, ← Cursor.line_take c.startToken x.length]
      exact ih (.inl ((s.region_afterLexeme x _).trans hcode)) h
    · rw [hx] at hall
      have hend : (c.startToken.take x.length).rest = [] := List.drop_eq_nil_of_le (Nat.le_of_eq hall.symm)
      rw [m.lexFrom_of_end _ hend, State.region_afterLexeme, ← hx] at h
      have hbefore : ∀ quote, s.region = .string quote → trailingBackslashes c.startToken.before = 0 := by
        intro quote hstring
        rw [Cursor.before_startToken]
        refine (hc.resolve_left fun hcode => ?_).1
        rw [hcode] at hstring
        cases hstring
      have hodd := odd_of_region_lexeme hoff hbefore h
      rwa [Cursor.before_startToken, Cursor.rest_startToken] at hodd

/-- Without tokens nothing leads into another region. -/
theorem region_lexFrom_of_no_tokens (m : Mode) (c : Cursor) (s : State) (hs : s.enter c = s)
    (h : (m.lexFrom c s).1 = []) : (m.lexFrom c s).2.region = s.region := by
  induction c, s, hs using m.entered_induction with
  | atEnd c s hs hend => rw [m.lexFrom_of_end s hend]
  | blanks c s hs _ hblank ih =>
    rw [m.lexFrom_of_blank hs hblank] at h ⊢
    exact ih h
  | lexeme c s x hs _ hne hblank hx _ =>
    rw [m.lexFrom_of_lexeme hs hne hblank hx] at h
    cases h

/-- Behind a string that is the last token of its line is no comment. -/
theorem region_lexFrom_ne_comment (m : Mode) (c : Cursor) (s : State) (hs : s.enter c = s) {t : Token}
    (h : (m.lexFrom c s).1.getLast? = some t) (ht : t.category = .string) :
    (m.lexFrom c s).2.region ≠ .comment := by
  induction c, s, hs using m.entered_induction with
  | atEnd c s hs hend =>
    rw [m.lexFrom_of_end s hend] at h
    cases h
  | blanks c s hs _ hblank ih =>
    rw [m.lexFrom_of_blank hs hblank] at h ⊢
    exact ih h
  | lexeme c s x hs hnext hne hblank hx ih =>
    rw [m.lexFrom_of_lexeme hs hne hblank hx] at h ⊢
    by_cases hlast : (m.lexFrom (c.startToken.take x.length) (s.afterLexeme x c.startToken.column)).1 = []
    · rw [hlast] at h
      obtain rfl := Option.some.inj h
      rw [m.region_lexFrom_of_no_tokens _ _ hnext hlast, State.region_afterLexeme, ← hx]
      exact m.region_ne_comment (hx ▸ ht)
    · rw [List.getLast?_cons_of_ne_nil hlast] at h
      exact ih h

/-! ## Lines -/

theorem trailingBackslashes_of_blank {cs : List Char} (h : ∀ d ∈ cs, isBlank d = true) :
    trailingBackslashes cs = 0 := by
  induction cs using List.reverseRecOn with
  | nil => rfl
  | append_singleton cs d _ =>
    rw [trailingBackslashes_concat, if_neg]
    rintro rfl
    exact absurd (h '\\' (by simp)) (by decide)

/-- A line that is not blank, and that leaves a string open, ends in an odd number of backslashes. -/
theorem odd_of_region_lexLine (hoff : m.multiLineStrings = false) {line : List Char} {s : State}
    {quote : Char} (hline : trimLeading line ≠ []) (h : (m.lexLine line s).2.region = .string quote) :
    Odd (trailingBackslashes line) := by
  have hne : line ≠ [] := by
    rintro rfl
    exact hline rfl
  have hbefore : trailingBackslashes ((m.contentCursor line).before ++ (m.contentCursor line).token) = 0 := by
    rw [m.token_contentCursor]
    exact trailingBackslashes_of_blank fun _ => isBlank_of_mem_leadingBlanks
  have hrest := m.rest_contentCursor line
  rw [m.lexLine_eq_lexFrom s hne] at h
  rw [← m.line_contentCursor line]
  refine m.odd_of_region_lexFrom hoff _ _ (m.enter_contentCursor line s) (.inr ⟨hbefore, ?_, ?_⟩) h
  · rwa [hrest]
  · rw [hrest, leadingBlanks_trimLeading]

/-- Behind a string that is the last token of its line is code, if the line does not end in an odd number
of backslashes. -/
theorem region_lexLine_of_last_string (hoff : m.multiLineStrings = false) {line : List Char} {s : State}
    {t : Token} (hlast : (m.lexLine line s).1.getLast? = some t) (ht : t.category = .string)
    (heven : ¬ Odd (trailingBackslashes line)) : (m.lexLine line s).2.region = .code := by
  have hline : trimLeading line ≠ [] := by
    intro hblank
    rw [(m.lexLine_of_blank hblank s).1] at hlast
    cases hlast
  have hne : line ≠ [] := by
    rintro rfl
    exact hline rfl
  have hcomment : (m.lexLine line s).2.region ≠ .comment := by
    rw [m.lexLine_eq_lexFrom s hne] at hlast ⊢
    exact m.region_lexFrom_ne_comment _ _ (m.enter_contentCursor line s) hlast ht
  cases hregion : (m.lexLine line s).2.region with
  | code => rfl
  | string quote => exact absurd (odd_of_region_lexLine hoff hline hregion) heven
  | comment => exact absurd hregion hcomment

/-- Where strings do not span lines, a line that leaves a string open ends in an odd number of backslashes,
unless it is blank and is read inside a string: there is nothing in such a line to end the string, which
goes on. And a string that is the last token of a line without such an end is over behind it. -/
theorem string_goesOn_iff (hoff : m.multiLineStrings = false) (s : State) (line : List Char) :
    (((∃ quote, (m.lexLine line s).2.region = .string quote) → Odd (trailingBackslashes line)) ↔
      trimLeading line ≠ [] ∨ ∀ quote, s.region ≠ .string quote) ∧
    ∀ t, (m.lexLine line s).1.getLast? = some t → t.category = .string →
      ¬ Odd (trailingBackslashes line) → (m.lexLine line s).2.region = .code := by
  refine ⟨⟨fun h => ?_, ?_⟩, fun t hlast ht heven => region_lexLine_of_last_string hoff hlast ht heven⟩
  · by_contra hnot
    push Not at hnot
    obtain ⟨hblank, quote, hstring⟩ := hnot
    obtain ⟨-, hregion, -⟩ := m.lexLine_of_blank hblank s
    have hodd := h ⟨quote, hregion.trans hstring⟩
    rw [trailingBackslashes_of_blank (List.dropWhile_eq_nil_iff.1 hblank)] at hodd
    exact absurd hodd (by decide)
  · rintro h ⟨quote, hopen⟩
    by_cases hblank : trimLeading line = []
    · obtain ⟨-, hregion, -⟩ := m.lexLine_of_blank hblank s
      exact absurd (hregion.symm.trans hopen) (h.resolve_left (· hblank) quote)
    · exact odd_of_region_lexLine hoff hblank hopen

/-- A string that goes on from the line above goes on behind three backslashes. -/
theorem string_goesOn_iff_backslashes :
    let s := (bare.lexLine ['"', 'a', '\\'] (bare.start 0)).2
    let line := [' ', 'b', '\\', '\\', '\\']
    bare.multiLineStrings = false ∧ s.region = .string '"' ∧ trimLeading line ≠ [] ∧
      (bare.lexLine line s).2.region = .string '"' ∧ Odd (trailingBackslashes line) := by
  intro s line
  have hoff : bare.multiLineStrings = false := rfl
  have hink : trimLeading line ≠ [] := by decide
  have hopen : (bare.lexLine line s).2.region = .string '"' := by decide +kernel
  obtain ⟨hiff, -⟩ := bare.string_goesOn_iff hoff s line
  exact ⟨hoff, by decide +kernel, hink, hopen, hiff.2 (.inl hink) ⟨_, hopen⟩⟩

/-- Behind a line of one blank a string is still open, and no backslash is in that line. -/
theorem blank_line_leaves_string_open :
    let text := ['"', 'a', '\\', '\n', ' ']
    bare.multiLineStrings = false ∧ lineBodies text = [['"', 'a', '\\'], [' ']] ∧
      (bare.lexText text).2.region = .string '"' ∧ ¬ Odd (trailingBackslashes [' ']) := by
  decide +kernel

/-! ## Texts -/

/-- Where strings do not span lines, a string is open behind some lines only if one of them ends in an odd
number of backslashes and all below it are blank. -/
theorem exists_backslashes_of_open (hoff : m.multiLineStrings = false) {lines : List (List Char)}
    {base : Nat} {quote : Char} (h : (m.stateAfter lines (m.start base)).region = .string quote) :
    ∃ above line below, lines = above ++ line :: below ∧ Odd (trailingBackslashes line) ∧
      ∀ blank ∈ below, trimLeading blank = [] := by
  induction lines using List.reverseRecOn with
  | nil => cases h
  | append_singleton lines last ih =>
    rw [m.stateAfter_append, stateAfter_cons, stateAfter_nil] at h
    by_cases hblank : trimLeading last = []
    · obtain ⟨-, hregion, -⟩ := m.lexLine_of_blank hblank (m.stateAfter lines (m.start base))
      obtain ⟨above, line, below, rfl, hodd, hbelow⟩ := ih (hregion.symm.trans h)
      refine ⟨above, line, below ++ [last], by simp, hodd, ?_⟩
      rw [List.forall_mem_append, List.forall_mem_singleton]
      exact ⟨hbelow, hblank⟩
    · exact ⟨lines, last, [], rfl, odd_of_region_lexLine hoff hblank h, by simp⟩

end Mode

end ShaderText
