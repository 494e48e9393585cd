/-
What a literal contains has no part in the structure. In the strings, comments and directives of a line,
put other characters for any that are no blanks, quotation marks, backslashes, asterisks or slashes; only
the character that starts a directive stays. Then the tokens are of the same categories and at the same
columns, all other tokens have the same texts, and the state behind the line is the same.

The scans for the ends of literals see fillers alike, and a filler is never the start of what opens or
closes a literal; so each lexeme ends where it ended, and takes as many columns.
-/
import ShaderText.Proofs.Lexing.Reachable
import ShaderText.Proofs.Lexing.Seen
import ShaderText.Proofs.Lexing.Tiling

namespace ShaderText

/-! ## Fillers -/

/-- A character that means nothing inside a literal. -/
def isFiller (c : Char) : Bool :=
  !isBlank c && !isQuote c && c != '\\' && c != '*' && c != '/'

/-- The same character, or another filler for a filler. -/
def Exchanged (c c' : Char) : Prop := c = c' ∨ isFiller c = true ∧ isFiller c' = true

instance (c c' : Char) : Decidable (Exchanged c c') := inferInstanceAs (Decidable (_ ∨ _))

namespace Exchanged

variable {c c' d : Char}

theorem refl (c : Char) : Exchanged c c := .inl rfl

/-- A character that is no filler is met in both places or in none. -/
theorem eq_iff (h : Exchanged c c') (hd : isFiller d = false) : c' = d ↔ c = d := by
  rcases h with rfl | ⟨hc, hc'⟩
  · rfl
  · constructor
    · rintro rfl
      rw [hd] at hc'
      cases hc'
    · rintro rfl
      rw [hd] at hc
      cases hc

theorem beq_eq (h : Exchanged c c') (hd : isFiller d = false) : (c' == d) = (c == d) := by
  rw [Bool.eq_iff_iff, beq_iff_eq, beq_iff_eq, h.eq_iff hd]

theorem eq_of_not_isFiller (h : Exchanged c c') (hc : isFiller c = false) : c' = c :=
  (h.eq_iff hc).2 rfl

theorem isBlank_eq (h : Exchanged c c') : isBlank c' = isBlank c := by
  rcases h with rfl | ⟨hc, hc'⟩
  · rfl
  · simp only [isFiller, Bool.and_eq_true, Bool.not_eq_true'] at hc hc'
    rw [hc.1.1.1.1, hc'.1.1.1.1]

end Exchanged

theorem isFiller_of_isQuote {c : Char} (h : isQuote c = true) : isFiller c = false := by
  simp [isFiller, h]

section

variable {cs cs' : List Char}

theorem head?_exchanged (h : List.Forall₂ Exchanged cs cs') (hhead : ∀ d ∈ cs.head?, isFiller d = false) :
    cs'.head? = cs.head? := by
  cases h with
  | nil => rfl
  | cons hc _ => exact congrArg some (hc.eq_of_not_isFiller (hhead _ rfl))

theorem startsInk_exchanged (h : List.Forall₂ Exchanged cs cs') (hink : StartsInk cs) : StartsInk cs' := by
  obtain ⟨c, rest, rfl, hc⟩ := hink
  obtain ⟨c', rest', hc', -, rfl⟩ := List.forall₂_cons_left_iff.1 h
  exact ⟨c', rest', rfl, hc'.isBlank_eq.trans hc⟩

theorem exchanged_append (h : List.Forall₂ Exchanged cs cs') (more : List Char) :
    List.Forall₂ Exchanged (cs ++ more) (cs' ++ more) :=
  List.rel_append h (List.forall₂_same.2 fun d _ => Exchanged.refl d)

/-- No blank is a filler, so the leading blanks stay. -/
theorem leadingBlanks_exchanged (h : List.Forall₂ Exchanged cs cs') :
    leadingBlanks cs' = leadingBlanks cs := by
  induction h with
  | nil => rfl
  | @cons c c' cs cs' hc _ ih =>
    cases hblank : isBlank c with
    | true =>
      have hc' : c' = c := hc.eq_of_not_isFiller (by simp [isFiller, hblank])
      rw [leadingBlanks, leadingBlanks, hc', List.takeWhile_cons_of_pos hblank,
        List.takeWhile_cons_of_pos hblank]
      exact congrArg _ ih
    | false =>
      have hblank' : isBlank c' = false := hc.isBlank_eq.trans hblank
      rw [leadingBlanks, leadingBlanks, List.takeWhile_cons_of_neg (by simp [hblank']),
        List.takeWhile_cons_of_neg (by simp [hblank])]

/-! ## Scans -/

theorem scanString_exchanged {quote : Char} (hquote : isQuote quote = true)
    (h : List.Forall₂ Exchanged cs cs') (escaped : Bool) :
    scanString quote escaped cs' = scanString quote escaped cs := by
  induction h generalizing escaped with
  | nil => rfl
  | @cons c c' cs cs' hc _ ih =>
    have hend : c' = quote ↔ c = quote := hc.eq_iff (isFiller_of_isQuote hquote)
    have hbackslash : (c' == '\\') = (c == '\\') := hc.beq_eq (by decide)
    simp only [scanString, hend, hbackslash, ih]

theorem scanComment_exchanged (h : List.Forall₂ Exchanged cs cs') (star : Bool) :
    scanComment star cs' = scanComment star cs := by
  induction h generalizing star with
  | nil => rfl
  | @cons c c' cs cs' hc _ ih =>
    have hend : c' = '/' ↔ c = '/' := hc.eq_iff (by decide)
    have hstar : (c' == '*') = (c == '*') := hc.beq_eq (by decide)
    simp only [scanComment, hend, hstar, ih]

/-- A filler is as wide as another. -/
theorem columnFrom_exchanged (h : List.Forall₂ Exchanged cs cs') (tabSize column : Nat) :
    columnFrom tabSize column cs' = columnFrom tabSize column cs := by
  induction h generalizing column with
  | nil => rfl
  | @cons c c' cs cs' hc _ ih =>
    have htab : c' = '\t' ↔ c = '\t' := hc.eq_iff (by decide)
    have hafter : columnAfter tabSize column c' = columnAfter tabSize column c := by
      simp only [columnAfter, widthAt, htab]
    show columnFrom tabSize (columnAfter tabSize column c') cs' =
      columnFrom tabSize (columnAfter tabSize column c) cs
    rw [hafter, ih]

end

/-! ## Openers -/

/-- Strings, comments and directives are literals. -/
def Category.isLiteral : Category → Bool
  | string | comment | directive => true
  | _ => false

theorem Grammar.isLiteral_category (g : Grammar) (word : List Char) : (g.category word).isLiteral = false := by
  unfold Grammar.category
  split <;> rfl

namespace Mode

variable {m : Mode} {region : Region}

theorem shapeLexeme_quote (m : Mode) {quote : Char} (h : isQuote quote = true) (cs : List Char) :
    m.shapeLexeme region (quote :: cs) = .string m.multiLineStrings quote 1 cs := by
  have hlongest : Shape.longest (quote :: cs) = some (.quote, 1) := by
    have hone : cs.takeWhile (fun _ => false) = [] := by cases cs <;> rfl
    have hquote : quote = '"' ∨ quote = '\x27' := by simpa [isQuote] using h
    rcases hquote with rfl | rfl <;>
      simp [Shape.longest, Shape.longestOf, Shape.all, Shape.matchLength, runLength, operatorLength,
        openerLength, isQuote, isPunctuation, isOperatorChar, isWordStart, hone]
  simp [shapeLexeme, hlongest]

theorem shapeLexeme_blockComment (m : Mode) (cs : List Char) :
    m.shapeLexeme region ('/' :: '*' :: cs) = .comment 2 cs := by
  have hlongest : Shape.longest ('/' :: '*' :: cs) = some (.blockComment, 2) := by
    simp [Shape.longest, Shape.longestOf, Shape.all, Shape.matchLength, runLength, operatorLength,
      openerLength, isQuote, isPunctuation, isAfterSlash, isWordStart]
  simp [shapeLexeme, hlongest]

theorem shapeLexeme_lineComment (m : Mode) (cs : List Char) :
    m.shapeLexeme region ('/' :: '/' :: cs) = .plain region .comment (cs.length + 2) := by
  have hlongest : Shape.longest ('/' :: '/' :: cs) = some (.lineComment, 2) := by
    simp [Shape.longest, Shape.longestOf, Shape.all, Shape.matchLength, runLength, operatorLength,
      openerLength, isQuote, isPunctuation, isAfterSlash, isWordStart]
  simp [shapeLexeme, hlongest]

theorem exists_of_openerLength_pos {opener cs : List Char} (h : 0 < openerLength opener cs) :
    ∃ rest, cs = opener ++ rest := by
  unfold openerLength at h
  split at h
  · obtain ⟨rest, hrest⟩ := List.isPrefixOf_iff_prefix.1 ‹_›
    exact ⟨rest, hrest.symm⟩
  · omega

/-- A literal in code starts with a quotation mark or with what opens a comment. -/
theorem opener_of_isLiteral (m : Mode) {cs : List Char}
    (h : (m.shapeLexeme region cs).category.isLiteral = true) :
    (∃ quote rest, cs = quote :: rest ∧ isQuote quote = true) ∨ (∃ rest, cs = '/' :: '*' :: rest) ∨
      ∃ rest, cs = '/' :: '/' :: rest := by
  have hword (n : Nat) : (Lexeme.word region m.grammar n cs).category.isLiteral ≠ true := by
    rw [Lexeme.word, Grammar.isLiteral_category]
    exact Bool.false_ne_true
  unfold shapeLexeme at h
  cases hwins : Shape.longest cs with
  | none =>
    rw [hwins] at h
    exact absurd h (hword _)
  | some winner =>
    obtain ⟨winner, n⟩ := winner
    obtain ⟨-, hn, hpos, -⟩ := Shape.longestOf_eq_some hwins
    rw [hwins] at h
    cases winner with
    | quote =>
      obtain ⟨quote, rest, hcs, hquote, -⟩ := eq_cons_of_longest_quote hwins
      exact .inl ⟨quote, rest, hcs, hquote⟩
    | blockComment => exact .inr (.inl (exists_of_openerLength_pos (hn ▸ hpos)))
    | lineComment => exact .inr (.inr (exists_of_openerLength_pos (hn ▸ hpos)))
    | word => exact absurd h (hword n)
    | punctuation | number | operator => cases h

/-! ## Lexemes -/

/-- In code, a literal with other fillers is read to the same length. -/
theorem shapeLexeme_exchanged (m : Mode) {cs cs' : List Char} (h : List.Forall₂ Exchanged cs cs')
    (hliteral : (m.shapeLexeme region cs).category.isLiteral = true) :
    m.shapeLexeme region cs' = m.shapeLexeme region cs := by
  rcases m.opener_of_isLiteral hliteral with ⟨quote, rest, rfl, hquote⟩ | ⟨rest, rfl⟩ | ⟨rest, rfl⟩
  · obtain ⟨quote', rest', hopener, hrest, rfl⟩ := List.forall₂_cons_left_iff.1 h
    obtain rfl := hopener.eq_of_not_isFiller (isFiller_of_isQuote hquote)
    rw [m.shapeLexeme_quote hquote, m.shapeLexeme_quote hquote, Lexeme.string, Lexeme.string,
      scanString_exchanged hquote hrest]
  · obtain ⟨slash, cs', hslash, hcs, rfl⟩ := List.forall₂_cons_left_iff.1 h
    obtain ⟨star, rest', hstar, hrest, rfl⟩ := List.forall₂_cons_left_iff.1 hcs
    obtain rfl := hslash.eq_of_not_isFiller (by decide)
    obtain rfl := hstar.eq_of_not_isFiller (by decide)
    rw [m.shapeLexeme_blockComment, m.shapeLexeme_blockComment, Lexeme.comment, Lexeme.comment,
      scanComment_exchanged hrest]
  · obtain ⟨slash, cs', hslash, hcs, rfl⟩ := List.forall₂_cons_left_iff.1 h
    obtain ⟨slash', rest', hslash', hrest, rfl⟩ := List.forall₂_cons_left_iff.1 hcs
    obtain rfl := hslash.eq_of_not_isFiller (by decide)
    obtain rfl := hslash'.eq_of_not_isFiller (by decide)
    rw [m.shapeLexeme_lineComment, m.shapeLexeme_lineComment, hrest.length_eq]

/-- A literal with other fillers is read to the same length, and leads into the same region. -/
theorem lexeme_exchanged (h : m.hooks.OnlyDirectives) {c c' : Cursor} {s : State}
    (hquote : ∀ quote, s.region = .string quote → isQuote quote = true)
    (hrest : List.Forall₂ Exchanged c.rest c'.rest)
    (hhead : s.region = .code → c'.rest.head? = c.rest.head?)
    (hliteral : (m.lexeme c s).category.isLiteral = true) : m.lexeme c' s = m.lexeme c s := by
  unfold lexeme at hliteral ⊢
  cases hs : s.region with
  | code =>
    simp only [hs, codeLexeme, capture?_eq h] at hliteral ⊢
    rw [hhead hs, ← hrest.length_eq]
    cases hcaptured : c.rest.head?.any (m.hooks.contains ·) && s.startOfLine with
    | true => rfl
    | false =>
      rw [hcaptured] at hliteral
      exact m.shapeLexeme_exchanged hrest hliteral
  | string quote =>
    simp only [Lexeme.string, scanString_exchanged (hquote quote hs) hrest]
  | comment =>
    simp only [Lexeme.comment, scanComment_exchanged hrest]

end Mode

/-! ## Other texts for literals -/

/-- What may stand in place of the text of a token: in a literal other fillers for fillers, except that
a directive keeps its first character. -/
structure Category.Admits (category : Category) (text text' : List Char) : Prop where
  exchanged : List.Forall₂ Exchanged text text'
  plain : category.isLiteral = false → text' = text
  trigger : category = .directive → text'.head? = text.head?

instance (category : Category) (text text' : List Char) : Decidable (category.Admits text text') :=
  decidable_of_iff (List.Forall₂ Exchanged text text' ∧ (category.isLiteral = false → text' = text) ∧
    (category = .directive → text'.head? = text.head?))
    ⟨fun ⟨h₁, h₂, h₃⟩ => ⟨h₁, h₂, h₃⟩, fun h => ⟨h.exchanged, h.plain, h.trigger⟩⟩

/-- What is seen of a token if literals are covered: only the lengths of their texts are told. -/
def Seen.covered (t : Seen) : Seen :=
  if t.category.isLiteral then { t with text := t.text.map fun _ => ' ' } else t

theorem covered_of_admits {category : Category} {text text' : List Char} (h : category.Admits text text')
    (column stop : Nat) :
    Seen.covered ⟨category, text', column, stop⟩ = Seen.covered ⟨category, text, column, stop⟩ := by
  cases hliteral : category.isLiteral with
  | true =>
    simp only [Seen.covered, hliteral, if_true, List.map_const', h.exchanged.length_eq]
  | false => rw [h.plain hliteral]

namespace Mode

/-- What may stand in place of what a step read; blanks stay. -/
def Step.Admits (r : Step) (text : List Char) : Prop :=
  match r.lexeme? with
  | none => text = r.cursor.token
  | some x => x.category.Admits r.cursor.token text

instance (r : Step) (text : List Char) : Decidable (r.Admits text) :=
  match r with
  | ⟨none, c, _⟩ => inferInstanceAs (Decidable (text = c.token))
  | ⟨some x, c, _⟩ => inferInstanceAs (Decidable (x.category.Admits c.token text))

theorem Step.Admits.exchanged {r : Step} {text : List Char} (h : r.Admits text) :
    List.Forall₂ Exchanged r.cursor.token text := by
  unfold Step.Admits at h
  split at h
  · exact h ▸ List.forall₂_same.2 fun d _ => Exchanged.refl d
  · exact Category.Admits.exchanged h

variable {m : Mode}

/-- The line as a whole has other fillers for fillers. -/
theorem exchanged_of_texts {c : Cursor} {s : State} {texts : List (List Char)}
    (htexts : List.Forall₂ Step.Admits (m.stepsFrom c s) texts) :
    List.Forall₂ Exchanged c.rest texts.flatten := by
  rw [← m.flatten_tokens_stepsFrom c s]
  exact List.rel_flatten (List.forall₂_map_left_iff.2 (htexts.imp fun _ _ h => h.exchanged))

theorem directive_or_opener (h : m.hooks.OnlyDirectives) {c : Cursor} {s : State} (hcode : s.region = .code)
    (hliteral : (m.lexeme c s).category.isLiteral = true) :
    (m.lexeme c s).category = .directive ∨ ∀ d ∈ c.rest.head?, isFiller d = false := by
  simp only [lexeme, hcode, codeLexeme, capture?_eq h] at hliteral ⊢
  cases hcaptured : c.rest.head?.any (m.hooks.contains ·) && s.startOfLine with
  | true => exact .inl rfl
  | false =>
    rw [hcaptured] at hliteral
    refine .inr ?_
    rcases m.opener_of_isLiteral hliteral with ⟨quote, rest, hcs, hquote⟩ | ⟨rest, hcs⟩ | ⟨rest, hcs⟩
    · rw [hcs]
      rintro d ⟨⟩
      exact isFiller_of_isQuote hquote
    · rw [hcs]
      rintro d ⟨⟩
      rfl
    · rw [hcs]
      rintro d ⟨⟩
      rfl

/-- In code a token keeps its first character: there it is a trigger or an opener. -/
theorem head?_of_admits (h : m.hooks.OnlyDirectives) {c : Cursor} {s : State} (hcode : s.region = .code)
    (hrest : c.rest ≠ []) {text : List Char}
    (htext : (m.lexeme c s).category.Admits (c.rest.take (m.lexeme c s).length) text) :
    text.head? = c.rest.head? := by
  have hpos := m.length_lexeme_pos s hrest
  have htake : (c.rest.take (m.lexeme c s).length).head? = c.rest.head? := by
    rw [List.head?_take, if_neg (by omega)]
  rw [← htake]
  by_cases hliteral : (m.lexeme c s).category.isLiteral = true
  · rcases directive_or_opener h hcode hliteral with hdirective | hopener
    · exact htext.trigger hdirective
    · exact head?_exchanged htext.exchanged (htake ▸ hopener)
  · rw [htext.plain (by simpa using hliteral)]

/-- A lexeme with another text in its place is read again, where what follows starts as before. -/
theorem lexeme_of_admits (h : m.hooks.OnlyDirectives) {c c' : Cursor} {s : State} {x : Lexeme}
    (hquote : ∀ quote, s.region = .string quote → isQuote quote = true) (hrest : c.rest ≠ [])
    (hx : m.lexeme c s = x) {text more : List Char} (htext : x.category.Admits (c.rest.take x.length) text)
    (hrest' : c'.rest = text ++ more) (hmore : more.head? = (c.rest.drop x.length).head?) :
    m.lexeme c' s = x := by
  subst hx
  have hle := m.length_lexeme_le c s
  have hpos := m.length_lexeme_pos s hrest
  have hlength : text.length = (m.lexeme c s).length := by
    rw [← htext.exchanged.length_eq, List.length_take_of_le hle]
  -- first the text before what followed so far, and then before what follows now
  obtain ⟨c'', hrest''⟩ : ∃ c'' : Cursor, c''.rest = text ++ c.rest.drop (m.lexeme c s).length :=
    ⟨m.cursor _, rfl⟩
  have hread : m.lexeme c'' s = m.lexeme c s := by
    by_cases hliteral : (m.lexeme c s).category.isLiteral = true
    · refine lexeme_exchanged h hquote ?_ (fun hcode => ?_) hliteral
      · have hwhole := exchanged_append htext.exchanged (c.rest.drop (m.lexeme c s).length)
        rwa [List.take_append_drop, ← hrest''] at hwhole
      · have hne : text ≠ [] := List.length_pos_iff.1 (by omega)
        rw [hrest'', List.head?_append_of_ne_nil _ hne, head?_of_admits h hcode hrest htext]
    · refine lexeme_congr h ?_ rfl rfl
      rw [hrest'', htext.plain (by simpa using hliteral), List.take_append_drop]
  have htake : c''.rest.take (m.lexeme c'' s).length = text := by
    rw [hread, hrest'']
    exact List.take_left' hlength
  have hdrop : c''.rest.drop (m.lexeme c'' s).length = c.rest.drop (m.lexeme c s).length := by
    rw [hread, hrest'']
    exact List.drop_left' hlength
  rw [← hread]
  by_cases hlt : (m.lexeme c'' s).length < c''.rest.length
  · have hne : c''.rest ≠ [] := List.length_pos_iff.1 (by omega)
    exact lexeme_take_append h hne hlt (.inl (by rw [hdrop, hmore])) (by rw [htake, hrest']) rfl rfl
  · have hall := Nat.le_of_not_lt hlt
    rw [← hdrop, List.drop_eq_nil_of_le hall, List.head?_nil, List.head?_eq_none_iff] at hmore
    refine lexeme_congr h ?_ rfl rfl
    rw [hrest', hmore, List.append_nil, ← htake, List.take_of_length_le hall]

/-- In code, the line goes on with the same character. -/
theorem head?_of_texts (h : m.hooks.OnlyDirectives) {c : Cursor} {s : State} (hc : s.enter c = s)
    (hcode : s.region = .code) {texts : List (List Char)}
    (htexts : List.Forall₂ Step.Admits (m.stepsFrom c s) texts) : texts.flatten.head? = c.rest.head? := by
  by_cases hrest : c.rest = []
  · rw [m.stepsFrom_of_end s hrest, List.forall₂_nil_left_iff] at htexts
    rw [htexts, hrest]
    rfl
  · by_cases hblank : leadingBlanks c.rest = []
    · rw [m.stepsFrom_of_lexeme hc hrest hblank rfl] at htexts
      obtain ⟨text, texts, htext, -, rfl⟩ := List.forall₂_cons_left_iff.1 htexts
      have hhead := head?_of_admits (c := c.startToken) h hcode hrest htext
      have hne : text ≠ [] := by
        rintro rfl
        exact hrest (List.head?_eq_none_iff.1 hhead.symm)
      rw [List.flatten_cons, List.head?_append_of_ne_nil _ hne]
      exact hhead
    · rw [m.stepsFrom_of_blank hc hblank] at htexts
      obtain ⟨_, texts, rfl, -, rfl⟩ := List.forall₂_cons_left_iff.1 htexts
      have htoken := token_take_leadingBlanks c
      have hhead : (leadingBlanks c.rest ++ trimLeading c.rest).head? = c.rest.head? := by
        rw [leadingBlanks_append_trimLeading]
      rw [List.head?_append_of_ne_nil _ hblank] at hhead
      rw [List.flatten_cons, htoken, List.head?_append_of_ne_nil _ hblank, hhead]

/-- Behind a token, the line goes on with the same character. -/
theorem head?_behind_lexeme (h : m.hooks.OnlyDirectives) {c : Cursor} {s : State} {x : Lexeme}
    (hx : m.lexeme c.startToken s = x)
    (hbehind : (s.afterLexeme x c.startToken.column).enter (c.startToken.take x.length) =
      s.afterLexeme x c.startToken.column)
    {texts : List (List Char)} (htexts : List.Forall₂ Step.Admits
      (m.stepsFrom (c.startToken.take x.length) (s.afterLexeme x c.startToken.column)) texts) :
    texts.flatten.head? = (c.rest.drop x.length).head? := by
  rcases m.region_lexeme c.startToken s with hcode | ⟨hall, -⟩
  · rw [hx] at hcode
    exact head?_of_texts h hbehind (by rw [State.region_afterLexeme, hcode]) htexts
  · rw [hx] at hall
    have hend : c.rest.drop x.length = [] := List.drop_eq_nil_of_le (Nat.le_of_eq hall.symm)
    rw [m.stepsFrom_of_end _ hend, List.forall₂_nil_left_iff] at htexts
    rw [htexts, hend]
    rfl

/-! ## Runs with other fillers -/

/-- With other fillers, literals are seen at the same columns and all else is seen as it was; the state
is the same. -/
theorem seenFrom_of_texts (h : m.hooks.OnlyDirectives) {c c' : Cursor} {s : State} (hs : s.Regular)
    (hc : s.enter c = s) (hc' : s.enter c' = s) (htab : c'.tabSize = c.tabSize)
    (hcolumn : c'.startToken.column = c.startToken.column) {texts : List (List Char)}
    (htexts : List.Forall₂ Step.Admits (m.stepsFrom c s) texts) (hrest' : c'.rest = texts.flatten) :
    (m.seenFrom c' s).1.map Seen.covered = (m.seenFrom c s).1.map Seen.covered ∧
      (m.seenFrom c' s).2 = (m.seenFrom c s).2 := by
  induction c, s, hc using m.entered_induction generalizing c' texts with
  | atEnd c s _ hend =>
    rw [m.stepsFrom_of_end s hend, List.forall₂_nil_left_iff] at htexts
    rw [htexts] at hrest'
    rw [m.seenFrom_of_end s hend, m.seenFrom_of_end s hrest']
    exact ⟨rfl, rfl⟩
  | blanks c s hc _ hblank ih =>
    rw [m.stepsFrom_of_blank hc hblank] at htexts
    obtain ⟨_, texts, rfl, hnext, rfl⟩ := List.forall₂_cons_left_iff.1 htexts
    rw [List.flatten_cons, token_take_leadingBlanks c] at hrest'
    have hblanks : ∀ d ∈ leadingBlanks c.rest, isBlank d = true := fun _ => isBlank_of_mem_leadingBlanks
    have hne : c'.rest ≠ [] := by simp [hrest', hblank]
    have htake : c'.rest.take (leadingBlanks c.rest).length = leadingBlanks c.rest := hrest' ▸ List.take_left
    rw [m.seenFrom_of_blanks s hblank hblanks (leadingBlanks_append_trimLeading c.rest).symm,
      m.seenFrom_of_blanks s hblank hblanks hrest', hc, hc']
    refine ih hs (s.enter_take hne (List.length_pos_iff.2 hblank)) htab ?_ hnext ?_
    · rw [Cursor.column_take, Cursor.column_take, htab, hcolumn, htake, take_length_leadingBlanks]
    · rw [Cursor.rest_take, Cursor.rest_startToken, hrest', List.drop_left]
  | lexeme c s x hc hbehind hrest hblank hx ih =>
    rw [m.stepsFrom_of_lexeme hc hrest hblank hx] at htexts
    obtain ⟨text, texts, htext, hnext, rfl⟩ := List.forall₂_cons_left_iff.1 htexts
    have htext : x.category.Admits (c.rest.take x.length) text := htext
    have hpos : 0 < x.length := hx ▸ m.length_lexeme_pos (c := c.startToken) s hrest
    have hle : x.length ≤ c.rest.length := hx ▸ m.length_lexeme_le c.startToken s
    have hlength : text.length = x.length := by
      rw [← htext.exchanged.length_eq, List.length_take_of_le hle]
    have hmore := head?_behind_lexeme h hx hbehind hnext
    have hx' : m.lexeme c'.startToken s = x :=
      lexeme_of_admits (c := c.startToken) h hs.quote hrest hx htext hrest' hmore
    have hink : StartsInk text := startsInk_exchanged htext.exchanged (startsInk_take hrest hblank hpos)
    obtain ⟨hne, hblank', htake, hdrop⟩ := hink.parts hlength hrest'
    have hstop : columnFrom c'.tabSize c'.startToken.column (c'.rest.take x.length) =
        columnFrom c.tabSize c.startToken.column (c.rest.take x.length) := by
      rw [htab, hcolumn, htake, columnFrom_exchanged htext.exchanged]
    obtain ⟨hseen, hfinal⟩ := ih (hx ▸ hs.afterLexeme m c.startToken _) (State.enter_take _ hne hpos)
      htab hstop hnext hdrop
    rw [m.seenFrom_of_lexeme hc hrest hblank hx, m.seenFrom_of_lexeme hc' hne hblank' hx', hstop, htake,
      hcolumn]
    refine ⟨?_, hfinal⟩
    rw [List.map_cons, List.map_cons, covered_of_admits htext, hseen]

/-! ## Lines with other fillers -/

/-- The second text is the first, line by line from a state on, with other fillers in the literals. -/
inductive Disguised (m : Mode) : State → List (List Char) → List (List Char) → Prop
  | nil (s : State) : Disguised m s [] []
  | cons {s : State} {line : List Char} {lines lines' texts : List (List Char)} :
      List.Forall₂ Step.Admits (m.lineSteps line s) texts →
      Disguised m (m.lexLine line s).2 lines lines' → Disguised m s (line :: lines) (texts.flatten :: lines')

theorem seenLine_of_texts (h : m.hooks.OnlyDirectives) {s : State} (hs : s.Regular) {line : List Char}
    {texts : List (List Char)} (htexts : List.Forall₂ Step.Admits (m.lineSteps line s) texts) :
    (m.seenLine texts.flatten s).1.map Seen.covered = (m.seenLine line s).1.map Seen.covered ∧
      (m.seenLine texts.flatten s).2 = (m.seenLine line s).2 := by
  have hwhole : List.Forall₂ Exchanged line texts.flatten := exchanged_of_texts htexts
  by_cases hline : line = []
  · rw [hline, List.forall₂_nil_left_iff] at hwhole
    rw [hwhole, hline]
    exact ⟨rfl, rfl⟩
  · have hne : texts.flatten ≠ [] := by
      rintro hnil
      exact hline (List.length_eq_zero_iff.1 (by rw [hwhole.length_eq, hnil]; rfl))
    have hindentation : m.indentationOf texts.flatten = m.indentationOf line := by
      rw [indentationOf, indentationOf, leadingBlanks_exchanged hwhole]
    rw [m.lineSteps_eq_stepsFrom_cursor s hline] at htexts
    have hentered := m.enter_cursor texts.flatten s
    rw [m.seenLine_eq_seenFrom s hline, m.seenLine_eq_seenFrom s hne]
    rw [hindentation] at hentered ⊢
    exact seenFrom_of_texts h (hs.atLineStart _) (m.enter_cursor line s) hentered rfl rfl htexts rfl

/-- What literals contain has no part in the structure. With other fillers in the strings, comments and
directives of a text, every token is of the same category and at the same columns, the tokens that are no
literals have the same texts, and the state at the end is the same. In a regular state, as all are that lexing
reaches, a string that goes on ends at one of the two quotation marks. -/
theorem seenLines_disguised (h : m.hooks.OnlyDirectives) {s : State} (hs : s.Regular)
    {lines lines' : List (List Char)} (hlines : m.Disguised s lines lines') :
    (m.seenLines lines' s).1.map (·.map Seen.covered) = (m.seenLines lines s).1.map (·.map Seen.covered) ∧
      (m.seenLines lines' s).2 = (m.seenLines lines s).2 := by
  induction hlines with
  | nil s => exact ⟨rfl, rfl⟩
  | @cons s line lines lines' texts htexts _ ih =>
    obtain ⟨hline, hnext⟩ := seenLine_of_texts h hs htexts
    obtain ⟨hseen, hfinal⟩ := ih (hs.lexLine m line)
    simp only [seenLines_cons, List.map_cons, hline, hnext]
    exact ⟨congrArg _ hseen, hfinal⟩

/-- A string, a comment that goes on in the next line, and a directive behind it, with brackets put for
other characters and the other way round. -/
theorem seenLines_disguised_brackets :
    let m : Mode := { bare with hooks := .shader }
    let s := m.start 0
    let line := ['a', '"', '\x7b', '"', '/', '*', '(']
    let next := [';', '*', '/', '#', 'x', ' ', 'y']
    let lines' := [['a', '"', 'é', '"', '/', '*', ')'], ['\x7d', '*', '/', '#', '\x7b', ' ', 'é']]
    m.hooks.OnlyDirectives ∧ s.Regular ∧ m.Disguised s [line, next] lines' ∧
      (m.seenLines lines' s).1.map (·.map Seen.covered) =
        (m.seenLines [line, next] s).1.map (·.map Seen.covered) ∧
      (m.seenLines lines' s).2 = (m.seenLines [line, next] s).2 := by
  intro m s line next lines'
  have hhooks : m.hooks.OnlyDirectives := HookTable.onlyDirectives_shader
  have hs : s.Regular := State.regular_start m 0
  have hfirst : List.Forall₂ Step.Admits (m.lineSteps line s)
      [['a'], ['"', 'é', '"'], ['/', '*', ')']] := by
    decide +kernel
  have hsecond : List.Forall₂ Step.Admits (m.lineSteps next (m.lexLine line s).2)
      [['\x7d', '*', '/'], ['#', '\x7b', ' ', 'é']] := by
    decide +kernel
  have hlines : m.Disguised s [line, next] lines' := .cons hfirst (.cons hsecond (.nil _))
  exact ⟨hhooks, hs, hlines, seenLines_disguised hhooks hs hlines⟩

end Mode

end ShaderText
