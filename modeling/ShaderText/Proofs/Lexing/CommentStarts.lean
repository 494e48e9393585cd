/-
Where comments start. What opens a comment, outside strings, directives and other comments, starts a comment
token unless it is part of an operator, and there it stands behind the first character of the operator: no
operator starts with it, but an operator goes on over it. So behind any character but an operator's the
comment starts.
-/
import ShaderText.Proofs.Lexing.Directives
import ShaderText.Proofs.Lexing.Dispatch

namespace ShaderText

/-! ## Bytes of tokens -/

/-- The token holds the byte at an offset. -/
def Token.Holds (t : Token) (byte : Nat) : Prop := t.start ≤ byte ∧ byte < t.stop

/-- The byte is inside a string or a directive, or inside a comment that starts before it. -/
structure Token.Conceals (t : Token) (byte : Nat) : Prop where
  literal : t.category.isLiteral = true
  holds : t.Holds byte
  before : t.category = .comment → t.start < byte

/-- An operator takes the two bytes from an offset on, which is behind its first character. -/
structure Token.Swallows (t : Token) (byte : Nat) : Prop where
  operator : t.category = .operator
  before : t.start < byte
  behind : byte + 2 ≤ t.stop

theorem Token.Swallows.holds {t : Token} {byte : Nat} (h : t.Swallows byte) : t.Holds byte :=
  ⟨Nat.le_of_lt h.before, Nat.lt_of_lt_of_le (by omega) h.behind⟩

/-- No byte is in two tokens. -/
theorem Tiles.eq_of_holds {start byte : Nat} {cs : List Char} {ts : List Token} (h : Tiles start cs ts)
    {t t' : Token} (ht : t ∈ ts) (ht' : t' ∈ ts) (hholds : t.Holds byte) (hholds' : t'.Holds byte) :
    t = t' := by
  obtain ⟨hle, hlt⟩ := hholds
  obtain ⟨hle', hlt'⟩ := hholds'
  induction h with
  | blanks _ => cases ht
  | token _ _ _ _ hts ih =>
    rcases List.mem_cons.1 ht with rfl | hmem
    · rcases List.mem_cons.1 ht' with rfl | hmem'
      · rfl
      · have hbehind := hts.le_start t' hmem'
        omega
    · rcases List.mem_cons.1 ht' with rfl | hmem'
      · have hbehind := hts.le_start t hmem
        omega
      · exact ih hmem hmem'

/-! ## Runs over an opener -/

/-- A run that gets over a character is made of characters that go on, that one included. -/
theorem forall_of_lt_length_takeWhile {p : Char → Bool} {before after : List Char} {c : Char}
    (h : before.length < ((before ++ c :: after).takeWhile p).length) :
    (∀ d ∈ before, p d = true) ∧ p c = true := by
  have hall : ∀ d ∈ (before ++ c :: after).takeWhile p, p d = true :=
    fun d hd => List.all_eq_true.1 List.all_takeWhile d hd
  have hsplit := List.takeWhile_append_dropWhile (p := p) (l := before ++ c :: after)
  rcases append_eq_append_cons hsplit with ⟨more, hrun⟩ | ⟨more, hbefore, -⟩
  · rw [hrun] at hall
    exact ⟨fun d hd => hall d (by simp [hd]), hall c (by simp)⟩
  · have hlength := congrArg List.length hbefore
    rw [List.length_append] at hlength
    omega

/-- What opens a comment is made of characters of operators. -/
theorem length_le_takeWhile_isOperatorChar {before : List Char} {d : Char} (hd : d = '*' ∨ d = '/')
    (h : ∀ e ∈ before, isOperatorChar e = true) (after : List Char) :
    before.length + 2 ≤ ((before ++ '/' :: d :: after).takeWhile isOperatorChar).length := by
  have hopener : isOperatorChar '/' = true ∧ isOperatorChar d = true := by
    rcases hd with rfl | rfl <;> decide
  rw [List.takeWhile_append_of_pos h, List.takeWhile_cons_of_pos hopener.1,
    List.takeWhile_cons_of_pos hopener.2]
  simp only [List.length_append, List.length_cons]
  omega

theorem Cursor.rest_startToken_take {c : Cursor} {front more : List Char} (h : c.rest = front ++ more) :
    (c.startToken.take front.length).rest = more := by
  rw [rest_take, rest_startToken, h, List.drop_left]

namespace Mode

variable {m : Mode} {region : Region}

/-! ## Lexemes over an opener -/

theorem length_wordLexeme (g : Grammar) (word : List Char) :
    (wordLexeme region g word).length = word.length := by
  unfold wordLexeme
  split_ifs <;> rfl

/-- In code, a lexeme that gets over the opener of a comment is a literal, or an operator that starts before
it and takes all of it. -/
theorem shapeLexeme_over_opener (m : Mode) {before after : List Char} {d : Char} (hd : d = '*' ∨ d = '/')
    {x : Lexeme} (hx : m.shapeLexeme region (before ++ '/' :: d :: after) = x) (hlt : before.length < x.length) :
    x.category.isLiteral = true ∨ x.category = .operator ∧ before ≠ [] ∧ before.length + 2 ≤ x.length := by
  subst hx
  obtain _ | ⟨e, before⟩ := before
  · rcases hd with rfl | rfl
    · exact .inl (by rw [List.nil_append, m.shapeLexeme_blockComment]; rfl)
    · exact .inl (by rw [List.nil_append, m.shapeLexeme_lineComment]; rfl)
  · rw [List.cons_append, m.shapeLexeme_eq_dispatch, dispatch] at hlt ⊢
    split_ifs at hlt ⊢ with hquote hpunctuation hdigit hblock hline hoperator
    · exact .inl rfl
    · simp at hlt
    · -- no number has a slash
      rw [List.length_cons, Nat.add_comm] at hlt
      obtain ⟨-, hslash⟩ := forall_of_lt_length_takeWhile (Nat.lt_of_add_lt_add_left hlt)
      cases hslash
    · exact .inl rfl
    · exact .inl rfl
    · rw [List.length_cons, Nat.add_comm] at hlt
      obtain ⟨hbefore, -⟩ := forall_of_lt_length_takeWhile (Nat.lt_of_add_lt_add_left hlt)
      have hrun := length_le_takeWhile_isOperatorChar hd hbefore after
      refine .inr ⟨rfl, List.cons_ne_nil _ _, ?_⟩
      show before.length + 1 + 2 ≤ 1 + _
      omega
    · -- no word has a slash
      rw [length_wordLexeme, List.length_cons, List.length_cons] at hlt
      obtain ⟨-, hslash⟩ := forall_of_lt_length_takeWhile (Nat.lt_of_succ_lt_succ hlt)
      cases hslash

/-- A lexeme that gets over the opener of a comment is a literal, or an operator that starts before it and
takes all of it. -/
theorem lexeme_over_opener (h : m.hooks.OnlyDirectives) {c : Cursor} {s : State} {x : Lexeme}
    (hx : m.lexeme c s = x) {before after : List Char} {d : Char} (hd : d = '*' ∨ d = '/')
    (hrest : c.rest = before ++ '/' :: d :: after) (hlt : before.length < x.length) :
    x.category.isLiteral = true ∨ x.category = .operator ∧ before ≠ [] ∧ before.length + 2 ≤ x.length := by
  unfold lexeme at hx
  cases hregion : s.region with
  | code =>
    simp only [hregion, codeLexeme, capture?_eq h] at hx
    split_ifs at hx
    · exact .inl (by rw [← hx]; rfl)
    · rw [hrest] at hx
      exact m.shapeLexeme_over_opener hd hx hlt
  | string quote =>
    rw [hregion] at hx
    exact .inl (by rw [← hx]; rfl)
  | comment =>
    rw [hregion] at hx
    exact .inl (by rw [← hx]; rfl)

theorem matches_operator_shapeLexeme (m : Mode) {cs : List Char}
    (h : (m.shapeLexeme region cs).category = .operator) :
    Shape.Matches .operator (cs.take (m.shapeLexeme region cs).length) := by
  have hword (n : Nat) : (Lexeme.word region m.grammar n cs).category ≠ .operator := by
    rw [Lexeme.word, Grammar.category]
    split <;> simp
  unfold shapeLexeme at h ⊢
  cases hwins : Shape.longest cs with
  | none =>
    rw [hwins] at h
    exact absurd h (hword _)
  | some winner =>
    obtain ⟨winner, n⟩ := winner
    obtain ⟨-, hn, hpos, -⟩ := Shape.longestOf_eq_some hwins
    rw [hwins] at h
    cases winner with
    | operator =>
      rw [hn] at hpos
      rw [hn]
      exact Shape.matches_take hpos
    | word => exact absurd h (hword n)
    | quote | punctuation | number | blockComment | lineComment => cases h

/-- An operator is a text that has the shape of operators. -/
theorem matches_operator (h : m.hooks.OnlyDirectives) {c : Cursor} {s : State}
    (hcategory : (m.lexeme c s).category = .operator) :
    Shape.Matches .operator (c.rest.take (m.lexeme c s).length) := by
  unfold lexeme at hcategory ⊢
  cases hregion : s.region with
  | code =>
    simp only [hregion, codeLexeme, capture?_eq h] at hcategory ⊢
    split_ifs at hcategory ⊢
    exact m.matches_operator_shapeLexeme hcategory
  | string quote => rw [hregion] at hcategory; cases hcategory
  | comment => rw [hregion] at hcategory; cases hcategory

/-! ## Tokens over an opener -/

/-- Where a comment opens, a literal or an operator stands that holds the opener. -/
theorem exists_over_opener (h : m.hooks.OnlyDirectives) (c : Cursor) (s : State) (hc : s.enter c = s)
    {before after : List Char} {d : Char} (hd : d = '*' ∨ d = '/') (hrest : c.rest = before ++ '/' :: d :: after) :
    ∃ t ∈ (m.lexFrom c s).1, t.Holds (c.pos + byteLength before) ∧
      (t.category.isLiteral = true ∨ t.Swallows (c.pos + byteLength before)) := by
  induction c, s, hc using m.entered_induction generalizing before with
  | atEnd c s _ hend =>
    rw [hend] at hrest
    simp at hrest
  | blanks c s hc _ hblank ih =>
    have hsplit := leadingBlanks_append_trimLeading c.rest
    rcases append_eq_append_cons (hsplit.trans hrest) with ⟨more, hgap⟩ | ⟨more, hbefore, htrim⟩
    · have hslash : '/' ∈ leadingBlanks c.rest := by simp [hgap]
      cases isBlank_of_mem_leadingBlanks hslash
    · rw [htrim] at hsplit
      have hnext := ih (Cursor.rest_startToken_take hsplit.symm)
      rw [Cursor.pos_startToken_take hsplit.symm, Nat.add_assoc, ← byteLength_append, ← hbefore] at hnext
      rwa [m.lexFrom_of_blank hc hblank]
  | lexeme c s x hc _ hne hblank hx ih =>
    have hlength : (c.rest.take x.length).length = x.length :=
      List.length_take_of_le (hx ▸ m.length_lexeme_le c.startToken s)
    have hsplit := List.take_append_drop x.length c.rest
    rw [m.lexFrom_of_lexeme hc hne hblank hx]
    rcases append_eq_append_cons (hsplit.trans hrest) with ⟨more, htake⟩ | ⟨more, hbefore, hdrop⟩
    · -- the lexeme gets over the slash
      have hlength' : x.length = before.length + (more.length + 1) := by
        rw [← hlength, htake, List.length_append, List.length_cons]
      have hbytes : byteLength (c.rest.take x.length) = byteLength before + (1 + byteLength more) := by
        rw [htake, byteLength_append]
        rfl
      refine ⟨_, List.mem_cons_self .., ⟨Nat.le_add_right .., ?_⟩, ?_⟩
      · show c.pos + byteLength before < c.pos + byteLength (c.rest.take x.length)
        omega
      · refine (lexeme_over_opener h hx hd hrest (by omega)).imp id fun ⟨hoperator, hbefore, hle⟩ => ?_
        have hfront := byteLength_pos hbefore
        have hback : 0 < byteLength more := byteLength_pos (List.length_pos_iff.1 (by omega))
        refine ⟨hoperator, Nat.lt_add_of_pos_right hfront, ?_⟩
        show c.pos + byteLength before + 2 ≤ c.pos + byteLength (c.rest.take x.length)
        omega
    · rw [hdrop] at hsplit
      have hnext := ih (hlength ▸ Cursor.rest_startToken_take hsplit.symm)
      have hpos := Cursor.pos_startToken_take hsplit.symm
      rw [hlength] at hpos
      rw [hpos, Nat.add_assoc, ← byteLength_append, ← hbefore] at hnext
      obtain ⟨t, ht, hover⟩ := hnext
      exact ⟨t, List.mem_cons_of_mem _ ht, hover⟩

/-- A token is the text that a lexeme takes. -/
theorem exists_lexeme_of_mem (m : Mode) (c : Cursor) (s : State) (hc : s.enter c = s) {t : Token}
    (ht : t ∈ (m.lexFrom c s).1) : ∃ (c' : Cursor) (s' : State), t.category = (m.lexeme c' s').category ∧
      t.text = c'.rest.take (m.lexeme c' s').length := by
  induction c, s, hc using m.entered_induction with
  | atEnd c s _ hend =>
    rw [m.lexFrom_of_end s hend] at ht
    cases ht
  | blanks c s hc _ hblank ih =>
    rw [m.lexFrom_of_blank hc hblank] at ht
    exact ih ht
  | lexeme c s x hc _ hrest hblank hx ih =>
    rw [m.lexFrom_of_lexeme hc hrest hblank hx] at ht
    rcases List.mem_cons.1 ht with rfl | hnext
    · exact ⟨c.startToken, s, by rw [hx], by rw [hx]; rfl⟩
    · exact ih hnext

/-- No operator starts with what opens a comment. -/
theorem not_opener_of_matches {text : List Char} (h : Shape.Matches .operator text) :
    (∀ d ∈ text, isOperatorChar d = true) ∧ ¬ ['/', '*'] <+: text ∧ ¬ ['/', '/'] <+: text := by
  cases h with
  | operator hc hslash hcs =>
    refine ⟨List.forall_mem_cons.2 ⟨hc, hcs⟩, ?_, ?_⟩
    · rintro ⟨more, hmore⟩
      exact hslash (List.cons.inj hmore).1.symm
    · rintro ⟨more, hmore⟩
      exact hslash (List.cons.inj hmore).1.symm
  | slash =>
    exact ⟨List.forall_mem_singleton.2 rfl, fun hfront => absurd hfront.length_le (by decide),
      fun hfront => absurd hfront.length_le (by decide)⟩
  | @slashOperator c cs hc hcs =>
    simp only [isAfterSlash, Bool.and_eq_true, bne_iff_ne] at hc
    refine ⟨?_, ?_, ?_⟩
    · exact List.forall_mem_cons.2 ⟨by decide, List.forall_mem_cons.2 ⟨hc.1.1, hcs⟩⟩
    · rintro ⟨more, hmore⟩
      simp only [List.cons_append, List.cons.injEq, true_and] at hmore
      exact hc.1.2 hmore.1.symm
    · rintro ⟨more, hmore⟩
      simp only [List.cons_append, List.cons.injEq, true_and] at hmore
      exact hc.2 hmore.1.symm

/-- Behind a comment the nesting is as before; but at the start of its line it is decided that nothing stands
behind what opened the innermost level. -/
theorem nesting_step_of_comment (m : Mode) {c : Cursor} {s : State} {x : Lexeme}
    (hx : (m.step c s).lexeme? = some x) (hcomment : x.category = .comment) :
    (m.step c s).state.nesting = s.nesting ∨ (m.step c s).state.nesting = s.nesting.settle false := by
  have hread : (m.step c s).state.nesting = (s.enter c).nesting := by
    by_cases hblank : leadingBlanks c.rest = []
    · rw [m.step_of_not_blank s hblank] at hx ⊢
      obtain rfl := Option.some.inj hx
      rw [State.afterLexeme, if_pos (by rw [hcomment]; rfl)]
    · rw [m.step_of_blank s hblank] at hx
      cases hx
  rw [hread]
  unfold State.enter
  split
  · exact .inr rfl
  · exact .inl rfl

/-! ## Lines -/

/-- Where a comment opens, a literal or an operator stands that holds the opener. -/
theorem exists_over_opener_lexLine (h : m.hooks.OnlyDirectives) (s : State) {line before after : List Char}
    {d : Char} (hd : d = '*' ∨ d = '/') (hline : line = before ++ '/' :: d :: after) :
    ∃ t ∈ (m.lexLine line s).1, t.Holds (byteLength before) ∧
      (t.category.isLiteral = true ∨ t.Swallows (byteLength before)) := by
  have hne : line ≠ [] := by simp [hline]
  have hover := exists_over_opener h (m.cursor line) _ (m.enter_cursor line s) hd hline
  rw [m.lexLine_eq_lexFrom_cursor s hne]
  rwa [show (m.cursor line).pos = 0 from rfl, Nat.zero_add] at hover

theorem operator_of_mem_lexLine (h : m.hooks.OnlyDirectives) (s : State) (line : List Char) :
    ∀ t ∈ (m.lexLine line s).1, t.category = .operator →
      (∀ d ∈ t.text, isOperatorChar d = true) ∧ ¬ ['/', '*'] <+: t.text ∧ ¬ ['/', '/'] <+: t.text := by
  intro t ht hoperator
  by_cases hline : line = []
  · rw [hline, m.lexLine_nil] at ht
    cases ht
  · rw [m.lexLine_eq_lexFrom_cursor s hline] at ht
    obtain ⟨c, s', hcategory, htext⟩ := m.exists_lexeme_of_mem _ _ (m.enter_cursor line s) ht
    rw [htext]
    exact not_opener_of_matches (matches_operator h (hcategory ▸ hoperator))

/-- A comment starts at an opener unless a literal conceals it or an operator swallows it. -/
theorem comment_starts_iff (h : m.hooks.OnlyDirectives) (s : State) {line before after : List Char}
    {d : Char} (hd : d = '*' ∨ d = '/') (hline : line = before ++ '/' :: d :: after) :
    (∃ t ∈ (m.lexLine line s).1, t.category = .comment ∧ t.start = byteLength before) ↔
      ∀ t ∈ (m.lexLine line s).1, ¬ t.Conceals (byteLength before) ∧ ¬ t.Swallows (byteLength before) := by
  have htiles := m.tiles_lexLine line s
  constructor
  · rintro ⟨u, hu, hcomment, hstart⟩ t ht
    have hlt := (htiles.onLine [] u hu).ordered
    have hholds : u.Holds (byteLength before) := ⟨Nat.le_of_eq hstart, hstart ▸ hlt⟩
    constructor
    · intro hconceals
      obtain rfl := htiles.eq_of_holds hu ht hholds hconceals.holds
      exact Nat.ne_of_lt (hconceals.before hcomment) hstart
    · intro hswallows
      obtain rfl := htiles.eq_of_holds hu ht hholds hswallows.holds
      exact Nat.ne_of_lt hswallows.before hstart
  · intro hfree
    obtain ⟨t, ht, hholds, hliteral | hswallows⟩ := exists_over_opener_lexLine h s hd hline
    · -- a literal that does not conceal the opener is a comment, and starts there
      obtain ⟨hconceals, -⟩ := hfree t ht
      have hstarts : t.category = .comment ∧ ¬ t.start < byteLength before := by
        by_contra hnot
        exact hconceals ⟨hliteral, hholds, fun hcomment => by_contra fun hlt => hnot ⟨hcomment, hlt⟩⟩
      exact ⟨t, ht, hstarts.1, Nat.le_antisymm hholds.1 (Nat.le_of_not_lt hstarts.2)⟩
    · exact absurd hswallows (hfree t ht).2

/-- In front of a swallowed opener is another character of the operator. -/
theorem exists_isOperatorChar_of_swallows (h : m.hooks.OnlyDirectives) (s : State)
    {line before after : List Char} (hline : line = before ++ '/' :: after) {t : Token}
    (ht : t ∈ (m.lexLine line s).1) (hswallows : t.Swallows (byteLength before)) :
    ∃ e ∈ before.getLast?, isOperatorChar e = true := by
  obtain ⟨hall, -⟩ := operator_of_mem_lexLine h s line t ht hswallows.operator
  obtain ⟨front, back, hparts, hstart, hstop⟩ := ((m.tiles_lexLine line s).onLine [] t ht).text
  have hbefore := hswallows.before
  have hbehind := hswallows.behind
  rw [hstop, byteLength_append] at hbehind
  rw [hstart] at hbefore
  -- the operator starts in front of the opener and stops behind it
  rw [List.nil_append, List.append_assoc, hline] at hparts
  rcases List.append_eq_append_iff.1 hparts with ⟨mid, hfront, -⟩ | ⟨mid, hmid, hrest⟩
  · rw [hfront, byteLength_append] at hbefore
    omega
  · rw [hmid, byteLength_append] at hbefore hbehind
    rcases append_eq_append_cons hrest with ⟨more, htext⟩ | ⟨more, hmore, -⟩
    · obtain ⟨mid, e, rfl⟩ : ∃ mid' e, mid = mid' ++ [e] := by
        rcases List.eq_nil_or_concat mid with rfl | ⟨mid', e, rfl⟩
        · simp [byteLength] at hbefore
        · exact ⟨mid', e, by simp⟩
      refine ⟨e, ?_, hall e (by simp [htext])⟩
      rw [hmid, ← List.append_assoc, List.getLast?_concat]
      exact rfl
    · rw [hmore, byteLength_append] at hbehind
      omega

/-- A comment starts at what opens one, unless the opener is inside a literal or is swallowed by an operator;
and no operator swallows it behind a character of another kind. The characters of an operator are all of its
kind, and none starts with an opener. Comments change nothing in the nesting. -/
theorem comment_starts (h : m.hooks.OnlyDirectives) (s : State) (line : List Char) :
    (∀ (before after : List Char) (d : Char), line = before ++ '/' :: d :: after → d = '*' ∨ d = '/' →
      ((∃ t ∈ (m.lexLine line s).1, t.category = .comment ∧ t.start = byteLength before) ↔
        ∀ t ∈ (m.lexLine line s).1,
          ¬ t.Conceals (byteLength before) ∧ ¬ t.Swallows (byteLength before)) ∧
      ((∀ e ∈ before.getLast?, isOperatorChar e = false) →
        ∀ t ∈ (m.lexLine line s).1, ¬ t.Swallows (byteLength before))) ∧
    (∀ t ∈ (m.lexLine line s).1, t.category = .operator →
      (∀ d ∈ t.text, isOperatorChar d = true) ∧ ¬ ['/', '*'] <+: t.text ∧ ¬ ['/', '/'] <+: t.text) ∧
    ∀ (c : Cursor) (s : State) (x : Lexeme), (m.step c s).lexeme? = some x → x.category = .comment →
      (m.step c s).state.nesting = s.nesting ∨ (m.step c s).state.nesting = s.nesting.settle false := by
  refine ⟨fun before after d hline hd => ⟨comment_starts_iff h s hd hline, fun hfree t ht hswallows => ?_⟩,
    operator_of_mem_lexLine h s line, fun c s x => m.nesting_step_of_comment⟩
  obtain ⟨e, he, hoperator⟩ := exists_isOperatorChar_of_swallows h s hline ht hswallows
  rw [hfree e he] at hoperator
  cases hoperator

/-- A comment behind a word, with a bracket in it. -/
theorem comment_starts_behind_word :
    let m : Mode := { bare with hooks := .shader }
    let line := ['a', '/', '*', '(', '*', '/']
    let ts := (m.lexLine line (m.start 0)).1
    m.hooks.OnlyDirectives ∧ (∀ e ∈ ['a'].getLast?, isOperatorChar e = false) ∧
      (∀ t ∈ ts, ¬ t.Conceals 1) ∧ ∃ t ∈ ts, t.category = .comment ∧ t.start = 1 := by
  intro m line ts
  have hhooks : m.hooks.OnlyDirectives := HookTable.onlyDirectives_shader
  have hfront : ∀ e ∈ ['a'].getLast?, isOperatorChar e = false := by
    intro e he
    obtain rfl := Option.some.inj he
    rfl
  have hts : ts = [⟨.word, ['a'], 0, 1⟩, ⟨.comment, ['/', '*', '(', '*', '/'], 1, 6⟩] := by decide +kernel
  have hopen : ∀ t ∈ ts, ¬ t.Conceals 1 := by
    rw [hts, List.forall_mem_cons, List.forall_mem_singleton]
    exact ⟨fun hconceals => absurd hconceals.literal (by decide),
      fun hconceals => absurd (hconceals.before rfl) (by decide)⟩
  obtain ⟨hopener, -, -⟩ := comment_starts hhooks (m.start 0) line
  obtain ⟨hiff, hfree⟩ := hopener ['a'] ['(', '*', '/'] '*' rfl (.inl rfl)
  exact ⟨hhooks, hfront, hopen, hiff.2 fun t ht => ⟨hopen t ht, hfree hfront t ht⟩⟩

/-- Behind an equals sign no comment starts; the parenthesis that would be in it is on the nesting. -/
theorem operator_swallows_opener :
    let m : Mode := { bare with hooks := .shader }
    let line := ['=', '/', '/', '(']
    let ts := (m.lexLine line (m.start 0)).1
    m.hooks.OnlyDirectives ∧ line = ['='] ++ '/' :: '/' :: ['('] ∧ (∀ t ∈ ts, ¬ t.Conceals 1) ∧
      ¬ (∃ t ∈ ts, t.category = .comment ∧ t.start = 1) ∧
      (∃ t ∈ ts, t.category = .operator ∧ ['/', '/'] <:+: t.text) ∧
      (m.lexLine line (m.start 0)).2.nesting.top.kind = .bracket .paren := by
  intro m line ts
  have hhooks : m.hooks.OnlyDirectives := HookTable.onlyDirectives_shader
  have hts : ts = [⟨.operator, ['=', '/', '/'], 0, 3⟩, ⟨.bracket, ['('], 3, 4⟩] := by decide +kernel
  have hopen : ∀ t ∈ ts, ¬ t.Conceals 1 := by
    rw [hts, List.forall_mem_cons, List.forall_mem_singleton]
    exact ⟨fun hconceals => absurd hconceals.literal (by decide),
      fun hconceals => absurd hconceals.literal (by decide)⟩
  exact ⟨hhooks, rfl, hopen, by rw [hts]; decide, by rw [hts]; decide, by decide +kernel⟩

end Mode

end ShaderText
