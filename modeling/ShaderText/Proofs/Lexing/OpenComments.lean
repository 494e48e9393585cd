/-
What a block comment contains. As long as its lines hold no closer, nothing in them reaches the nesting: a
line is one comment, or nothing if it is blank, the comment goes on behind it, and no line is indented. The
line with the first closer starts with a comment that ends there, and code follows. What opens a comment is
no part of a closer, and the end of one line and the start of the next are none either.
-/
import ShaderText.Proofs.Lexing.Invisible
import ShaderText.Proofs.Lexing.Literals
import ShaderText.Proofs.Literal.Comment
import ShaderText.Proofs.Reindent.Lines

namespace ShaderText

/-! ## Closers and blanks -/

theorem trimLeading_infix_self (cs : List Char) : trimLeading cs <:+: cs :=
  (List.dropWhile_suffix isBlank).isInfix

/-- A slash in front of a text makes no closer with it. -/
theorem closer_of_slash_cons {cs : List Char} (h : commentCloser <:+: '/' :: cs) : commentCloser <:+: cs := by
  rcases List.infix_cons_iff.1 h with hfront | hin
  · obtain ⟨hstar, -⟩ := List.cons_prefix_cons.1 hfront
    cases hstar
  · exact hin

namespace EndsInCloser

variable {text : List Char}

theorem ne_nil (h : EndsInCloser text) : text ≠ [] := by
  obtain ⟨body, rfl, -⟩ := h
  simp [commentCloser]

/-- Without the leading blanks the same closer is the first. -/
theorem trimmed (h : EndsInCloser text) : EndsInCloser (trimLeading text) := by
  obtain ⟨body, rfl, hfirst⟩ := h
  have hstar : leadingBlanks ['*'] = [] := by decide
  have hcloser : leadingBlanks commentCloser = [] := by decide
  refine ⟨trimLeading body, trimLeading_append fun _ => hcloser, fun hin => hfirst (hin.trans ?_)⟩
  rw [← trimLeading_append fun _ => hstar]
  exact trimLeading_infix_self _

end EndsInCloser

/-- The state behind the end of a comment that is the first on a line indented by `indented`. -/
def State.behindComment (s : State) (indented : Nat) : State :=
  { s.atLineStart indented with region := .code }

namespace Mode

variable {m : Mode} {s : State}

/-! ## Lines amid a comment -/

/-- The token of a line amid a block comment; a blank line has none. -/
def amidComment (line : List Char) : List Token :=
  if trimLeading line = [] then []
  else [⟨.comment, trimLeading line, byteLength (leadingBlanks line), byteLength line⟩]

theorem category_of_mem_amidComment {line : List Char} {t : Token} (h : t ∈ amidComment line) :
    t.category = .comment := by
  rw [amidComment] at h
  split at h
  · cases h
  · rw [List.mem_singleton.1 h]

theorem pos_contentCursor (m : Mode) (line : List Char) :
    (m.contentCursor line).pos = byteLength (leadingBlanks line) := by
  rw [Cursor.pos_eq, m.token_contentCursor]
  rfl

/-- Inside a comment, a line that is not blank starts with what is left of the comment. -/
theorem lexLine_of_comment (hs : s.region = .comment) {line : List Char} (hline : trimLeading line ≠ [])
    {n : Nat} {region : Region} (hx : Lexeme.comment 0 (trimLeading line) = ⟨.comment, none, n, region⟩) :
    m.lexLine line s =
      let c := (m.contentCursor line).startToken.take n
      let s' := { s.atLineStart (m.indentationOf line) with region := region }
      (⟨.comment, (trimLeading line).take n, byteLength (leadingBlanks line),
          byteLength (leadingBlanks line) + byteLength ((trimLeading line).take n)⟩ :: (m.lexFrom c s').1,
        (m.lexFrom c s').2) := by
  have hne : line ≠ [] := by
    rintro rfl
    exact hline rfl
  have hrest := m.rest_contentCursor line
  have hlexeme : m.lexeme (m.contentCursor line).startToken (s.atLineStart (m.indentationOf line)) =
      ⟨.comment, none, n, region⟩ := by
    simp only [lexeme, State.region_atLineStart, hs, Cursor.rest_startToken, hrest, hx]
  rw [m.lexLine_eq_lexFrom s hne, m.lexFrom_of_lexeme (m.enter_contentCursor line s) (by rwa [hrest])
    (by rw [hrest, leadingBlanks_trimLeading]) hlexeme, hrest, pos_contentCursor]
  rfl

/-- Without a closer the comment goes on, and the line does no more than start. -/
theorem lexLine_of_no_closer (hs : s.region = .comment) {line : List Char} (h : ¬ commentCloser <:+: line) :
    (m.lexLine line s).1 = amidComment line ∧ (m.lexLine line s).2.region = .comment ∧
      s.MayStart (m.lexLine line s).2 := by
  have hread : (m.lexLine line s).1 = amidComment line ∧ (m.lexLine line s).2.region = .comment := by
    by_cases hline : trimLeading line = []
    · obtain ⟨htokens, hregion, -⟩ := m.lexLine_of_blank hline s
      rw [amidComment, if_pos hline]
      exact ⟨htokens, hregion.trans hs⟩
    · have hopen : ¬ commentCloser <:+: trimLeading line :=
        fun hin => h (hin.trans (trimLeading_infix_self line))
      have hend : ((m.contentCursor line).startToken.take (0 + (trimLeading line).length)).rest = [] := by
        rw [Cursor.rest_take, Cursor.rest_startToken, m.rest_contentCursor, Nat.zero_add, List.drop_length]
      rw [lexLine_of_comment hs hline (Lexeme.comment_of_no_closer 0 hopen), amidComment, if_neg hline]
      dsimp only
      rw [m.lexFrom_of_end _ hend, Nat.zero_add, List.take_length, ← byteLength_append,
        leadingBlanks_append_trimLeading]
      exact ⟨rfl, rfl⟩
  obtain ⟨htokens, hregion⟩ := hread
  refine ⟨htokens, hregion, Invisible.mayStart ⟨fun t ht => ?_, hregion.trans hs.symm⟩⟩
  rw [htokens] at ht
  rw [category_of_mem_amidComment ht]
  rfl

/-- Lines without a closer are read inside the comment, one after the other. -/
theorem lexLines_of_no_closer (hs : s.region = .comment) {lines : List (List Char)}
    (h : ∀ line ∈ lines, ¬ commentCloser <:+: line) :
    (m.lexLines lines s).1 = lines.map amidComment ∧ (m.stateAfter lines s).region = .comment ∧
      s.MayStart (m.stateAfter lines s) := by
  induction lines generalizing s with
  | nil => exact ⟨rfl, hs, .inl rfl⟩
  | cons line lines ih =>
    rw [List.forall_mem_cons] at h
    obtain ⟨hline, hlines⟩ := h
    obtain ⟨htokens, hregion, hstart⟩ := lexLine_of_no_closer (m := m) hs hline
    obtain ⟨hrows, hfinal, hnext⟩ := ih hregion hlines
    refine ⟨?_, hfinal, hstart.trans hnext⟩
    simp only [lexLines, List.map_cons, htokens, hrows]

/-- The first token of a line with a closer ends there, and what follows is read in code. -/
theorem lexLine_of_endsInCloser (hs : s.region = .comment) {text : List Char} (h : EndsInCloser text)
    (back : List Char) :
    ∃ c : Cursor, c.before ++ c.token = text ∧ c.rest = back ∧
      m.lexLine (text ++ back) s =
        let s' := s.behindComment (m.indentationOf (text ++ back))
        (⟨.comment, trimLeading text, byteLength (leadingBlanks text), byteLength text⟩ :: (m.lexFrom c s').1,
          (m.lexFrom c s').2) := by
  have hne : trimLeading text ≠ [] := h.trimmed.ne_nil
  have hblanks : leadingBlanks (text ++ back) = leadingBlanks text :=
    leadingBlanks_append fun hblank => absurd hblank hne
  have htrim : trimLeading (text ++ back) = trimLeading text ++ back :=
    trimLeading_append fun hblank => absurd hblank hne
  have hx : Lexeme.comment 0 (trimLeading (text ++ back)) =
      ⟨.comment, none, (trimLeading text).length, .code⟩ := by
    rw [htrim, Lexeme.comment_of_endsInCloser 0 h.trimmed, Nat.zero_add]
  refine ⟨(m.contentCursor (text ++ back)).startToken.take (trimLeading text).length, ?_, ?_, ?_⟩
  · rw [Cursor.before_take, Cursor.before_startToken, Cursor.token_take, Cursor.rest_startToken,
      m.rest_contentCursor, m.token_contentCursor, htrim, hblanks, List.take_left]
    exact leadingBlanks_append_trimLeading text
  · rw [Cursor.rest_take, Cursor.rest_startToken, m.rest_contentCursor, htrim, List.drop_left]
  · rw [lexLine_of_comment hs (by simp [htrim, hne]) hx, htrim, List.take_left, hblanks, ← byteLength_append,
      leadingBlanks_append_trimLeading]
    rfl

/-! ## Openers -/

theorem lexeme_of_opener {c : Cursor} {cs : List Char} (hs : s.region = .code)
    (hrest : c.rest = '/' :: '*' :: cs) (hfree : m.capture? c s = none) : m.lexeme c s = .comment 2 cs := by
  simp only [lexeme, hs, codeLexeme, hfree, hrest, m.shapeLexeme_blockComment]

theorem take_opener (n : Nat) (cs : List Char) :
    ('/' :: '*' :: cs).take (2 + n) = '/' :: '*' :: cs.take n := by
  rw [Nat.add_comm]
  rfl

theorem drop_opener (n : Nat) (cs : List Char) : ('/' :: '*' :: cs).drop (2 + n) = cs.drop n := by
  rw [Nat.add_comm]
  rfl

theorem byteLength_opener (cs : List Char) : byteLength ('/' :: '*' :: cs) = 2 + byteLength cs := by
  rw [byteLength, byteLength, ← Nat.add_assoc]
  rfl

/-- In code, what opens a comment starts one, unless a hook captures it. -/
theorem step_of_opener {c : Cursor} {cs : List Char} (hs : s.region = .code)
    (hrest : c.rest = '/' :: '*' :: cs) (hfree : m.capture? c.startToken (s.enter c) = none) {n : Nat}
    {region : Region} (hx : Lexeme.comment 2 cs = ⟨.comment, none, 2 + n, region⟩) :
    (m.step c s).token? =
        some ⟨.comment, '/' :: '*' :: cs.take n, c.pos, c.pos + (2 + byteLength (cs.take n))⟩ ∧
      (m.step c s).cursor.rest = cs.drop n ∧ (m.step c s).state.region = region := by
  have hblank : leadingBlanks c.rest = [] := by
    rw [hrest]
    rfl
  have hlexeme : m.lexeme c.startToken (s.enter c) = ⟨.comment, none, 2 + n, region⟩ :=
    (lexeme_of_opener (c := c.startToken) ((s.region_enter c).trans hs) hrest hfree).trans hx
  have htoken : (c.startToken.take (2 + n)).token = '/' :: '*' :: cs.take n := by
    rw [Cursor.token_take, Cursor.token_startToken, Cursor.rest_startToken, hrest, take_opener,
      List.nil_append]
  rw [m.step_of_not_blank s hblank, hlexeme]
  refine ⟨?_, ?_, State.region_afterLexeme ..⟩
  · simp only [Step.token?, Option.map_some, Cursor.pos, htoken, byteLength_opener]
    rfl
  · rw [Cursor.rest_take, Cursor.rest_startToken, hrest, drop_opener]

/-! ## The first closer -/

/-- A block comment contains everything up to its first closer, across any number of lines, whatever the
mode. Inside it, lines without a closer are one comment each, leave the nesting as it was but for an alignment
that is decided, and are not indented; a line with a closer starts with a comment that ends in the first one,
and code follows. A comment that is opened in code ends in the first closer behind its opener, or not on its
line; and neither an asterisk at the end of its line nor a slash at the start of the next one ends it. -/
theorem comment_ends_at_first_closer (m : Mode) (s : State) (hs : s.region = .comment) :
    (∀ lines : List (List Char), (∀ line ∈ lines, ¬ commentCloser <:+: line) →
      (m.lexLines lines s).1 = lines.map amidComment ∧
      (m.stateAfter lines s).region = .comment ∧
      ((m.stateAfter lines s).nesting = s.nesting ∨
        (m.stateAfter lines s).nesting = s.nesting.settle false) ∧
      ∀ (i : Nat) (text : List Char), m.indent (m.stateAfter (lines.take i) s) text = 0) ∧
    (∀ line : List Char, commentCloser <:+: line →
      ∃ text back, line = text ++ back ∧ EndsInCloser text ∧
        ∃ c : Cursor, c.before ++ c.token = text ∧ c.rest = back ∧
          m.lexLine line s =
            let s' := s.behindComment (m.indentationOf line)
            (⟨.comment, trimLeading text, byteLength (leadingBlanks text), byteLength text⟩ ::
                (m.lexFrom c s').1,
              (m.lexFrom c s').2)) ∧
    (∀ (c : Cursor) (s' : State) (cs : List Char), s'.region = .code → c.rest = '/' :: '*' :: cs →
      m.capture? c.startToken (s'.enter c) = none →
      (¬ commentCloser <:+: cs →
        (m.step c s').token? = some ⟨.comment, '/' :: '*' :: cs, c.pos, c.pos + (2 + byteLength cs)⟩ ∧
        (m.step c s').cursor.rest = [] ∧ (m.step c s').state.region = .comment) ∧
      ∀ text back, cs = text ++ back → EndsInCloser text →
        (m.step c s').token? = some ⟨.comment, '/' :: '*' :: text, c.pos, c.pos + (2 + byteLength text)⟩ ∧
        (m.step c s').cursor.rest = back ∧ (m.step c s').state.region = .code) ∧
    ∀ (s' : State) (front back : List Char), (m.lexLine (front ++ ['*']) s').2.region = .comment →
      ¬ commentCloser <:+: back → (m.stateAfter [front ++ ['*'], '/' :: back] s').region = .comment := by
  refine ⟨fun lines h => ?_, fun line h => ?_, fun c s' cs hcode hrest hfree => ⟨fun h => ?_, ?_⟩, ?_⟩
  · obtain ⟨htokens, hregion, hstart⟩ := lexLines_of_no_closer (m := m) hs h
    refine ⟨htokens, hregion, hstart.nesting_eq, fun i text => ?_⟩
    have htaken : ∀ line ∈ lines.take i, ¬ commentCloser <:+: line :=
      fun line hline => h line (List.mem_of_mem_take hline)
    obtain ⟨-, hamid, -⟩ := lexLines_of_no_closer (m := m) hs htaken
    exact if_pos (by rw [State.inLiteral, hamid]; rfl)
  · obtain ⟨text, back, rfl, hends⟩ := exists_endsInCloser h
    exact ⟨text, back, rfl, hends, lexLine_of_endsInCloser hs hends back⟩
  · obtain ⟨htoken, hbehind, hregion⟩ := step_of_opener hcode hrest hfree (Lexeme.comment_of_no_closer 2 h)
    rw [List.take_length] at htoken
    rw [List.drop_length] at hbehind
    exact ⟨htoken, hbehind, hregion⟩
  · rintro text back rfl hends
    obtain ⟨htoken, hbehind, hregion⟩ :=
      step_of_opener hcode hrest hfree (Lexeme.comment_of_endsInCloser 2 hends back)
    rw [List.take_left] at htoken
    rw [List.drop_left] at hbehind
    exact ⟨htoken, hbehind, hregion⟩
  · intro s' front back hopen hback
    obtain ⟨-, hregion, -⟩ := lexLine_of_no_closer (m := m) hopen fun hin => hback (closer_of_slash_cons hin)
    exact hregion

/-- Behind an opener and a slash the comment is open, and an asterisk and a slash on two lines do not end
it. -/
theorem comment_ends_at_first_closer_split :
    let s := (bare.lexLine ['/', '*', '/'] (bare.start 0)).2
    let lines := [['(', '*'], [' '], ['/', ' ', '"']]
    s.region = .comment ∧ (∀ line ∈ lines, ¬ commentCloser <:+: line) ∧
      (bare.lexLines lines s).1 =
        [[⟨.comment, ['(', '*'], 0, 2⟩], [], [⟨.comment, ['/', ' ', '"'], 0, 3⟩]] ∧
      (bare.stateAfter lines s).region = .comment ∧ bare.indent (bare.stateAfter lines s) ['x'] = 0 := by
  intro s lines
  have hs : s.region = .comment := by decide +kernel
  have hopen : ∀ line ∈ lines, ¬ commentCloser <:+: line := by decide
  obtain ⟨hamid, -⟩ := bare.comment_ends_at_first_closer s hs
  obtain ⟨htokens, hregion, -, hindent⟩ := hamid lines hopen
  have htokens' : lines.map amidComment =
      [[⟨.comment, ['(', '*'], 0, 2⟩], [], [⟨.comment, ['/', ' ', '"'], 0, 3⟩]] := by
    decide +kernel
  exact ⟨hs, hopen, htokens.trans htokens', hregion, hindent lines.length ['x']⟩

end Mode

end ShaderText
