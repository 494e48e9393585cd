/-
A comment behind other tokens is worth its width in blanks. Put as many spaces in its place as it takes
columns, and the tokens around it are seen as before, and the state behind the line is the same: no token
before it grows or shrinks, for what follows it was a slash and is a blank, which stops any of them; behind
it the columns are the same; and a comment leaves no more in the state than blanks do.
-/
import ShaderText.Proofs.Lexing.Lexeme
import ShaderText.Proofs.Lexing.Seen
import ShaderText.Proofs.Lexing.Tiling

namespace ShaderText

/-! ## Widths -/

/-- The line with as many spaces in place of the token as it takes columns. -/
def Token.blankedOut (tabSize : Nat) (line : List Char) (t : Token) : List Char :=
  charsBefore line t.start ++
    (List.replicate (columnAt tabSize line t.stop - columnAt tabSize line t.start) ' ' ++
      line.drop (charsBefore line t.stop).length)

namespace Mode

variable {m : Mode} {c c' : Cursor} {s : State} {rs rs' : List Step} {r : Step} {n : Nat}

/-! ## What lies around a step -/

theorem rest_ne_nil_of_steps (hsteps : m.stepsFrom c s = rs ++ r :: rs') : c.rest ≠ [] := by
  intro hend
  rw [m.stepsFrom_of_end s hend] at hsteps
  cases rs <;> cases hsteps

/-- What lies before a step and behind it is what the other steps read. -/
theorem parts_of_stepsFrom (hsteps : m.stepsFrom c s = rs ++ r :: rs') :
    r.cursor.before = c.before ++ c.token ++ (rs.map (·.cursor.token)).flatten ∧
      r.cursor.rest = (rs'.map (·.cursor.token)).flatten ∧ r.cursor.tabSize = c.tabSize := by
  have hrest := rest_ne_nil_of_steps hsteps
  induction rs generalizing c s with
  | nil =>
    rw [m.stepsFrom_of_rest s hrest, List.nil_append, List.cons.injEq] at hsteps
    obtain ⟨rfl, rfl⟩ := hsteps
    obtain ⟨n, hcursor, -⟩ := m.cursor_step c s
    refine ⟨?_, (m.flatten_tokens_stepsFrom _ _).symm, ?_⟩
    · rw [hcursor, Cursor.before_take, Cursor.before_startToken, List.map_nil, List.flatten_nil,
        List.append_nil]
    · rw [hcursor, Cursor.tabSize_take, Cursor.tabSize_startToken]
  | cons q rs ih =>
    rw [m.stepsFrom_of_rest s hrest, List.cons_append, List.cons.injEq] at hsteps
    obtain ⟨rfl, hsteps⟩ := hsteps
    obtain ⟨n, hcursor, -⟩ := m.cursor_step c s
    obtain ⟨hbefore, hbehind, htab⟩ := ih hsteps (rest_ne_nil_of_steps hsteps)
    refine ⟨?_, hbehind, ?_⟩
    · rw [hbefore, List.map_cons, List.flatten_cons, hcursor, Cursor.before_take, Cursor.before_startToken,
        List.append_assoc (c.before ++ c.token)]
    · rw [htab, hcursor, Cursor.tabSize_take, Cursor.tabSize_startToken]

/-! ## Blanks in place of a comment -/

/-- The step read a comment, and behind it is code. -/
structure Step.EndsComment (r : Step) : Prop where
  comment : ∃ x, r.lexeme? = some x ∧ x.category = .comment
  code : r.state.region = .code

/-- A comment between code leaves no more in the state than blanks do. -/
theorem afterLexeme_of_endsComment {x : Lexeme} (hr : Step.EndsComment ⟨some x, c, s.afterLexeme x n⟩)
    (hs : s.region = .code) : s.afterLexeme x n = s := by
  obtain ⟨⟨y, hy, hcomment⟩, hcode⟩ := hr
  cases hy
  rw [State.region_afterLexeme] at hcode
  rw [State.afterLexeme, hcomment, hcode, ← hs]
  rfl

/-- Behind the blanks, as behind the comment, the same text stands at the same column. -/
theorem seenFrom_gap_of_comment (h : m.hooks.OnlyDirectives) (hc' : s.enter c' = s)
    (htab : c'.tabSize = c.tabSize) (hcolumn : c'.startToken.column = c.startToken.column)
    (hbehind : s.enter (c.startToken.take n) = s) {gap : List Char} (hne : gap ≠ [])
    (hgap : ∀ d ∈ gap, isBlank d = true)
    (hwidth : columnFrom c.tabSize c.startToken.column gap =
      columnFrom c.tabSize c.startToken.column (c.rest.take n))
    (hrest' : c'.rest = gap ++ c.rest.drop n) : m.seenFrom c' s = m.seenFrom (c.startToken.take n) s := by
  have hlevel : Level (c'.startToken.take gap.length) (c.startToken.take n) := by
    refine ⟨?_, ?_, htab⟩
    · rw [Cursor.rest_take, Cursor.rest_startToken, hrest']
      exact List.drop_left
    · rw [Cursor.column_take, Cursor.column_take, htab, hcolumn, hrest', List.take_left, hwidth]
  have hne' : c'.rest ≠ [] := by simp [hrest', hne]
  rw [m.seenFrom_of_blanks s hne hgap hrest', hc',
    hlevel.seenFrom_eq h (s.enter_take hne' (List.length_pos_iff.2 hne)) hbehind]

/-- Before a token the line goes on as it did, and otherwise with the first of the blanks. -/
theorem canFollow_of_gap {cs front back gap more : List Char} {k : Nat} (hne : gap ≠ [])
    (hgap : ∀ d ∈ gap, isBlank d = true) (hdrop : cs.drop k = front ++ back) :
    CanFollow cs k (front ++ (gap ++ more)) := by
  cases front with
  | nil =>
    obtain ⟨d, gap, rfl⟩ := List.exists_cons_of_ne_nil hne
    refine .inr ?_
    rintro _ ⟨⟩
    exact hgap d (List.mem_cons_self ..)
  | cons d front => exact .inl (by rw [hdrop]; rfl)

/-- Blanks of the same width may stand in place of a comment behind which is code, where the line was
started already: what is seen of the other tokens is the same, and so is the state. -/
theorem seenFrom_of_gap (h : m.hooks.OnlyDirectives) (hc : s.enter c = s) (hc' : s.enter c' = s)
    (htab : c'.tabSize = c.tabSize) (hcolumn : c'.startToken.column = c.startToken.column)
    (hsteps : m.stepsFrom c s = rs ++ r :: rs') (hr : r.EndsComment)
    (hfirst : s.region = .code ∨ rs.filterMap Step.token? ≠ []) {gap : List Char} (hne : gap ≠ [])
    (hgap : ∀ d ∈ gap, isBlank d = true)
    (hwidth : columnFrom c.tabSize r.cursor.column gap = columnFrom c.tabSize r.cursor.column r.cursor.token)
    (hrest' : c'.rest = (rs.map (·.cursor.token)).flatten ++ (gap ++ (rs'.map (·.cursor.token)).flatten)) :
    m.seenFrom c' s =
      (((rs ++ rs').filterMap Step.token?).map (Token.seenOn c.tabSize c.line), (m.lexFrom c s).2) := by
  induction c, s, hc using m.entered_induction generalizing c' rs with
  | atEnd c s _ hend =>
    exact absurd hend (rest_ne_nil_of_steps hsteps)
  | blanks c s hc hbehind hblank ih =>
    rw [m.stepsFrom_of_blank hc hblank] at hsteps
    cases rs with
    | nil =>
      obtain ⟨rfl, -⟩ := List.cons.inj hsteps
      obtain ⟨⟨x, hx, -⟩, -⟩ := hr
      cases hx
    | cons q rs =>
      rw [List.cons_append, List.cons.injEq] at hsteps
      obtain ⟨rfl, hnext⟩ := hsteps
      rw [List.map_cons, List.flatten_cons, token_take_leadingBlanks, List.append_assoc] at hrest'
      have hblanks : ∀ d ∈ leadingBlanks c.rest, isBlank d = true := fun _ => isBlank_of_mem_leadingBlanks
      have hne' : c'.rest ≠ [] := by simp [hrest', hblank]
      rw [m.seenFrom_of_blanks s hblank hblanks hrest', hc', m.lexFrom_of_blank hc hblank]
      refine (ih (s.enter_take hne' (List.length_pos_iff.2 hblank)) htab ?_ hnext hfirst hwidth ?_).trans ?_
      · rw [Cursor.column_take, Cursor.column_take, htab, hcolumn, hrest', List.take_left,
          take_length_leadingBlanks]
      · rw [Cursor.rest_take, Cursor.rest_startToken, hrest', List.drop_left]
      · rw [Cursor.line_take, Cursor.line_startToken]
        rfl
  | lexeme c s x hc hbehind hrest hblank hx ih =>
    rw [m.stepsFrom_of_lexeme hc hrest hblank hx] at hsteps
    cases rs with
    | nil =>
      rw [List.nil_append, List.cons.injEq] at hsteps
      obtain ⟨rfl, hnext⟩ := hsteps
      have hafter := afterLexeme_of_endsComment hr (hfirst.resolve_right (· rfl))
      rw [hafter] at hbehind hnext
      rw [← hnext, m.flatten_tokens_stepsFrom] at hrest'
      rw [seenFrom_gap_of_comment h hc' htab hcolumn hbehind hne hgap hwidth hrest',
        m.lexFrom_of_lexeme hc hrest hblank hx, hafter, seenFrom, m.lexFrom_eq_filterMap, hnext,
        Cursor.line_take, Cursor.line_startToken]
      rfl
    | cons q rs =>
      rw [List.cons_append, List.cons.injEq] at hsteps
      obtain ⟨rfl, hnext⟩ := hsteps
      have htoken : (c.startToken.take x.length).token = c.rest.take x.length := rfl
      rw [List.map_cons, List.flatten_cons, htoken, List.append_assoc] at hrest'
      have hdrop := m.flatten_tokens_stepsFrom (c.startToken.take x.length)
        (s.afterLexeme x c.startToken.column)
      rw [hnext, List.map_append, List.flatten_append] at hdrop
      have hpos : 0 < x.length := hx ▸ m.length_lexeme_pos (c := c.startToken) s hrest
      have hlt : x.length < c.rest.length := by
        by_contra hall
        exact rest_ne_nil_of_steps hnext (List.drop_eq_nil_of_le (Nat.le_of_not_lt hall))
      have hcode : x.region = .code := by
        subst hx
        exact m.region_lexeme_of_lt hlt
      have hx' : m.lexeme c'.startToken s = x := by
        subst hx
        exact lexeme_take_append (c := c.startToken) h hrest hlt (canFollow_of_gap hne hgap hdrop.symm) hrest'
          rfl rfl
      obtain ⟨hne', hblank', htake, hbehind'⟩ := (startsInk_take hrest hblank hpos).parts
        (List.length_take_of_le (Nat.le_of_lt hlt)) hrest'
      have hstop : columnFrom c'.tabSize c'.startToken.column (c'.rest.take x.length) =
          columnFrom c.tabSize c.startToken.column (c.rest.take x.length) := by
        rw [htab, hcolumn, htake]
      rw [m.seenFrom_of_lexeme hc' hne' hblank' hx', hstop, htake, hcolumn,
        m.lexFrom_of_lexeme hc hrest hblank hx, ih (State.enter_take _ hne' hpos) htab hstop hnext
          (.inl ((State.region_afterLexeme s x _).trans hcode)) hwidth hbehind',
        ← seenOn_lexeme, Cursor.line_take, Cursor.line_startToken]
      rfl

/-! ## Lines -/

theorem leadingBlanks_append_of_ink {front : List Char} (h : ∃ d ∈ front, isBlank d = false)
    (more : List Char) : leadingBlanks (front ++ more) = leadingBlanks front := by
  obtain ⟨d, hd, hink⟩ := h
  have hstops : (front.takeWhile isBlank).length ≠ front.length := by
    intro hall
    rw [← (List.takeWhile_prefix isBlank).eq_of_length hall] at hd
    rw [isBlank_of_mem_leadingBlanks hd] at hink
    cases hink
  rw [leadingBlanks, leadingBlanks, List.takeWhile_append, if_neg hstops]

/-- The parts of the cursor behind a step say what the line with its token blanked out is. -/
theorem blankedOut_of_token? {t : Token} (ht : r.token? = some t) :
    t.blankedOut r.cursor.tabSize r.cursor.line =
      r.cursor.before ++ (List.replicate
        (columnFrom r.cursor.tabSize r.cursor.column r.cursor.token - r.cursor.column) ' ' ++
          r.cursor.rest) := by
  obtain ⟨x, -, rfl⟩ := Option.map_eq_some_iff.1 ht
  have hline : r.cursor.line = r.cursor.before ++ (r.cursor.token ++ r.cursor.rest) := List.append_assoc ..
  have hstart : charsBefore r.cursor.line r.cursor.start = r.cursor.before := by
    rw [hline, r.cursor.start_eq, charsBefore_byteLength]
  have hstop : charsBefore r.cursor.line r.cursor.pos = r.cursor.before ++ r.cursor.token := by
    rw [r.cursor.pos_eq, Cursor.line, charsBefore_byteLength]
  have hrest : r.cursor.line.drop (r.cursor.before ++ r.cursor.token).length = r.cursor.rest := List.drop_left
  rw [Token.blankedOut, r.cursor.columnAt_start, r.cursor.columnAt_pos, hstart, hstop, hrest]
  rfl

theorem onLine_of_token? {line : List Char} {q : Step} (hq : q ∈ m.lineSteps line s) {t : Token}
    (ht : q.token? = some t) : t.OnLine line := by
  have hmem : t ∈ (m.lexLine line s).1 := by
    rw [lexLine, m.lexFrom_eq_filterMap]
    exact List.mem_filterMap.2 ⟨q, hq, ht⟩
  exact (m.tiles_lexLine line s).onLine [] t hmem

/-- Blanks of the same width may stand in place of a comment behind which is code, unless it is the first
token of its line. -/
theorem seenLine_of_gap (h : m.hooks.OnlyDirectives) {line : List Char}
    (hsteps : m.lineSteps line s = rs ++ r :: rs') (hr : r.EndsComment)
    (hfirst : rs.filterMap Step.token? ≠ []) {gap : List Char} (hne : gap ≠ [])
    (hgap : ∀ d ∈ gap, isBlank d = true)
    (hwidth : columnFrom m.tabSize r.cursor.column gap = columnFrom m.tabSize r.cursor.column r.cursor.token) :
    m.seenLine ((rs.map (·.cursor.token)).flatten ++ (gap ++ (rs'.map (·.cursor.token)).flatten)) s =
      (((rs ++ rs').filterMap Step.token?).map (Token.seenOn m.tabSize line), (m.lexLine line s).2) := by
  have hline : line ≠ [] := rest_ne_nil_of_steps hsteps
  -- a token lies before the comment, so the line stays indented as it is
  have hink : ∃ d ∈ (rs.map (·.cursor.token)).flatten, isBlank d = false := by
    obtain ⟨t, ht⟩ := List.exists_mem_of_ne_nil _ hfirst
    obtain ⟨q, hq, hqt⟩ := List.mem_filterMap.1 ht
    have hmem : q ∈ m.lineSteps line s := by
      rw [hsteps]
      exact List.mem_append_left _ hq
    obtain ⟨d, cs, htoken, hd⟩ := (onLine_of_token? hmem hqt).starts
    obtain ⟨x, -, rfl⟩ := Option.map_eq_some_iff.1 hqt
    have hmemToken : d ∈ q.cursor.token := by
      rw [show q.cursor.token = d :: cs from htoken]
      exact List.mem_cons_self ..
    exact ⟨d, List.mem_flatten.2 ⟨_, List.mem_map_of_mem hq, hmemToken⟩, hd⟩
  have hparts : line = (rs.map (·.cursor.token)).flatten ++ ((r :: rs').map (·.cursor.token)).flatten := by
    rw [← List.flatten_append, ← List.map_append, ← hsteps]
    exact (m.flatten_tokens_stepsFrom (m.cursor line) s).symm
  obtain ⟨line', hline'⟩ : ∃ line', line' =
      (rs.map (·.cursor.token)).flatten ++ (gap ++ (rs'.map (·.cursor.token)).flatten) := ⟨_, rfl⟩
  have hindentation : m.indentationOf line' = m.indentationOf line := by
    rw [indentationOf, indentationOf, hline', hparts, leadingBlanks_append_of_ink hink,
      leadingBlanks_append_of_ink hink]
  have hnonempty : line' ≠ [] := by simp [hline', hne]
  have hentered := m.enter_cursor line' s
  rw [m.lineSteps_eq_stepsFrom_cursor s hline] at hsteps
  rw [← hline', m.seenLine_eq_seenFrom s hnonempty, m.lexLine_eq_lexFrom_cursor s hline]
  rw [hindentation] at hentered ⊢
  exact seenFrom_of_gap h (m.enter_cursor line s) hentered rfl rfl hsteps hr (.inr hfirst) hne hgap hwidth
    hline'

end Mode

end ShaderText
