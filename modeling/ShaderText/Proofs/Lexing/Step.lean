/-
How lexing goes on. A step reads the blanks at the cursor if there are any, and else one lexeme; a
line that is not empty is read from behind its leading blanks, in the state that its start leaves;
and lines one after the other are read from the state that the lines above leave.
-/
import ShaderText.Lexing

namespace ShaderText

theorem take_length_takeWhile (p : Char → Bool) (cs : List Char) :
    cs.take (cs.takeWhile p).length = cs.takeWhile p :=
  (List.prefix_iff_eq_take.1 (List.takeWhile_prefix p)).symm

/-! ## The state in which a step reads -/

namespace State

/-- The state in which the step at a cursor reads: at the start of a line, that of the line. -/
def enter (s : State) (c : Cursor) : State :=
  if c.atLineStart then s.atLineStart c.indentation else s

/-- The state behind a lexeme at `column`; comments and directives change only the region. -/
def afterLexeme (s : State) (x : Lexeme) (column : Nat) : State :=
  if x.category.isTransparent then { s with region := x.region }
  else s.afterToken x.region x.signal column

@[simp] theorem region_atLineStart (s : State) (indented : Nat) :
    (s.atLineStart indented).region = s.region := rfl

@[simp] theorem startOfLine_atLineStart (s : State) (indented : Nat) :
    (s.atLineStart indented).startOfLine = true := rfl

theorem atLineStart_atLineStart (s : State) (i j : Nat) :
    (s.atLineStart i).atLineStart j = s.atLineStart j := by
  simp [atLineStart, Nesting.settle_settle]

@[simp] theorem region_enter (s : State) (c : Cursor) : (s.enter c).region = s.region := by
  unfold enter
  split <;> rfl

/-- The flag of the line start is set anew only where it is set. -/
theorem startOfLine_enter {s : State} {c : Cursor} (h : c.atLineStart = true → s.startOfLine = true) :
    (s.enter c).startOfLine = s.startOfLine := by
  unfold enter
  split
  · rw [startOfLine_atLineStart, h ‹_›]
  · rfl

theorem enter_of_atLineStart (s : State) {c : Cursor} (h : c.atLineStart = true) :
    s.enter c = s.atLineStart c.indentation := by
  rw [enter, if_pos h]

theorem enter_of_not_atLineStart (s : State) {c : Cursor} (h : c.atLineStart = false) :
    s.enter c = s := by
  rw [enter, h]
  rfl

@[simp] theorem region_afterLexeme (s : State) (x : Lexeme) (column : Nat) :
    (s.afterLexeme x column).region = x.region := by
  unfold afterLexeme
  split <;> rfl

/-- Behind a significant lexeme nothing stands at the start of its line. -/
theorem startOfLine_afterLexeme (s : State) (x : Lexeme) (column : Nat) :
    (s.afterLexeme x column).startOfLine = (x.category.isTransparent && s.startOfLine) := by
  unfold afterLexeme
  split
  · rename_i h
    rw [h, Bool.true_and]
  · rename_i h
    rw [Bool.not_eq_true] at h
    rw [h, Bool.false_and]
    rfl

end State

/-! ## One step -/

namespace Cursor

/-- Behind a character the cursor is not at the start of its line any more. -/
theorem atLineStart_take {c : Cursor} {n : Nat} (hrest : c.rest ≠ []) (hn : 0 < n) :
    (c.take n).atLineStart = false := by
  have hread : c.rest.take n ≠ [] := by
    rw [Ne, List.take_eq_nil_iff]
    rintro (h | h)
    · omega
    · exact hrest h
  simp [atLineStart, hread]

/-- The parts of the line say where the cursor is. -/
theorem eq_of_parts {c c' : Cursor} (hbehind : c.behind = c'.behind) (htoken : c.token = c'.token)
    (hrest : c.rest = c'.rest) (htab : c.tabSize = c'.tabSize) : c = c' := by
  obtain ⟨behind, token, rest, tabSize, start, column, hstart, hcolumn⟩ := c
  obtain ⟨behind', token', rest', tabSize', start', column', hstart', hcolumn'⟩ := c'
  dsimp only at hbehind htoken hrest htab
  subst hbehind htoken hrest htab hstart hcolumn hstart' hcolumn'
  rfl

/-- A token may be started anywhere in between without a change to where the next one starts. -/
theorem startToken_take_add (c : Cursor) (a b : Nat) :
    (c.take (a + b)).startToken = ((c.take a).startToken.take b).startToken := by
  refine eq_of_parts ?_ rfl ?_ rfl
  · simp [startToken, take, List.take_add]
  · simp [startToken, take]

end Cursor

/-- Behind a token no line starts. -/
theorem State.enter_take (s : State) {c : Cursor} {n : Nat} (hrest : c.rest ≠ []) (hn : 0 < n) :
    s.enter (c.startToken.take n) = s :=
  s.enter_of_not_atLineStart (Cursor.atLineStart_take (c := c.startToken) hrest hn)

namespace Mode

theorem step_of_blank (m : Mode) {c : Cursor} (s : State) (h : leadingBlanks c.rest ≠ []) :
    m.step c s = ⟨none, c.startToken.take (leadingBlanks c.rest).length, s.enter c⟩ := by
  have hlen : 0 < (leadingBlanks c.rest).length := List.length_pos_iff.2 h
  rw [leadingBlanks] at hlen ⊢
  simp [step, Cursor.eatBlanks, Cursor.eatWhile, State.enter, hlen]

theorem step_of_not_blank (m : Mode) {c : Cursor} (s : State) (h : leadingBlanks c.rest = []) :
    m.step c s =
      ⟨some (m.lexeme c.startToken (s.enter c)),
        c.startToken.take (m.lexeme c.startToken (s.enter c)).length,
        (s.enter c).afterLexeme (m.lexeme c.startToken (s.enter c)) c.startToken.column⟩ := by
  rw [leadingBlanks] at h
  simp only [step, Cursor.eatBlanks, Cursor.eatWhile, Cursor.rest_startToken, h, List.length_nil,
    Nat.lt_irrefl, decide_false, Bool.false_eq_true, if_false]
  rfl

/-- A step at the start of a line forgets which line came before. -/
theorem step_atLineStart (m : Mode) {c : Cursor} (s : State) (h : c.atLineStart = true) (i : Nat) :
    m.step c (s.atLineStart i) = m.step c s := by
  simp only [step, if_pos h, State.atLineStart_atLineStart]

theorem atLineStart_step (m : Mode) {c : Cursor} (s : State) (h : c.rest ≠ []) :
    (m.step c s).cursor.atLineStart = false := by
  by_cases hblank : leadingBlanks c.rest = []
  · rw [m.step_of_not_blank s hblank]
    exact Cursor.atLineStart_take h (m.length_lexeme_pos (c := c.startToken) _ h)
  · rw [m.step_of_blank s hblank]
    exact Cursor.atLineStart_take h (List.length_pos_iff.2 hblank)

/-! ## To the end of the line -/

theorem lexFrom_of_end (m : Mode) {c : Cursor} (s : State) (h : c.rest = []) :
    m.lexFrom c s = ([], s) := by
  rw [lexFrom, dif_pos h]

theorem lexFrom_of_rest (m : Mode) {c : Cursor} (s : State) (h : c.rest ≠ []) :
    m.lexFrom c s =
      ((m.step c s).token?.toList ++ (m.lexFrom (m.step c s).cursor (m.step c s).state).1,
        (m.lexFrom (m.step c s).cursor (m.step c s).state).2) := by
  rw [lexFrom, dif_neg h]

theorem lexFrom_atLineStart (m : Mode) {c : Cursor} (s : State) (hc : c.atLineStart = true)
    (hrest : c.rest ≠ []) (i : Nat) : m.lexFrom c (s.atLineStart i) = m.lexFrom c s := by
  rw [m.lexFrom_of_rest _ hrest, m.lexFrom_of_rest s hrest, m.step_atLineStart s hc]

/-! ### Behind the start of the line -/

theorem lexFrom_of_blank (m : Mode) {c : Cursor} {s : State} (hs : s.enter c = s)
    (h : leadingBlanks c.rest ≠ []) :
    m.lexFrom c s = m.lexFrom (c.startToken.take (leadingBlanks c.rest).length) s := by
  have hrest : c.rest ≠ [] := by
    intro hnil
    exact h (by rw [hnil]; rfl)
  rw [m.lexFrom_of_rest s hrest, m.step_of_blank s h, hs]
  rfl

theorem lexFrom_of_lexeme (m : Mode) {c : Cursor} {s : State} {x : Lexeme} (hs : s.enter c = s)
    (hrest : c.rest ≠ []) (h : leadingBlanks c.rest = []) (hx : m.lexeme c.startToken s = x) :
    m.lexFrom c s =
      (⟨x.category, c.rest.take x.length, c.pos, c.pos + byteLength (c.rest.take x.length)⟩ ::
          (m.lexFrom (c.startToken.take x.length) (s.afterLexeme x c.startToken.column)).1,
        (m.lexFrom (c.startToken.take x.length) (s.afterLexeme x c.startToken.column)).2) := by
  rw [m.lexFrom_of_rest s hrest, m.step_of_not_blank s h, hs, hx]
  rfl

/-! ### Skipping blanks -/

/-- Where the next token starts, and whether that is in the line's first column, is all that a step sees of
what was read before. -/
theorem step_congr (m : Mode) {c c' : Cursor} (s : State) (h : c.startToken = c'.startToken)
    (hstart : c.atLineStart = c'.atLineStart) : m.step c s = m.step c' s := by
  have hindentation : c.indentation = c'.indentation := by
    have hline := congrArg Cursor.line h
    have htab := congrArg Cursor.tabSize h
    simp only [Cursor.line_startToken, Cursor.tabSize_startToken] at hline htab
    rw [Cursor.indentation, Cursor.indentation, hline, htab]
  simp only [step, h, hstart, hindentation]

theorem lexFrom_congr (m : Mode) {c c' : Cursor} (s : State) (h : c.startToken = c'.startToken)
    (hstart : c.atLineStart = c'.atLineStart) : m.lexFrom c s = m.lexFrom c' s := by
  have hrest : c.rest = c'.rest := by
    rw [← c.rest_startToken, h, c'.rest_startToken]
  by_cases hend : c.rest = []
  · rw [m.lexFrom_of_end s hend, m.lexFrom_of_end s (hrest ▸ hend)]
  · rw [m.lexFrom_of_rest s hend, m.lexFrom_of_rest s (hrest ▸ hend), m.step_congr s h hstart]

/-- Blanks may be read in parts. -/
theorem lexFrom_of_blanks (m : Mode) {c : Cursor} (s : State) {gap more : List Char} (hgap : gap ≠ [])
    (hblank : ∀ d ∈ gap, isBlank d = true) (hrest : c.rest = gap ++ more) :
    m.lexFrom c s = m.lexFrom (c.startToken.take gap.length) (s.enter c) := by
  have hlength : 0 < gap.length := List.length_pos_iff.2 hgap
  have hne : c.rest ≠ [] := by simp [hrest, hgap]
  have hmoved : (c.startToken.take gap.length).atLineStart = false := Cursor.atLineStart_take hne hlength
  have hleading : leadingBlanks c.rest = gap ++ leadingBlanks more := by
    rw [hrest]
    exact List.takeWhile_append_of_pos hblank
  have hmore : (c.startToken.take gap.length).rest = more := by simp [hrest]
  rw [m.lexFrom_of_rest s hne, m.step_of_blank s (by simp [hleading, hgap]), hleading]
  by_cases hnone : leadingBlanks more = []
  · simp [hnone, Step.token?]
  · have hrest' : (c.startToken.take gap.length).rest ≠ [] := by
      rw [hmore]
      rintro rfl
      exact hnone rfl
    rw [m.lexFrom_of_rest _ hrest', m.step_of_blank _ (by rw [hmore]; exact hnone),
      State.enter_of_not_atLineStart _ hmoved, hmore]
    -- both cursors stand behind the blanks, and the next token starts there
    have hmoved' : (c.startToken.take (gap ++ leadingBlanks more).length).atLineStart = false :=
      Cursor.atLineStart_take hne (by simp only [List.length_append]; omega)
    have hmoved'' : ((c.startToken.take gap.length).startToken.take
        (leadingBlanks more).length).atLineStart = false :=
      Cursor.atLineStart_take hrest' (List.length_pos_iff.2 hnone)
    have hstart := c.startToken.startToken_take_add gap.length (leadingBlanks more).length
    rw [List.length_append] at hmoved' ⊢
    rw [m.lexFrom_congr (s.enter c) hstart (hmoved'.trans hmoved''.symm)]
    rfl

/-! ### From the start of a line -/

/-- The cursor behind the leading blanks of a line. -/
def contentCursor (m : Mode) (line : List Char) : Cursor :=
  (m.cursor line).take (leadingBlanks line).length

theorem contentCursor_of_no_blanks (m : Mode) {line : List Char} (h : leadingBlanks line = []) :
    m.contentCursor line = m.cursor line := by
  rw [contentCursor, h]
  simp [Cursor.take, cursor, Cursor.ofLine]

theorem rest_contentCursor (m : Mode) (line : List Char) :
    (m.contentCursor line).rest = trimLeading line := by
  have h : (leadingBlanks line ++ trimLeading line).drop (leadingBlanks line).length =
      trimLeading line := List.drop_left
  rwa [leadingBlanks_append_trimLeading] at h

theorem token_contentCursor (m : Mode) (line : List Char) :
    (m.contentCursor line).token = leadingBlanks line :=
  take_length_takeWhile isBlank line

theorem line_contentCursor (m : Mode) (line : List Char) : (m.contentCursor line).line = line :=
  Cursor.line_take _ _

/-- The indentation of a line. -/
def indentationOf (m : Mode) (line : List Char) : Nat :=
  columnWidth m.tabSize (leadingBlanks line)

/-- The start of a line is read once: read again, it changes nothing any more. -/
theorem enter_cursor (m : Mode) (line : List Char) (s : State) :
    (s.atLineStart (m.indentationOf line)).enter (m.cursor line) =
      s.atLineStart (m.indentationOf line) := by
  rw [State.enter_of_atLineStart _ rfl, State.atLineStart_atLineStart]
  rfl

theorem enter_contentCursor (m : Mode) (line : List Char) (s : State) :
    (s.atLineStart (m.indentationOf line)).enter (m.contentCursor line) =
      s.atLineStart (m.indentationOf line) := by
  have hindentation : (m.contentCursor line).indentation = m.indentationOf line := by
    rw [Cursor.indentation, line_contentCursor]
    rfl
  unfold State.enter
  split
  · rw [State.atLineStart_atLineStart, hindentation]
  · rfl

/-- A line that is not empty is read from the state that its start leaves. -/
theorem lexLine_eq_lexFrom_cursor (m : Mode) {line : List Char} (s : State) (h : line ≠ []) :
    m.lexLine line s = m.lexFrom (m.cursor line) (s.atLineStart (m.indentationOf line)) :=
  (m.lexFrom_atLineStart s rfl h _).symm

/-- Behind a step, the next one reads in the state that the step left. -/
theorem enter_step (m : Mode) {c : Cursor} (s : State) (h : c.rest ≠ []) :
    (m.step c s).state.enter (m.step c s).cursor = (m.step c s).state :=
  State.enter_of_not_atLineStart _ (m.atLineStart_step s h)

/-- A line is read from behind its leading blanks, in the state that the start of the line leaves. -/
theorem lexLine_eq_lexFrom (m : Mode) {line : List Char} (s : State) (h : line ≠ []) :
    m.lexLine line s =
      m.lexFrom (m.contentCursor line) (s.atLineStart (m.indentationOf line)) := by
  have hstart : (m.cursor line).atLineStart = true := rfl
  by_cases hblank : leadingBlanks line = []
  · rw [m.contentCursor_of_no_blanks hblank, m.lexFrom_atLineStart s hstart h]
    rfl
  · rw [lexLine, m.lexFrom_of_rest s h, m.step_of_blank (c := m.cursor line) s hblank,
      s.enter_of_atLineStart hstart]
    rfl

/-! ## Line after line -/

@[simp] theorem stateAfter_nil (m : Mode) (s : State) : m.stateAfter [] s = s := rfl

@[simp] theorem stateAfter_cons (m : Mode) (line : List Char) (lines : List (List Char)) (s : State) :
    m.stateAfter (line :: lines) s = m.stateAfter lines (m.lexLine line s).2 := rfl

theorem stateAfter_append (m : Mode) (xs ys : List (List Char)) (s : State) :
    m.stateAfter (xs ++ ys) s = m.stateAfter ys (m.stateAfter xs s) := by
  rw [stateAfter, lexLines_append]

end Mode

end ShaderText
