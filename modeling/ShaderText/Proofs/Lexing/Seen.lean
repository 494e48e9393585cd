/-
What is seen of the tokens on a line: what each of them is, its text, and the columns at which it starts
and stops. Only the columns tell where it is, not the bytes before it: from two cursors at the same
column, with the same text in front of them and in the same state, the same is seen.
-/
import ShaderText.Proofs.Lexing.Alike
import ShaderText.Proofs.Lexing.Trace

namespace ShaderText

/-! ## Tokens at their columns -/

/-- What is seen of a token on its line. -/
structure Seen where
  category : Category
  text : List Char
  column : Nat
  /-- The column behind the token. -/
  stop : Nat
  deriving DecidableEq, Repr

/-- A token as it is seen on `line`. -/
def Token.seenOn (tabSize : Nat) (line : List Char) (t : Token) : Seen :=
  ⟨t.category, t.text, columnAt tabSize line t.start, columnAt tabSize line t.stop⟩

namespace Cursor

/-- The column behind a token counts on from the column of its start. -/
theorem column_take (c : Cursor) (n : Nat) :
    (c.startToken.take n).startToken.column =
      columnFrom c.tabSize c.startToken.column (c.rest.take n) := rfl

end Cursor

namespace Mode

variable {m : Mode} {c c' : Cursor} {s : State}

/-! ## Lines as they are seen -/

/-- What is seen from the cursor to the end of its line, and the state there. -/
def seenFrom (m : Mode) (c : Cursor) (s : State) : List Seen × State :=
  ((m.lexFrom c s).1.map (Token.seenOn c.tabSize c.line), (m.lexFrom c s).2)

/-- What is seen of a line, and the state behind it. -/
def seenLine (m : Mode) (line : List Char) (s : State) : List Seen × State :=
  ((m.lexLine line s).1.map (Token.seenOn m.tabSize line), (m.lexLine line s).2)

/-- What is seen of each of some lines, and the state behind the last. -/
def seenLines (m : Mode) (lines : List (List Char)) (s : State) : List (List Seen) × State :=
  (List.zipWith (fun line row => row.map (Token.seenOn m.tabSize line)) lines (m.lexLines lines s).1,
    m.stateAfter lines s)

theorem seenLines_cons (m : Mode) (line : List Char) (lines : List (List Char)) (s : State) :
    m.seenLines (line :: lines) s =
      ((m.seenLine line s).1 :: (m.seenLines lines (m.seenLine line s).2).1,
        (m.seenLines lines (m.seenLine line s).2).2) := rfl

theorem seenFrom_of_end (m : Mode) (s : State) (h : c.rest = []) : m.seenFrom c s = ([], s) := by
  rw [seenFrom, m.lexFrom_of_end s h]
  rfl

theorem seenFrom_of_blanks (m : Mode) (s : State) {gap more : List Char} (hgap : gap ≠ [])
    (hblank : ∀ d ∈ gap, isBlank d = true) (hrest : c.rest = gap ++ more) :
    m.seenFrom c s = m.seenFrom (c.startToken.take gap.length) (s.enter c) := by
  rw [seenFrom, seenFrom, m.lexFrom_of_blanks s hgap hblank hrest, Cursor.line_take, Cursor.line_startToken,
    Cursor.tabSize_take, Cursor.tabSize_startToken]

/-- A lexeme is seen at the column of the cursor. -/
theorem seenOn_lexeme (c : Cursor) (x : Lexeme) :
    Token.seenOn c.tabSize c.line
        ⟨x.category, c.rest.take x.length, c.pos, c.pos + byteLength (c.rest.take x.length)⟩ =
      ⟨x.category, c.rest.take x.length, c.startToken.column,
        columnFrom c.tabSize c.startToken.column (c.rest.take x.length)⟩ := by
  have hstop := (c.startToken.take x.length).columnAt_pos
  rw [Cursor.column_take, Cursor.line_take, Cursor.line_startToken] at hstop
  rw [Token.seenOn, c.columnAt_pos]
  exact congrArg _ hstop

theorem seenFrom_of_lexeme (m : Mode) {x : Lexeme} (hs : s.enter c = s) (hrest : c.rest ≠ [])
    (h : leadingBlanks c.rest = []) (hx : m.lexeme c.startToken s = x) :
    m.seenFrom c s =
      (⟨x.category, c.rest.take x.length, c.startToken.column,
          columnFrom c.tabSize c.startToken.column (c.rest.take x.length)⟩ ::
          (m.seenFrom (c.startToken.take x.length) (s.afterLexeme x c.startToken.column)).1,
        (m.seenFrom (c.startToken.take x.length) (s.afterLexeme x c.startToken.column)).2) := by
  simp only [seenFrom, m.lexFrom_of_lexeme hs hrest h hx, List.map_cons, seenOn_lexeme, Cursor.line_take,
    Cursor.line_startToken, Cursor.tabSize_take, Cursor.tabSize_startToken]

theorem seenLine_eq_seenFrom (m : Mode) {line : List Char} (s : State) (h : line ≠ []) :
    m.seenLine line s = m.seenFrom (m.cursor line) (s.atLineStart (m.indentationOf line)) := by
  rw [seenLine, m.lexLine_eq_lexFrom_cursor s h]
  rfl

/-- Two cursors at the same column, with the same text in front of them. -/
structure Level (c c' : Cursor) : Prop where
  rest : c.rest = c'.rest
  column : c.startToken.column = c'.startToken.column
  tabSize : c.tabSize = c'.tabSize

theorem Level.take (h : Level c c') (n : Nat) : Level (c.startToken.take n) (c'.startToken.take n) := by
  obtain ⟨hrest, hcolumn, htab⟩ := h
  refine ⟨?_, ?_, htab⟩
  · rw [Cursor.rest_take, Cursor.rest_take, Cursor.rest_startToken, Cursor.rest_startToken, hrest]
  · rw [Cursor.column_take, Cursor.column_take, htab, hcolumn, hrest]

/-- At the same column, the same text is seen alike in the same state. -/
theorem Level.seenFrom_eq (h : m.hooks.OnlyDirectives) (hl : Level c c') (hc : s.enter c = s)
    (hc' : s.enter c' = s) : m.seenFrom c s = m.seenFrom c' s := by
  induction c, s, hc using m.entered_induction generalizing c' with
  | atEnd c s _ hend => rw [m.seenFrom_of_end s hend, m.seenFrom_of_end s (hl.rest ▸ hend)]
  | blanks c s hc _ hblank ih =>
    have hblanks : ∀ d ∈ leadingBlanks c.rest, isBlank d = true := fun _ => isBlank_of_mem_leadingBlanks
    have hsplit : c.rest = leadingBlanks c.rest ++ trimLeading c.rest :=
      (leadingBlanks_append_trimLeading c.rest).symm
    have hrest' : c'.rest ≠ [] := by
      rw [← hl.rest, hsplit]
      simp [hblank]
    rw [m.seenFrom_of_blanks s hblank hblanks hsplit,
      m.seenFrom_of_blanks s hblank hblanks (hl.rest.symm.trans hsplit), hc, hc']
    exact ih (hl.take _) (s.enter_take hrest' (List.length_pos_iff.2 hblank))
  | lexeme c s x hc _ hrest hblank hx ih =>
    have hrest' : c'.rest ≠ [] := hl.rest ▸ hrest
    have hpos : 0 < x.length := hx ▸ m.length_lexeme_pos (c := c.startToken) s hrest
    have hx' : m.lexeme c'.startToken s = x := by
      rw [← hx]
      exact lexeme_congr h hl.rest.symm rfl rfl
    rw [m.seenFrom_of_lexeme hc hrest hblank hx, m.seenFrom_of_lexeme hc' hrest' (hl.rest ▸ hblank) hx']
    rw [hl.column] at ih ⊢
    rw [hl.rest, hl.tabSize, ih (hl.take _) (State.enter_take _ hrest' hpos)]

end Mode

end ShaderText
