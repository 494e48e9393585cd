/-
Lines that show nothing. A line is invisible if it has no tokens but comments and directives and ends in
the region in which it starts: a blank line, a directive, a closed comment, a line amid a block comment.
All that it does is to start, and every line that is not empty starts anew. So without an invisible line
the other lines have the same tokens, are indented alike, and leave the same states.
-/
import ShaderText.Proofs.Lexing.Trace
import ShaderText.Proofs.Nesting.Statements

namespace ShaderText

/-! ## States that differ by the start of a line -/

/-- The second state is the first, or the first behind the start of a line. -/
def State.MayStart (s s' : State) : Prop := s' = s ∨ ∃ indented, s' = s.atLineStart indented

namespace State.MayStart

variable {s s' : State}

theorem region_eq (h : s.MayStart s') : s'.region = s.region := by
  rcases h with rfl | ⟨indented, rfl⟩
  · rfl
  · rfl

theorem trans {s'' : State} (h : s.MayStart s') (h' : s'.MayStart s'') : s.MayStart s'' := by
  rcases h with rfl | ⟨i, rfl⟩
  · exact h'
  · rcases h' with rfl | ⟨j, rfl⟩
    · exact .inr ⟨i, rfl⟩
    · exact .inr ⟨j, s.atLineStart_atLineStart i j⟩

/-- The start of a line decides at most the alignment of the innermost level. -/
theorem nesting_eq (h : s.MayStart s') :
    s'.nesting = s.nesting ∨ s'.nesting = s.nesting.settle false := by
  rcases h with rfl | ⟨indented, rfl⟩
  · exact .inl rfl
  · exact .inr rfl

/-- The next line is indented alike: an unknown alignment counts like a decided one that is false. -/
theorem indent_eq (h : s.MayStart s') (m : Mode) (text : List Char) :
    m.indent s' text = m.indent s text := by
  have hindentation : ∀ first, s'.nesting.indentation first m.indentUnit =
      s.nesting.indentation first m.indentUnit := by
    intro first
    unfold Nesting.indentation
    rcases h.nesting_eq with heq | heq
    · rw [heq]
    · rw [heq, Nesting.proposal_settle_false]
  rw [Mode.indent, Mode.indent, inLiteral, inLiteral, h.region_eq, hindentation]

/-- A line that is not empty is read alike. -/
theorem lexLine_eq (h : s.MayStart s') (m : Mode) {line : List Char} (hline : line ≠ []) :
    m.lexLine line s' = m.lexLine line s := by
  rcases h with rfl | ⟨indented, rfl⟩
  · rfl
  · exact m.lexFrom_atLineStart s rfl hline indented

/-- A line is read alike, and the states behind it differ by no more than the start of a line. -/
theorem lexLine (h : s.MayStart s') (m : Mode) (line : List Char) :
    (m.lexLine line s').1 = (m.lexLine line s).1 ∧
      (m.lexLine line s).2.MayStart (m.lexLine line s').2 := by
  by_cases hline : line = []
  · rw [hline, m.lexLine_nil, m.lexLine_nil]
    exact ⟨rfl, h⟩
  · rw [h.lexLine_eq m hline]
    exact ⟨rfl, .inl rfl⟩

/-- Lines are read alike one after the other. -/
theorem lexLines (h : s.MayStart s') (m : Mode) (lines : List (List Char)) :
    (m.lexLines lines s').1 = (m.lexLines lines s).1 ∧
      (m.stateAfter lines s).MayStart (m.stateAfter lines s') := by
  induction lines generalizing s s' with
  | nil => exact ⟨rfl, h⟩
  | cons line lines ih =>
    obtain ⟨htokens, hnext⟩ := h.lexLine m line
    obtain ⟨hrows, hfinal⟩ := ih hnext
    refine ⟨?_, hfinal⟩
    simp only [Mode.lexLines, htokens, hrows]

/-- Behind a line that is not empty nothing of the difference is left. -/
theorem stateAfter_concat_eq (h : s.MayStart s') (m : Mode) (lines : List (List Char))
    {line : List Char} (hline : line ≠ []) :
    m.stateAfter (lines ++ [line]) s' = m.stateAfter (lines ++ [line]) s := by
  obtain ⟨-, hlast⟩ := h.lexLines m lines
  rw [m.stateAfter_append, m.stateAfter_append, Mode.stateAfter_cons, Mode.stateAfter_cons,
    hlast.lexLine_eq m hline]

end State.MayStart

namespace Mode

/-! ## Invisible lines -/

/-- Read from the state, the line has no tokens but comments and directives, and it ends in the region
in which it starts. -/
structure Invisible (m : Mode) (line : List Char) (s : State) : Prop where
  transparent : ∀ t ∈ (m.lexLine line s).1, t.category.isTransparent = true
  region : (m.lexLine line s).2.region = s.region

/-- Up to the end of a line, comments and directives change nothing but the region. -/
theorem lexFrom_of_transparent (m : Mode) (c : Cursor) (s : State) (hs : s.enter c = s)
    (h : ∀ t ∈ (m.lexFrom c s).1, t.category.isTransparent = true) :
    (m.lexFrom c s).2 = { s with region := (m.lexFrom c s).2.region } := by
  induction c, s, hs using m.entered_induction with
  | atEnd c s hs hrest => rw [m.lexFrom_of_end s hrest]
  | blanks c s hs _ hblank ih =>
    rw [m.lexFrom_of_blank hs hblank] at h ⊢
    exact ih h
  | lexeme c s x hs _ hrest hblank hx ih =>
    rw [m.lexFrom_of_lexeme hs hrest hblank hx, List.forall_mem_cons] at h
    obtain ⟨hfirst, hnext⟩ := h
    rw [m.lexFrom_of_lexeme hs hrest hblank hx, ih hnext]
    simp only [State.afterLexeme, if_pos hfirst]

/-- An invisible line does no more than start. -/
theorem Invisible.mayStart {m : Mode} {line : List Char} {s : State} (h : m.Invisible line s) :
    s.MayStart (m.lexLine line s).2 := by
  by_cases hline : line = []
  · rw [hline, lexLine_nil]
    exact .inl rfl
  · obtain ⟨htransparent, hregion⟩ := h
    rw [m.lexLine_eq_lexFrom_cursor s hline] at htransparent hregion ⊢
    refine .inr ⟨m.indentationOf line, ?_⟩
    rw [m.lexFrom_of_transparent _ _ (m.enter_cursor line s) htransparent, hregion]
    rfl

/-- Without an invisible line the other lines have the same tokens. -/
theorem lexLines_of_invisible (m : Mode) (above below : List (List Char)) {line : List Char} {s : State}
    (h : m.Invisible line (m.stateAfter above s)) :
    (m.lexLines (above ++ line :: below) s).1 =
      (m.lexLines above s).1 ++ (m.lexLine line (m.stateAfter above s)).1 ::
        (m.lexLines below (m.stateAfter above s)).1 := by
  obtain ⟨hrows, -⟩ := h.mayStart.lexLines m below
  rw [m.lexLines_append, Mode.lexLines]
  simp only [hrows]

/-- Without an invisible line the state behind the lines below it differs by no more than the start of a
line. -/
theorem mayStart_stateAfter_of_invisible (m : Mode) (above below : List (List Char)) {line : List Char}
    {s : State} (h : m.Invisible line (m.stateAfter above s)) :
    (m.stateAfter (above ++ below) s).MayStart (m.stateAfter (above ++ line :: below) s) := by
  obtain ⟨-, hfinal⟩ := h.mayStart.lexLines m below
  rw [m.stateAfter_append, m.stateAfter_append]
  exact hfinal

/-- Without an invisible line the state behind a line below it that is not empty is the same. -/
theorem stateAfter_concat_of_invisible (m : Mode) (above below : List (List Char)) {line next : List Char}
    {s : State} (h : m.Invisible line (m.stateAfter above s)) (hnext : next ≠ []) :
    m.stateAfter (above ++ (below ++ [next])) s = m.stateAfter (above ++ line :: (below ++ [next])) s := by
  rw [m.stateAfter_append above, m.stateAfter_append above, stateAfter_cons]
  exact (h.mayStart.stateAfter_concat_eq m below hnext).symm

/-- Deleting an invisible line leaves the tokens of all other lines, the state behind every line below it
that is not empty, and the indentation of every line below it. At the end the states agree but for the
line's indentation, its start, and an alignment of the innermost level that is decided. -/
theorem lexLines_eraseIdx (m : Mode) (s : State) {lines : List (List Char)} {i : Nat}
    (hi : i < lines.length) (h : m.Invisible lines[i] (m.stateAfter (lines.take i) s)) :
    (m.lexLines (lines.eraseIdx i) s).1 = (m.lexLines lines s).1.eraseIdx i ∧
    (∀ (j : Nat) (hj : j < lines.length), i < j → lines[j] ≠ [] →
      m.stateAfter ((lines.eraseIdx i).take j) s = m.stateAfter (lines.take (j + 1)) s) ∧
    (∀ (j : Nat) (text : List Char), i < j →
      m.indent (m.stateAfter ((lines.eraseIdx i).take (j - 1)) s) text =
        m.indent (m.stateAfter (lines.take j) s) text) ∧
    (m.stateAfter lines s).region = (m.stateAfter (lines.eraseIdx i) s).region ∧
    ((m.stateAfter lines s).nesting = (m.stateAfter (lines.eraseIdx i) s).nesting ∨
      (m.stateAfter lines s).nesting = (m.stateAfter (lines.eraseIdx i) s).nesting.settle false) := by
  obtain ⟨above, line, below, rfl, rfl⟩ : ∃ above line below, lines = above ++ line :: below ∧
      above.length = i :=
    ⟨lines.take i, lines[i], lines.drop (i + 1),
      by rw [← List.drop_eq_getElem_cons hi, List.take_append_drop],
      List.length_take_of_le (Nat.le_of_lt hi)⟩
  have herased : (above ++ line :: below).eraseIdx above.length = above ++ below := by
    rw [List.eraseIdx_append_of_length_le (Nat.le_refl _), Nat.sub_self, List.eraseIdx_cons_zero]
  have htake (k : Nat) : (above ++ line :: below).take (above.length + 1 + k) =
      above ++ line :: below.take k := by
    rw [Nat.add_assoc, List.take_length_add_append, Nat.add_comm 1 k, List.take_succ_cons]
  rw [List.getElem_append_right (Nat.le_refl _), List.take_left] at h
  simp only [Nat.sub_self, List.getElem_cons_zero] at h
  rw [herased]
  refine ⟨?_, ?_, ?_, ?_⟩
  · have hlength := m.length_lexLines above s
    rw [m.lexLines_of_invisible above below h, m.lexLines_append,
      List.eraseIdx_append_of_length_le hlength.le, hlength, Nat.sub_self, List.eraseIdx_cons_zero]
  · intro j hj hij hline
    obtain ⟨k, rfl⟩ := Nat.exists_eq_add_of_le (Nat.succ_le_of_lt hij)
    -- the line at index `j` is the one at index `k` below the invisible line
    have hk : k < below.length := by
      simp only [List.length_append, List.length_cons] at hj
      omega
    have hget : (above ++ line :: below)[above.length.succ + k] = below[k] := by
      rw [List.getElem_append_right (by omega)]
      simp [show above.length.succ + k - above.length = k + 1 by omega]
    rw [hget] at hline
    rw [show above.length.succ + k = above.length + (k + 1) by omega, List.take_length_add_append,
      show above.length + (k + 1) + 1 = above.length + 1 + (k + 1) by omega, htake (k + 1),
      ← List.take_append_getElem hk]
    exact m.stateAfter_concat_of_invisible above _ h hline
  · intro j text hij
    obtain ⟨k, rfl⟩ := Nat.exists_eq_add_of_le (Nat.succ_le_of_lt hij)
    rw [show above.length.succ + k - 1 = above.length + k by omega, List.take_length_add_append,
      htake k]
    exact ((m.mayStart_stateAfter_of_invisible above (below.take k) h).indent_eq m text).symm
  · have hend := m.mayStart_stateAfter_of_invisible above below h
    exact ⟨hend.region_eq, hend.nesting_eq⟩

/-- Below an open parenthesis a directive decides that nothing follows the parenthesis, which the next line
decides just as well. -/
theorem lexLines_eraseIdx_directive :
    let m : Mode := { bare with hooks := .shader }
    let lines := [['('], ['#', 'x'], ['y']]
    m.Invisible ['#', 'x'] (m.stateAfter [['(']] (m.start 0)) ∧
      (m.stateAfter [['('], ['#', 'x']] (m.start 0)).nesting ≠ (m.stateAfter [['(']] (m.start 0)).nesting ∧
      (m.lexLines [['('], ['y']] (m.start 0)).1 = (m.lexLines lines (m.start 0)).1.eraseIdx 1 ∧
      m.stateAfter [['('], ['y']] (m.start 0) = m.stateAfter lines (m.start 0) := by
  intro m lines
  have hinvisible : m.Invisible ['#', 'x'] (m.stateAfter [['(']] (m.start 0)) :=
    ⟨by decide +kernel, by decide +kernel⟩
  have hlength : 1 < lines.length := by decide
  obtain ⟨htokens, hstates, -⟩ := m.lexLines_eraseIdx (m.start 0) hlength hinvisible
  exact ⟨hinvisible, by decide +kernel, htokens, hstates 2 (by decide) (by decide) (by decide)⟩

end Mode

end ShaderText
