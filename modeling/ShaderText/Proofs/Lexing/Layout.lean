/-
What reading text does to the layout. Of each step, the nesting and the line's indentation see at most
the start of a line and a significant token, so over any stretch of text they are what the line starts
and the significant tokens in it make of them.
-/
import ShaderText.Proofs.Lexing.Trace
import ShaderText.Proofs.Nesting.Layout

namespace ShaderText

namespace Mode

/-! ## One step -/

/-- The signal of the significant token that a step read, if it read one. -/
def Step.signal? (r : Step) : Option (Option Signal) :=
  r.lexeme?.bind fun x => if x.category.isTransparent then none else some x.signal

/-- The signals of the significant tokens that some steps read. -/
def signalsRead (rs : List Step) : List (Option Signal) := rs.filterMap Step.signal?

/-- What the nesting sees of a step. -/
def Step.events (r : Step) : List Event :=
  (if r.cursor.behind.isEmpty then [.line r.cursor.indentation] else []) ++
    (r.signal?.map fun signal => .token signal r.cursor.column).toList

theorem signalsOf_events (r : Step) : signalsOf r.events = r.signal?.toList := by
  unfold Step.events signalsOf
  split <;> cases r.signal? <;> rfl

theorem signalsRead_cons (r : Step) (rs : List Step) :
    signalsRead (r :: rs) = r.signal?.toList ++ signalsRead rs := by
  rw [signalsRead, List.filterMap_cons]
  cases r.signal? <;> rfl

theorem signalsOf_flatMap_events (rs : List Step) :
    signalsOf (rs.flatMap Step.events) = signalsRead rs := by
  induction rs with
  | nil => rfl
  | cons r rs ih => rw [List.flatMap_cons, signalsOf_append, ih, signalsOf_events, signalsRead_cons]

theorem layout_enter (s : State) (c : Cursor) :
    (s.enter c).layout = s.layout.afterAll (if c.atLineStart then [.line c.indentation] else []) := by
  unfold State.enter
  split <;> rfl

theorem layout_afterLexeme (s : State) (x : Lexeme) (column : Nat) :
    (s.afterLexeme x column).layout =
      s.layout.afterAll (if x.category.isTransparent then [] else [.token x.signal column]) := by
  unfold State.afterLexeme
  split <;> rfl

/-- A step says whether it read the start of its line, and how far that is indented. -/
theorem lineStart_step (m : Mode) (c : Cursor) (s : State) :
    (m.step c s).cursor.behind.isEmpty = c.atLineStart ∧
      (m.step c s).cursor.indentation = c.indentation ∧
      (m.step c s).cursor.column = c.startToken.column := by
  obtain ⟨n, hcursor, -⟩ := m.cursor_step c s
  rw [hcursor]
  refine ⟨?_, by simp [Cursor.indentation], rfl⟩
  rw [Bool.eq_iff_iff]
  simp [Cursor.take, Cursor.startToken, Cursor.atLineStart, and_comm]

theorem events_step (m : Mode) (c : Cursor) (s : State) :
    (m.step c s).events = (if c.atLineStart then [.line c.indentation] else []) ++
      ((m.step c s).signal?.map fun signal => .token signal c.startToken.column).toList := by
  obtain ⟨hstart, hindentation, hcolumn⟩ := m.lineStart_step c s
  rw [Step.events, hstart, hindentation, hcolumn]

/-- The layout behind a step is what its events make of the layout before it. -/
theorem layout_step (m : Mode) (c : Cursor) (s : State) :
    (m.step c s).state.layout = s.layout.afterAll (m.step c s).events := by
  rw [events_step, Layout.afterAll_append, ← layout_enter]
  by_cases hblank : leadingBlanks c.rest = []
  · rw [m.step_of_not_blank s hblank, layout_afterLexeme]
    simp only [Step.signal?, Option.bind_some]
    split <;> rfl
  · rw [m.step_of_blank s hblank]
    rfl

/-- A significant token is read in the state in which its step starts. -/
theorem layout_step_of_signal (m : Mode) (c : Cursor) (s : State) {signal : Option Signal}
    (h : (m.step c s).signal? = some signal) :
    (m.step c s).state.layout = (s.enter c).layout.after (.token signal c.startToken.column) := by
  rw [layout_step, events_step, h, Layout.afterAll_append, ← layout_enter]
  rfl

/-! ## Stretches and lines -/

/-- Over a stretch of text the layout is what the events of its steps make of it. -/
theorem Reads.layout {m : Mode} {c c' : Cursor} {s s' : State} {rs : List Step}
    (h : m.Reads c s rs c' s') : s'.layout = s.layout.afterAll (rs.flatMap Step.events) := by
  induction h with
  | stop c s => rfl
  | step _ _ ih => rw [ih, layout_step, List.flatMap_cons, Layout.afterAll_append]
  | newLine line _ _ ih => exact ih

theorem layout_stateAfter (m : Mode) (lines : List (List Char)) (s : State) :
    (m.stateAfter lines s).layout = s.layout.afterAll ((m.linesSteps lines s).flatMap Step.events) := by
  obtain ⟨c, hreads, -⟩ := m.reads_linesSteps (c := m.cursor []) rfl lines s
  exact hreads.layout

end Mode

end ShaderText
