/-
The steps in which text is read. A line is read in steps from its start to its end, and each step
reads at least one character, so there are no more steps than characters. A stretch of text goes
from any place in a line to any place in the same line or in one of those below it.
-/
import ShaderText.Proofs.Lexing.Step

namespace ShaderText

namespace Mode

variable {m : Mode}

/-! ## The steps of a line -/

/-- A step takes some characters behind the cursor as a token of their own. -/
theorem cursor_step (m : Mode) (c : Cursor) (s : State) :
    ∃ n, (m.step c s).cursor = c.startToken.take n ∧ (c.rest ≠ [] → 0 < n) := by
  by_cases hblank : leadingBlanks c.rest = []
  · rw [m.step_of_not_blank s hblank]
    exact ⟨_, rfl, fun h => m.length_lexeme_pos (c := c.startToken) _ h⟩
  · rw [m.step_of_blank s hblank]
    exact ⟨_, rfl, fun _ => List.length_pos_iff.2 hblank⟩

/-- The steps from the cursor to the end of its line. -/
def stepsFrom (m : Mode) (c : Cursor) (s : State) : List Step :=
  if h : c.rest = [] then []
  else
    let r := m.step c s
    have : r.cursor.rest.length < c.rest.length := m.length_rest_step_lt s h
    r :: m.stepsFrom r.cursor r.state
termination_by c.rest.length

/-- The steps in which a line that starts in state `s` is read. -/
def lineSteps (m : Mode) (line : List Char) (s : State) : List Step :=
  m.stepsFrom (m.cursor line) s

/-- The steps in which some lines are read one after the other. -/
def linesSteps (m : Mode) : List (List Char) → State → List Step
  | [], _ => []
  | line :: lines, s => m.lineSteps line s ++ m.linesSteps lines (m.lexLine line s).2

theorem stepsFrom_of_end (m : Mode) {c : Cursor} (s : State) (h : c.rest = []) :
    m.stepsFrom c s = [] := by
  rw [stepsFrom, dif_pos h]

theorem stepsFrom_of_rest (m : Mode) {c : Cursor} (s : State) (h : c.rest ≠ []) :
    m.stepsFrom c s = m.step c s :: m.stepsFrom (m.step c s).cursor (m.step c s).state := by
  rw [stepsFrom, dif_neg h]

theorem stepsFrom_of_blank (m : Mode) {c : Cursor} {s : State} (hs : s.enter c = s)
    (h : leadingBlanks c.rest ≠ []) :
    m.stepsFrom c s = ⟨none, c.startToken.take (leadingBlanks c.rest).length, s⟩ ::
      m.stepsFrom (c.startToken.take (leadingBlanks c.rest).length) s := by
  have hrest : c.rest ≠ [] := by
    intro hnil
    exact h (by rw [hnil]; rfl)
  rw [m.stepsFrom_of_rest s hrest, m.step_of_blank s h, hs]

theorem stepsFrom_of_lexeme (m : Mode) {c : Cursor} {s : State} {x : Lexeme} (hs : s.enter c = s)
    (hrest : c.rest ≠ []) (h : leadingBlanks c.rest = []) (hx : m.lexeme c.startToken s = x) :
    m.stepsFrom c s =
      ⟨some x, c.startToken.take x.length, s.afterLexeme x c.startToken.column⟩ ::
        m.stepsFrom (c.startToken.take x.length) (s.afterLexeme x c.startToken.column) := by
  rw [m.stepsFrom_of_rest s hrest, m.step_of_not_blank s h, hs, hx]

/-- A line that is not empty is read in steps from the state that its start leaves. -/
theorem lineSteps_eq_stepsFrom_cursor (m : Mode) {line : List Char} (s : State) (h : line ≠ []) :
    m.lineSteps line s = m.stepsFrom (m.cursor line) (s.atLineStart (m.indentationOf line)) := by
  have hrest : (m.cursor line).rest ≠ [] := h
  rw [lineSteps, m.stepsFrom_of_rest s hrest, m.stepsFrom_of_rest _ hrest, m.step_atLineStart s rfl]

/-- Lines read one after the other are read in the steps of all of them. -/
theorem linesSteps_append (m : Mode) (xs ys : List (List Char)) (s : State) :
    m.linesSteps (xs ++ ys) s = m.linesSteps xs s ++ m.linesSteps ys (m.stateAfter xs s) := by
  induction xs generalizing s with
  | nil => rfl
  | cons line xs ih => rw [List.cons_append, linesSteps, ih, linesSteps, List.append_assoc,
      stateAfter_cons]

/-- What holds at the end of a line, and before a step if behind it, holds everywhere. -/
@[elab_as_elim]
theorem reading_induction (m : Mode) {P : Cursor → State → Prop}
    (atEnd : ∀ c s, c.rest = [] → P c s)
    (step : ∀ c s, c.rest ≠ [] → P (m.step c s).cursor (m.step c s).state → P c s)
    (c : Cursor) (s : State) : P c s := by
  generalize hlen : c.rest.length = len
  induction len using Nat.strongRecOn generalizing c s with
  | ind len ih =>
    by_cases hrest : c.rest = []
    · exact atEnd c s hrest
    · exact step c s hrest (ih _ (hlen ▸ m.length_rest_step_lt s hrest) _ _ rfl)

/-- The same where the line was started already, by what is read next: blanks or a lexeme. -/
@[elab_as_elim]
theorem entered_induction (m : Mode) {P : (c : Cursor) → (s : State) → s.enter c = s → Prop}
    (atEnd : ∀ c s entered, c.rest = [] → P c s entered)
    (blanks : ∀ c s entered next, leadingBlanks c.rest ≠ [] →
      P (c.startToken.take (leadingBlanks c.rest).length) s next → P c s entered)
    (lexeme : ∀ c s x entered next, c.rest ≠ [] → leadingBlanks c.rest = [] →
      m.lexeme c.startToken s = x →
      P (c.startToken.take x.length) (s.afterLexeme x c.startToken.column) next → P c s entered)
    (c : Cursor) (s : State) (entered : s.enter c = s) : P c s entered := by
  induction c, s using m.reading_induction with
  | atEnd c s hrest => exact atEnd c s entered hrest
  | step c s hrest ih =>
    have hnext := m.enter_step s hrest
    by_cases hblank : leadingBlanks c.rest = []
    · rw [m.step_of_not_blank s hblank, entered] at hnext
      refine lexeme c s _ entered hnext hrest hblank rfl ?_
      have hstep := m.step_of_not_blank s hblank
      rw [entered] at hstep
      rw [hstep] at ih
      exact ih hnext
    · rw [m.step_of_blank s hblank, entered] at hnext
      refine blanks c s entered hnext hblank ?_
      have hstep := m.step_of_blank s hblank
      rw [entered] at hstep
      rw [hstep] at ih
      exact ih hnext

/-- There are no more steps than characters. -/
theorem length_stepsFrom_le (m : Mode) (c : Cursor) (s : State) :
    (m.stepsFrom c s).length ≤ c.rest.length := by
  induction c, s using m.reading_induction with
  | atEnd c s hrest => simp [m.stepsFrom_of_end s hrest]
  | step c s hrest ih =>
    have hlt := m.length_rest_step_lt s hrest
    rw [m.stepsFrom_of_rest s hrest, List.length_cons]
    omega

/-- What the steps read makes up the text. -/
theorem flatten_tokens_stepsFrom (m : Mode) (c : Cursor) (s : State) :
    ((m.stepsFrom c s).map (·.cursor.token)).flatten = c.rest := by
  induction c, s using m.reading_induction with
  | atEnd c s hrest =>
    rw [m.stepsFrom_of_end s hrest, hrest]
    rfl
  | step c s hrest ih =>
    obtain ⟨n, hcursor, -⟩ := m.cursor_step c s
    rw [m.stepsFrom_of_rest s hrest, List.map_cons, List.flatten_cons, ih, hcursor, Cursor.token_take,
      Cursor.token_startToken, List.nil_append, Cursor.rest_take, Cursor.rest_startToken, List.take_append_drop]

theorem lexFrom_eq_filterMap (m : Mode) (c : Cursor) (s : State) :
    (m.lexFrom c s).1 = (m.stepsFrom c s).filterMap Step.token? := by
  induction c, s using m.reading_induction with
  | atEnd c s hrest => rw [m.lexFrom_of_end s hrest, m.stepsFrom_of_end s hrest]; rfl
  | step c s hrest ih =>
    rw [m.lexFrom_of_rest s hrest, m.stepsFrom_of_rest s hrest, List.filterMap_cons, ← ih]
    cases (m.step c s).token? <;> rfl

/-! ## Stretches -/

/-- From one place to another there are these steps. A new line starts where the last one ends. -/
inductive Reads (m : Mode) : Cursor → State → List Step → Cursor → State → Prop
  | stop (c : Cursor) (s : State) : Reads m c s [] c s
  | step {c c' : Cursor} {s s' : State} {rs : List Step} : c.rest ≠ [] →
      Reads m (m.step c s).cursor (m.step c s).state rs c' s' → Reads m c s (m.step c s :: rs) c' s'
  | newLine {c c' : Cursor} {s s' : State} {rs : List Step} (line : List Char) : c.rest = [] →
      Reads m (m.cursor line) s rs c' s' → Reads m c s rs c' s'

theorem Reads.trans {c c' c'' : Cursor} {s s' s'' : State} {rs rs' : List Step}
    (h : m.Reads c s rs c' s') (h' : m.Reads c' s' rs' c'' s'') : m.Reads c s (rs ++ rs') c'' s'' := by
  induction h with
  | stop c s => exact h'
  | step hrest _ ih => exact .step hrest (ih h')
  | newLine line hrest _ ih => exact .newLine line hrest (ih h')

/-- The steps of a line lead to its end, in the state behind the line. -/
theorem reads_stepsFrom (m : Mode) (c : Cursor) (s : State) :
    ∃ c', m.Reads c s (m.stepsFrom c s) c' (m.lexFrom c s).2 ∧ c'.rest = [] := by
  induction c, s using m.reading_induction with
  | atEnd c s hrest =>
    rw [m.stepsFrom_of_end s hrest, m.lexFrom_of_end s hrest]
    exact ⟨c, .stop c s, hrest⟩
  | step c s hrest ih =>
    obtain ⟨c', hreads, hend⟩ := ih
    rw [m.stepsFrom_of_rest s hrest, m.lexFrom_of_rest s hrest]
    exact ⟨c', .step hrest hreads, hend⟩

/-- The steps of some lines lead from the end of a line to the end of the last of them. -/
theorem reads_linesSteps (m : Mode) {c : Cursor} (hc : c.rest = []) (lines : List (List Char))
    (s : State) :
    ∃ c', m.Reads c s (m.linesSteps lines s) c' (m.stateAfter lines s) ∧ c'.rest = [] := by
  induction lines generalizing c s with
  | nil => exact ⟨c, .stop c s, hc⟩
  | cons line lines ih =>
    obtain ⟨c', hline, hend⟩ := m.reads_stepsFrom (m.cursor line) s
    obtain ⟨c'', hlines, hend'⟩ := ih hend (m.lexLine line s).2
    exact ⟨c'', .newLine line hc (hline.trans hlines), hend'⟩

end Mode

end ShaderText
