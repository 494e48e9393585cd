/-
Indenting a whole text anew. Every line gets the indentation that the mode proposes in the state
reached over the lines as they are written, so the columns that later lines align with are the new
ones. A line that starts in a comment or a string is kept as it is, a blank line becomes empty, and
nothing behind the leading blanks changes, the line's ending included.
-/
import ShaderText.Lexing

namespace ShaderText

namespace Mode

/-- A line that starts in state `s`, indented anew. -/
def reindentLine (m : Mode) (s : State) (line : List Char) : List Char :=
  let content := trimLeading line
  if s.inLiteral then line
  else if content.isEmpty then []
  else List.replicate (m.indent s content) ' ' ++ content

/-- Lines that start in state `s`, indented anew, and the state behind them. -/
def reindentLines (m : Mode) : List TextLine → State → List TextLine × State
  | [], s => ([], s)
  | line :: lines, s =>
    let body := m.reindentLine s line.body
    let (_, s') := m.lexLine body s
    let (lines', final) := m.reindentLines lines s'
    ({ line with body } :: lines', final)

/-- A text indented anew. -/
def reindent (m : Mode) (text : List Char) : List Char :=
  joinLines (m.reindentLines (textLines text) (m.start 0)).1

/-! ## What is kept -/

theorem trimLeading_reindentLine (m : Mode) (s : State) (line : List Char) :
    trimLeading (m.reindentLine s line) = trimLeading line := by
  unfold reindentLine
  dsimp only
  split
  · rfl
  · split
    · rename_i h
      rw [List.isEmpty_iff.1 h]
      rfl
    · generalize m.indent s (trimLeading line) = n
      induction n with
      | zero =>
        cases hline : trimLeading line with
        | nil => rfl
        | cons c cs =>
          exact trimLeading_of_not_isBlank cs (not_isBlank_of_trimLeading_eq_cons hline)
      | succ n ih =>
        rw [List.replicate_succ, List.cons_append, trimLeading_of_isBlank _ (by decide), ih]

/-- The endings of the lines are kept. -/
theorem map_ending_reindentLines (m : Mode) (lines : List TextLine) (s : State) :
    (m.reindentLines lines s).1.map TextLine.ending = lines.map TextLine.ending := by
  induction lines generalizing s with
  | nil => rfl
  | cons line lines ih => simp [reindentLines, ih]

/-- Behind their leading blanks the lines are kept. -/
theorem map_trimLeading_reindentLines (m : Mode) (lines : List TextLine) (s : State) :
    (m.reindentLines lines s).1.map (trimLeading ·.body) = lines.map (trimLeading ·.body) := by
  induction lines generalizing s with
  | nil => rfl
  | cons line lines ih => simp [reindentLines, ih, trimLeading_reindentLine]

end Mode

end ShaderText
