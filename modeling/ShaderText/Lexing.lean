/-
Whole lines and whole texts, read with a mode. Each line is read from its start, and the state goes
on from line to line; blanks are read and not reported.
-/
import ShaderText.Mode
import ShaderText.Text.Lines

namespace ShaderText

namespace Mode

/-- The token that a step read, if it read no blanks. -/
def Step.token? (r : Step) : Option Token :=
  r.lexeme?.map fun x => ⟨x.category, r.cursor.token, r.cursor.start, r.cursor.pos⟩

/-- The tokens from the cursor to the end of its line, and the state there. -/
def lexFrom (m : Mode) (c : Cursor) (s : State) : List Token × State :=
  if h : c.rest = [] then ([], s)
  else
    let r := m.step c s
    have : r.cursor.rest.length < c.rest.length := m.length_rest_step_lt s h
    let (tokens, s') := m.lexFrom r.cursor r.state
    (r.token?.toList ++ tokens, s')
termination_by c.rest.length

/-- A cursor at the start of a line. -/
def cursor (m : Mode) (line : List Char) : Cursor := .ofLine line m.tabSize

/-- The tokens of a line that starts in state `s`, and the state at its end. -/
def lexLine (m : Mode) (line : List Char) (s : State) : List Token × State :=
  m.lexFrom (m.cursor line) s

/-- The tokens of each of some lines, and the state behind the last. -/
def lexLines (m : Mode) : List (List Char) → State → List (List Token) × State
  | [], s => ([], s)
  | line :: lines, s =>
    let (tokens, s) := m.lexLine line s
    let (rows, s) := m.lexLines lines s
    (tokens :: rows, s)

/-- The tokens of each line of a text at base column 0, and the state behind it. -/
def lexText (m : Mode) (text : List Char) : List (List Token) × State :=
  m.lexLines (lineBodies text) (m.start 0)

/-- The state behind some lines. -/
def stateAfter (m : Mode) (lines : List (List Char)) (s : State) : State := (m.lexLines lines s).2

/-! ## Reading on -/

theorem lexLine_nil (m : Mode) (s : State) : m.lexLine [] s = ([], s) := by
  rw [lexLine, lexFrom]
  exact dif_pos rfl

/-- Lines read one after the other are read like all of them. -/
theorem lexLines_append (m : Mode) (xs ys : List (List Char)) (s : State) :
    m.lexLines (xs ++ ys) s =
      ((m.lexLines xs s).1 ++ (m.lexLines ys (m.stateAfter xs s)).1,
        m.stateAfter ys (m.stateAfter xs s)) := by
  induction xs generalizing s with
  | nil => rfl
  | cons x xs ih => simp [lexLines, stateAfter, ih]

theorem length_lexLines (m : Mode) (lines : List (List Char)) (s : State) :
    (m.lexLines lines s).1.length = lines.length := by
  induction lines generalizing s with
  | nil => rfl
  | cons line lines ih => simp [lexLines, ih]

end Mode

end ShaderText
