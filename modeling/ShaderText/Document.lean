/-
A document keeps, for each of its lines, the state in which the line starts and the tokens of the
line. After an edit the edited line is read again, and then one line after the other until the
state that is reached is the one kept for the next line: from there on nothing can have changed.

Each edit tells how many lines were read again. A line number that is out of range is an error and
no edit.
-/
import ShaderText.Lexing

namespace ShaderText

/-- A line of a document, with the state in which it starts and its tokens. -/
structure Row where
  text : List Char
  before : State
  tokens : List Token
  deriving DecidableEq, Repr, Inhabited

/-- A line number that is not in the document. -/
structure LineOutOfRange where
  line : Nat
  count : Nat
  deriving DecidableEq, Repr, Inhabited

def LineOutOfRange.message (e : LineOutOfRange) : String :=
  s!"Line {e.line} out of range (buffer has {e.count} lines)"

/-! ## Reading rows -/

/-- Rows that were read again: how they are now, the state behind them, and how many were read. -/
structure Reread where
  rows : List Row
  final : State
  count : Nat
  deriving DecidableEq, Repr, Inhabited

/-- The rows of some lines that start in state `s`, and the state behind them. -/
def Mode.rowsOf (m : Mode) : List (List Char) → State → List Row × State
  | [], s => ([], s)
  | line :: lines, s =>
    let (tokens, s') := m.lexLine line s
    let (rows, final) := m.rowsOf lines s'
    (⟨line, s, tokens⟩ :: rows, final)

/-- Reads rows again from state `s` on, up to the first whose kept state is the one reached there;
`final` is the state kept behind all of them. -/
def Mode.reread (m : Mode) (final : State) : State → List Row → Reread
  | s, [] => ⟨[], s, 0⟩
  | s, row :: rows =>
    if row.before = s then ⟨row :: rows, final, 0⟩
    else
      let (tokens, s') := m.lexLine row.text s
      let r := m.reread final s' rows
      ⟨⟨row.text, s, tokens⟩ :: r.rows, r.final, r.count + 1⟩

/-! ## Documents -/

/-- Lines read with a mode, and the state behind the last. -/
structure Document where
  mode : Mode
  rows : List Row
  final : State

/-- A document after an edit, and how many lines were read again. -/
structure Edited where
  document : Document
  count : Nat

namespace Document

/-- A document with these lines. -/
def ofLines (m : Mode) (lines : List (List Char)) : Document :=
  let (rows, final) := m.rowsOf lines (m.start 0)
  ⟨m, rows, final⟩

/-- A document with the lines of a text. -/
def ofText (m : Mode) (text : List Char) : Document := ofLines m (lineBodies text)

def lineCount (d : Document) : Nat := d.rows.length

def lines (d : Document) : List (List Char) := d.rows.map Row.text

/-- The text of a document, every line ended by a line feed. -/
def text (d : Document) : List Char := d.lines.flatMap (· ++ ['\n'])

/-- The row of a line. -/
def row (d : Document) (line : Nat) : Except LineOutOfRange Row :=
  match d.rows[line]? with
  | some row => .ok row
  | none => .error ⟨line, d.lineCount⟩

/-- The indentation that the mode proposes for a row as it is now. -/
def indentation (d : Document) (row : Row) : Nat := d.mode.indent row.before row.text

/-- The document in which a line that starts in state `before` stands between the rows `above` and
`below`. -/
def withLine (d : Document) (above : List Row) (line : List Char) (before : State)
    (below : List Row) : Edited :=
  let (tokens, s) := d.mode.lexLine line before
  let r := d.mode.reread d.final s below
  ⟨{ d with rows := above ++ ⟨line, before, tokens⟩ :: r.rows, final := r.final }, r.count + 1⟩

/-- Replaces the text of a line. -/
def replace (d : Document) (line : Nat) (text : List Char) : Except LineOutOfRange Edited :=
  match d.rows.drop line with
  | [] => .error ⟨line, d.lineCount⟩
  | row :: below => .ok (d.withLine (d.rows.take line) text row.before below)

/-- Inserts a line before a line, or behind the last. -/
def insert (d : Document) (line : Nat) (text : List Char) : Except LineOutOfRange Edited :=
  if d.lineCount < line then .error ⟨line, d.lineCount⟩
  else
    let below := d.rows.drop line
    let before := (below.head?.map Row.before).getD d.final
    .ok (d.withLine (d.rows.take line) text before below)

/-- Removes a line; the line that takes its place is read again. -/
def remove (d : Document) (line : Nat) : Except LineOutOfRange Edited :=
  match d.rows.drop line with
  | [] => .error ⟨line, d.lineCount⟩
  | [row] => .ok ⟨{ d with rows := d.rows.take line, final := row.before }, 0⟩
  | row :: next :: below => .ok (d.withLine (d.rows.take line) next.text row.before below)

/-! ## What reading keeps -/

theorem map_text_rowsOf (m : Mode) (lines : List (List Char)) (s : State) :
    (m.rowsOf lines s).1.map Row.text = lines := by
  induction lines generalizing s with
  | nil => rfl
  | cons line lines ih => simp [Mode.rowsOf, ih]

theorem lines_ofLines (m : Mode) (lines : List (List Char)) : (ofLines m lines).lines = lines :=
  map_text_rowsOf m lines _

/-- Reading rows again changes no text. -/
theorem map_text_reread (m : Mode) (final s : State) (rows : List Row) :
    (m.reread final s rows).rows.map Row.text = rows.map Row.text := by
  induction rows generalizing s with
  | nil => rfl
  | cons row rows ih =>
    unfold Mode.reread
    split
    · rfl
    · simp [ih]

theorem count_reread_le (m : Mode) (final s : State) (rows : List Row) :
    (m.reread final s rows).count ≤ rows.length := by
  induction rows generalizing s with
  | nil => exact Nat.le_refl 0
  | cons row rows ih =>
    unfold Mode.reread
    split
    · exact Nat.zero_le _
    · exact Nat.succ_le_succ (ih _)

end Document

end ShaderText
