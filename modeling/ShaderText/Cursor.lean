/-
A cursor over one line. The line is cut into what lies before the current token, the part of the
token read so far, and what is not read yet, so a cursor is always between two characters and the
start of the token is never behind the position. The place of the token's start is kept with the
parts, so that asking for it takes no walk over the line.

Every operation keeps the line, and those that read never lengthen what is left.
-/
import ShaderText.Column
import ShaderText.Text.Blank

namespace ShaderText

/-- A place in a line, with the start of the token being read. -/
structure Cursor where
  /-- The characters that lie before the current token, the nearest first. -/
  behind : List Char
  /-- The part of the current token read so far. -/
  token : List Char
  /-- What is not read yet. -/
  rest : List Char
  tabSize : Nat
  /-- The byte offset at which the current token starts. -/
  start : Nat
  /-- The display column at which the current token starts. -/
  column : Nat
  start_eq_behind : start = byteLength behind
  column_eq_behind : column = columnWidth tabSize behind.reverse
  deriving DecidableEq, Repr

namespace Cursor

/-- A cursor at the start of a line. -/
def ofLine (line : List Char) (tabSize : Nat) : Cursor :=
  ⟨[], [], line, tabSize, 0, 0, rfl, rfl⟩

/-! ## Looking -/

/-- What lies before the current token. -/
def before (c : Cursor) : List Char := c.behind.reverse

/-- The whole line. -/
def line (c : Cursor) : List Char := c.before ++ c.token ++ c.rest

/-- The byte offset up to which the line is read. -/
def pos (c : Cursor) : Nat := c.start + byteLength c.token

/-- Nothing on the line is read yet. -/
def atLineStart (c : Cursor) : Bool := c.behind.isEmpty && c.token.isEmpty

/-- The whole line is read. -/
def atLineEnd (c : Cursor) : Bool := c.rest.isEmpty

/-- The next character. -/
def peek (c : Cursor) : Option Char := c.rest.head?

/-- The display width of the blanks that the line starts with. -/
def indentation (c : Cursor) : Nat := columnWidth c.tabSize (leadingBlanks c.line)

/-! ## Moving -/

/-- Reads the next `n` characters, or all that are left if there are fewer. -/
def take (c : Cursor) (n : Nat) : Cursor :=
  { c with token := c.token ++ c.rest.take n, rest := c.rest.drop n }

/-- Reads one character. -/
def next (c : Cursor) : Cursor := c.take 1

/-- Reads the next character if it is `expected`, and says whether it did. -/
def eat (c : Cursor) (expected : Char) : Bool × Cursor :=
  if c.peek = some expected then (true, c.take 1) else (false, c)

/-- Reads the longest run of characters that satisfy `p`, and says whether it read any. -/
def eatWhile (c : Cursor) (p : Char → Bool) : Bool × Cursor :=
  let n := (c.rest.takeWhile p).length
  (0 < n, c.take n)

/-- Reads the blanks that come next, and says whether it read any. -/
def eatBlanks (c : Cursor) : Bool × Cursor := c.eatWhile isBlank

/-- Reads the rest of the line. -/
def skipToEnd (c : Cursor) : Cursor := c.take c.rest.length

/-- Reads the characters that start within the next `bytes` bytes. -/
def advance (c : Cursor) (bytes : Nat) : Cursor := c.take (charsBefore c.rest bytes).length

/-- Gives back the last `n` characters, or as many as the token has if there are fewer. -/
def backUp (c : Cursor) (n : Nat) : Cursor :=
  let kept := c.token.length - n
  { c with token := c.token.take kept, rest := c.token.drop kept ++ c.rest }

/-- Goes back to the start of the current token. -/
def rewind (c : Cursor) : Cursor := { c with token := [], rest := c.token ++ c.rest }

/-- Starts a new token at the position. -/
def startToken (c : Cursor) : Cursor where
  behind := c.token.reverse ++ c.behind
  token := []
  rest := c.rest
  tabSize := c.tabSize
  start := c.start + byteLength c.token
  column := columnFrom c.tabSize c.column c.token
  start_eq_behind := by
    rw [byteLength_append, byteLength_reverse, c.start_eq_behind, Nat.add_comm]
  column_eq_behind := by
    rw [List.reverse_append, List.reverse_reverse, c.column_eq_behind, columnWidth, columnWidth,
      columnFrom_append]

/-! ## The line is kept -/

@[simp] theorem line_ofLine (line : List Char) (tabSize : Nat) :
    (ofLine line tabSize).line = line := rfl

@[simp] theorem rest_ofLine (line : List Char) (tabSize : Nat) :
    (ofLine line tabSize).rest = line := rfl

@[simp] theorem line_take (c : Cursor) (n : Nat) : (c.take n).line = c.line := by
  simp [line, before, take]

@[simp] theorem line_eatWhile (c : Cursor) (p : Char → Bool) : (c.eatWhile p).2.line = c.line :=
  line_take c _

@[simp] theorem line_eat (c : Cursor) (expected : Char) : (c.eat expected).2.line = c.line := by
  unfold eat; split
  · exact line_take c 1
  · rfl

@[simp] theorem line_backUp (c : Cursor) (n : Nat) : (c.backUp n).line = c.line := by
  simp only [line, before, backUp, List.append_assoc]
  rw [← List.append_assoc (c.token.take _), List.take_append_drop]

@[simp] theorem line_rewind (c : Cursor) : c.rewind.line = c.line := by
  simp [line, before, rewind]

@[simp] theorem line_startToken (c : Cursor) : c.startToken.line = c.line := by
  simp [line, before, startToken]

/-! ## What each move does to the parts -/

@[simp] theorem rest_take (c : Cursor) (n : Nat) : (c.take n).rest = c.rest.drop n := rfl

@[simp] theorem token_take (c : Cursor) (n : Nat) :
    (c.take n).token = c.token ++ c.rest.take n := rfl

@[simp] theorem before_take (c : Cursor) (n : Nat) : (c.take n).before = c.before := rfl

@[simp] theorem tabSize_take (c : Cursor) (n : Nat) : (c.take n).tabSize = c.tabSize := rfl

@[simp] theorem rest_startToken (c : Cursor) : c.startToken.rest = c.rest := rfl

@[simp] theorem token_startToken (c : Cursor) : c.startToken.token = [] := rfl

@[simp] theorem before_startToken (c : Cursor) :
    c.startToken.before = c.before ++ c.token := by
  simp [before, startToken]

@[simp] theorem tabSize_startToken (c : Cursor) : c.startToken.tabSize = c.tabSize := rfl

theorem start_eq (c : Cursor) : c.start = byteLength c.before :=
  c.start_eq_behind.trans (byteLength_reverse c.behind).symm

theorem column_eq (c : Cursor) : c.column = columnWidth c.tabSize c.before :=
  c.column_eq_behind

theorem pos_eq (c : Cursor) : c.pos = byteLength (c.before ++ c.token) := by
  rw [pos, start_eq, byteLength_append]

theorem column_lt (c : Cursor) : c.column < UInt64.size := by
  rw [column_eq]
  exact columnFrom_lt c.tabSize (by decide) c.before

/-- The current token starts at the column of its offset. -/
theorem columnAt_start (c : Cursor) : columnAt c.tabSize c.line c.start = c.column := by
  rw [start_eq, line, List.append_assoc, columnAt_byteLength, column_eq]

/-- The next token starts at the column of the position. -/
theorem columnAt_pos (c : Cursor) : columnAt c.tabSize c.line c.pos = c.startToken.column := by
  rw [pos_eq, line, columnAt_byteLength, c.startToken.column_eq, before_startToken,
    tabSize_startToken]

theorem pos_startToken (c : Cursor) : c.startToken.pos = c.pos := by
  simp [pos_eq]

theorem start_le_pos (c : Cursor) : c.start ≤ c.pos := Nat.le_add_right _ _

theorem pos_le_byteLength_line (c : Cursor) : c.pos ≤ byteLength c.line := by
  simp only [pos, line, start_eq, byteLength_append]; omega

/-- Backing up over the characters just taken undoes the taking. -/
theorem backUp_take {c : Cursor} {n : Nat} (h : n ≤ c.rest.length) : (c.take n).backUp n = c := by
  have hlen : (c.token ++ c.rest.take n).length - n = c.token.length := by
    simp [List.length_take, Nat.min_eq_left h]
  simp only [backUp, take, hlen, List.take_left, List.drop_left, List.take_append_drop]

end Cursor

end ShaderText
