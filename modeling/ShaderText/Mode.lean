/-
A mode: the settings, word tables and hooks with which text is read. It reads one lexeme at a time,
keeps the state that goes with it, and proposes how far a line is indented.

A lexeme in a non-empty text is not empty, so every step that is not at the end of its line reads
on, and no step changes the line.
-/
import ShaderText.Grammar.Shader
import ShaderText.Hook
import ShaderText.Literal
import ShaderText.Shape

namespace ShaderText

/-! ## Lexemes -/

/-- What the next lexeme is, how many characters it takes, and the region behind it. -/
structure Lexeme where
  category : Category
  signal : Option Signal
  length : Nat
  region : Region
  deriving DecidableEq, Repr, Inhabited

namespace Lexeme

/-- A string whose first `opened` characters are its opener and whose rest is `cs`. When the line
ends in it, it goes on in the next line only if an escaping backslash came last or strings may span
lines. -/
def string (multiLine : Bool) (quote : Char) (opened : Nat) (cs : List Char) : Lexeme :=
  let scan := scanString quote false cs
  let goesOn := !scan.closed && (scan.escaped || multiLine)
  ⟨.string, none, opened + scan.length, if goesOn then .string quote else .code⟩

/-- A block comment whose first `opened` characters are its opener and whose rest is `cs`. -/
def comment (opened : Nat) (cs : List Char) : Lexeme :=
  let scan := scanComment false cs
  ⟨.comment, none, opened + scan.length, if scan.closed then .code else .comment⟩

/-- The first `n` characters as a word in a region, which goes on behind it. -/
def word (region : Region) (g : Grammar) (n : Nat) (cs : List Char) : Lexeme :=
  ⟨g.category (cs.take n), g.signal (cs.take n), n, region⟩

/-- A lexeme without further meaning in a region, which goes on behind it. -/
def plain (region : Region) (category : Category) (n : Nat) : Lexeme := ⟨category, none, n, region⟩

end Lexeme

/-! ## Modes -/

/-- The settings, word tables and hooks with which text is read. -/
structure Mode where
  /-- Columns per level of nesting. -/
  indentUnit : Nat
  tabSize : Nat
  /-- A string that is not closed goes on in the next line. -/
  multiLineStrings : Bool
  grammar : Grammar
  hooks : HookTable
  deriving Inhabited

namespace Mode

/-- The mode for the shading language. -/
def shader : Mode := ⟨2, 4, false, .shader, .shader⟩

/-- The mode without word tables and hooks. -/
def bare : Mode := { shader with grammar := .empty, hooks := ∅ }

/-- The characters that, when typed, ask for their line to be indented again. -/
def electricChars : List Char := ['\x7b', '\x7d']

/-- The state before a text laid out at `baseColumn`: the root is one unit further out, so that
what stands directly in it is indented to the base column. -/
def start (m : Mode) (baseColumn : Nat) : State :=
  .start (signed baseColumn - signed m.indentUnit)

/-- The column for a line whose text is `text`; inside a literal it is 0. -/
def indent (m : Mode) (s : State) (text : List Char) : Nat :=
  if s.inLiteral then 0
  else s.nesting.indentation (trimLeading text).head? m.indentUnit

/-! ## Reading a lexeme -/

/-- What the hook of the next character captures. -/
def capture? (m : Mode) (c : Cursor) (s : State) : Option Capture := do
  let trigger ← c.peek
  let hook ← m.hooks[trigger]?
  hook (c.take 1) s

/-- The lexeme of the shape that wins. Where no shape matches, a character and the word characters
behind it are a word. Only what opens a literal leaves the region. -/
def shapeLexeme (m : Mode) (region : Region) (cs : List Char) : Lexeme :=
  match Shape.longest cs with
  | some (.quote, n) => .string m.multiLineStrings (cs.headD '"') n (cs.drop n)
  | some (.punctuation, n) => ⟨.bracket, cs.head?.bind Signal.ofChar?, n, region⟩
  | some (.number, n) => .plain region .number n
  | some (.blockComment, n) => .comment n (cs.drop n)
  | some (.lineComment, _) => .plain region .comment cs.length
  | some (.operator, n) => .plain region .operator n
  | some (.word, n) => .word region m.grammar n cs
  | none => .word region m.grammar (runLength (fun _ => true) isWordChar cs) cs

/-- The next lexeme, read as in code; a hook that captures it goes first. -/
def codeLexeme (m : Mode) (c : Cursor) (s : State) : Lexeme :=
  match m.capture? c s with
  | some captured => ⟨captured.category, none, min (captured.length + 1) c.rest.length, s.region⟩
  | none => m.shapeLexeme s.region c.rest

/-- The lexeme at the cursor, which stands at the start of a token. -/
def lexeme (m : Mode) (c : Cursor) (s : State) : Lexeme :=
  match s.region with
  | .code => m.codeLexeme c s
  | .string quote => .string m.multiLineStrings quote 0 c.rest
  | .comment => .comment 0 c.rest

/-! ## Steps -/

/-- One step: a lexeme or, if there is none, blanks, with the cursor and the state behind them. -/
structure Step where
  lexeme? : Option Lexeme
  cursor : Cursor
  state : State
  deriving DecidableEq, Repr

/-- Reads the blanks at the cursor or, if there are none, the next lexeme. The nesting sees every
lexeme except comments and directives. -/
def step (m : Mode) (c : Cursor) (s : State) : Step :=
  let s := if c.atLineStart then s.atLineStart c.indentation else s
  let c := c.startToken
  let (blank, c') := c.eatBlanks
  if blank then ⟨none, c', s⟩
  else
    let x := m.lexeme c s
    let s' :=
      if x.category.isTransparent then { s with region := x.region }
      else s.afterToken x.region x.signal c.column
    ⟨some x, c.take x.length, s'⟩

end Mode

/-! ## Progress -/

theorem Lexeme.length_string_pos (multiLine : Bool) (quote : Char) (opened : Nat)
    {cs : List Char} (h : 0 < opened ∨ cs ≠ []) :
    0 < (Lexeme.string multiLine quote opened cs).length := by
  rcases h with h | h
  · exact Nat.add_pos_left h _
  · exact Nat.add_pos_right _ (length_scanString_pos quote false h)

theorem Lexeme.length_comment_pos (opened : Nat) {cs : List Char} (h : 0 < opened ∨ cs ≠ []) :
    0 < (Lexeme.comment opened cs).length := by
  rcases h with h | h
  · exact Nat.add_pos_left h _
  · exact Nat.add_pos_right _ (length_scanComment_pos false h)

namespace Mode

theorem length_shapeLexeme_pos (m : Mode) (region : Region) {cs : List Char} (h : cs ≠ []) :
    0 < (m.shapeLexeme region cs).length := by
  have hpos : ∀ {s n}, Shape.longest cs = some (s, n) → 0 < n :=
    fun hs => (Shape.longestOf_eq_some hs).2.2.1
  unfold shapeLexeme
  split
  · exact Lexeme.length_string_pos _ _ _ (.inl (hpos ‹_›))
  · exact hpos ‹_›
  · exact hpos ‹_›
  · exact Lexeme.length_comment_pos _ (.inl (hpos ‹_›))
  · exact List.length_pos_iff.2 h
  · exact hpos ‹_›
  · exact hpos ‹_›
  · cases cs with
    | nil => exact absurd rfl h
    | cons c cs => exact Nat.succ_pos _

/-- Unless the line is at its end, the next lexeme is not empty. -/
theorem length_lexeme_pos (m : Mode) {c : Cursor} (s : State) (h : c.rest ≠ []) :
    0 < (m.lexeme c s).length := by
  unfold lexeme
  split
  · unfold codeLexeme
    split
    · exact Nat.lt_min.2 ⟨Nat.succ_pos _, (List.length_pos_iff.2 h)⟩
    · exact length_shapeLexeme_pos m s.region h
  · exact Lexeme.length_string_pos _ _ _ (.inr h)
  · exact Lexeme.length_comment_pos _ (.inr h)

/-- A step changes nothing in the line. -/
theorem line_step (m : Mode) (c : Cursor) (s : State) : (m.step c s).cursor.line = c.line := by
  unfold step Cursor.eatBlanks
  dsimp only
  split <;> simp

/-- Unless the line is at its end, a step reads at least one character. -/
theorem length_rest_step_lt (m : Mode) {c : Cursor} (s : State) (h : c.rest ≠ []) :
    (m.step c s).cursor.rest.length < c.rest.length := by
  have hlen := List.length_pos_iff.2 h
  unfold step Cursor.eatBlanks Cursor.eatWhile
  dsimp only
  split
  · rename_i hblank
    have hblank := of_decide_eq_true hblank
    simp only [Cursor.rest_take, Cursor.rest_startToken, List.length_drop] at hblank ⊢
    omega
  · have := length_lexeme_pos m (c := c.startToken)
      (if c.atLineStart then s.atLineStart c.indentation else s) h
    simp only [Cursor.rest_take, Cursor.rest_startToken, List.length_drop]
    omega

end Mode

end ShaderText
