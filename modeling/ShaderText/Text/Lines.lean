/-
The lines of a text. A line ends at a line feed; a carriage return directly before the line feed
belongs to the ending and not to the body; what follows the last line feed is a line of its own if
it is not empty.

Bodies and endings put together again are the text, and no body holds a line feed.
-/

namespace ShaderText

/-- How a line is terminated. -/
inductive LineEnding
  | none
  | lf
  | crlf
  deriving DecidableEq, Repr, Inhabited

/-- The characters of a line ending. -/
def LineEnding.chars : LineEnding → List Char
  | .none => []
  | .lf => ['\n']
  | .crlf => ['\r', '\n']

/-- A line with its ending. -/
structure TextLine where
  body : List Char
  ending : LineEnding
  deriving DecidableEq, Repr, Inhabited

/-- The characters of a line, its ending included. -/
def TextLine.chars (line : TextLine) : List Char := line.body ++ line.ending.chars

/-- A character put before the first of the lines, where a line feed after it ends that line. -/
def TextLine.consTo (c : Char) : List TextLine → List TextLine
  | [] => [⟨[c], .none⟩]
  | line :: lines =>
    match c, line with
    | '\r', ⟨[], .lf⟩ => ⟨[], .crlf⟩ :: lines
    | c, ⟨body, ending⟩ => ⟨c :: body, ending⟩ :: lines

/-- The lines of a text with their endings. -/
def textLines : List Char → List TextLine
  | [] => []
  | c :: cs => if c = '\n' then ⟨[], .lf⟩ :: textLines cs else TextLine.consTo c (textLines cs)

/-- The lines of a text without their endings. -/
def lineBodies (cs : List Char) : List (List Char) := (textLines cs).map TextLine.body

/-- The text that lines with their endings make up. -/
def joinLines (lines : List TextLine) : List Char := lines.flatMap TextLine.chars

/-! ## Splitting loses nothing -/

theorem joinLines_consTo (c : Char) (lines : List TextLine) :
    joinLines (TextLine.consTo c lines) = c :: joinLines lines := by
  unfold TextLine.consTo
  split
  · rfl
  · split <;> simp [joinLines, TextLine.chars, LineEnding.chars]

theorem joinLines_textLines (cs : List Char) : joinLines (textLines cs) = cs := by
  induction cs with
  | nil => rfl
  | cons c cs ih =>
    simp only [textLines]
    split
    · rename_i h
      subst h
      simpa [joinLines, TextLine.chars, LineEnding.chars] using ih
    · rw [joinLines_consTo, ih]

theorem not_mem_body_of_mem_consTo {c : Char} {lines : List TextLine} (hc : c ≠ '\n')
    (h : ∀ line ∈ lines, '\n' ∉ line.body) :
    ∀ line ∈ TextLine.consTo c lines, '\n' ∉ line.body := by
  intro line hline
  unfold TextLine.consTo at hline
  split at hline
  · simp only [List.mem_singleton] at hline
    subst hline
    simpa using Ne.symm hc
  · split at hline
    · rcases List.mem_cons.1 hline with rfl | hline
      · simp
      · exact h line (List.mem_cons_of_mem _ hline)
    · rcases List.mem_cons.1 hline with rfl | hline
      · have := h _ (List.mem_cons_self ..)
        simp only [List.mem_cons, not_or]
        exact ⟨Ne.symm hc, this⟩
      · exact h line (List.mem_cons_of_mem _ hline)

/-- No line body holds a line feed. -/
theorem not_mem_body_of_mem_textLines (cs : List Char) :
    ∀ line ∈ textLines cs, '\n' ∉ line.body := by
  induction cs with
  | nil => simp [textLines]
  | cons c cs ih =>
    simp only [textLines]
    split
    · intro line hline
      rcases List.mem_cons.1 hline with rfl | hline
      · simp
      · exact ih line hline
    · exact not_mem_body_of_mem_consTo ‹_› ih

end ShaderText
