/-
Quoted strings and block comments, from behind their opener on. A string ends at the first quote
that no backslash escapes; a backslash escapes what follows it, a further backslash included. A
block comment ends at the first slash directly behind an asterisk. Both scans look at what is left
of one line and tell how much of it belongs to the literal.

A scan reads at least one character if there is one, and never more than there are.
-/

namespace ShaderText

/-! ## Strings -/

/-- How much of a line belongs to a string. -/
structure StringScan where
  /-- The number of characters, the closing quote included. -/
  length : Nat
  /-- The closing quote was met. -/
  closed : Bool
  /-- The text that was read ends in a backslash that escapes what follows. -/
  escaped : Bool
  deriving DecidableEq, Repr, Inhabited

/-- Reads a string; `escaped` says whether the next character is escaped. -/
def scanString (quote : Char) (escaped : Bool) : List Char → StringScan
  | [] => ⟨0, false, escaped⟩
  | c :: cs =>
    if c = quote ∧ escaped = false then ⟨1, true, false⟩
    else
      let scan := scanString quote (!escaped && c == '\\') cs
      { scan with length := scan.length + 1 }

theorem length_scanString_le (quote : Char) (escaped : Bool) (cs : List Char) :
    (scanString quote escaped cs).length ≤ cs.length := by
  induction cs generalizing escaped with
  | nil => exact Nat.le_refl 0
  | cons c cs ih =>
    unfold scanString
    split
    · simp
    · exact Nat.succ_le_succ (ih _)

/-- A string that is not closed takes the whole text. -/
theorem length_scanString_of_not_closed {quote : Char} {escaped : Bool} {cs : List Char}
    (h : (scanString quote escaped cs).closed = false) :
    (scanString quote escaped cs).length = cs.length := by
  induction cs generalizing escaped with
  | nil => rfl
  | cons c cs ih =>
    unfold scanString at h ⊢
    split at h
    · cases h
    · rw [if_neg ‹_›]
      exact congrArg Nat.succ (ih h)

theorem length_scanString_pos (quote : Char) (escaped : Bool) {cs : List Char} (h : cs ≠ []) :
    0 < (scanString quote escaped cs).length := by
  cases cs with
  | nil => exact absurd rfl h
  | cons c cs =>
    unfold scanString
    split
    · exact Nat.one_pos
    · exact Nat.succ_pos _

/-! ## Comments -/

/-- How much of a line belongs to a block comment. -/
structure CommentScan where
  /-- The number of characters, the closer included. -/
  length : Nat
  /-- The closer was met. -/
  closed : Bool
  deriving DecidableEq, Repr, Inhabited

/-- Reads a block comment; `star` says whether the character before was an asterisk. -/
def scanComment (star : Bool) : List Char → CommentScan
  | [] => ⟨0, false⟩
  | c :: cs =>
    if c = '/' ∧ star = true then ⟨1, true⟩
    else
      let scan := scanComment (c == '*') cs
      { scan with length := scan.length + 1 }

theorem length_scanComment_le (star : Bool) (cs : List Char) :
    (scanComment star cs).length ≤ cs.length := by
  induction cs generalizing star with
  | nil => exact Nat.le_refl 0
  | cons c cs ih =>
    unfold scanComment
    split
    · simp
    · exact Nat.succ_le_succ (ih _)

/-- A comment that is not closed takes the whole text. -/
theorem length_scanComment_of_not_closed {star : Bool} {cs : List Char}
    (h : (scanComment star cs).closed = false) : (scanComment star cs).length = cs.length := by
  induction cs generalizing star with
  | nil => rfl
  | cons c cs ih =>
    unfold scanComment at h ⊢
    split at h
    · cases h
    · rw [if_neg ‹_›]
      exact congrArg Nat.succ (ih h)

theorem length_scanComment_pos (star : Bool) {cs : List Char} (h : cs ≠ []) :
    0 < (scanComment star cs).length := by
  cases cs with
  | nil => exact absurd rfl h
  | cons c cs =>
    unfold scanComment
    split
    · exact Nat.one_pos
    · exact Nat.succ_pos _

end ShaderText
