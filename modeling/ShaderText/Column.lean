/-
Columns and offsets. A display column counts one for each character, and a tab goes to the next
multiple of the tab size; with tab size 0 a tab is a character like any other. An offset counts
UTF-8 bytes. Columns are unsigned numbers of 64 bits, and behind the largest of them the count
starts again at 0. Columns, like every count that a user sets, are also read as signed numbers of 64
bits where they meet a number that may be negative.
-/

namespace ShaderText

/-! ## Columns -/

/-- The number of columns that a character takes at column `column`. -/
def widthAt (tabSize column : Nat) (c : Char) : Nat :=
  if c = '\t' ∧ 0 < tabSize then tabSize - column % tabSize else 1

/-- The column behind a character that stands at column `column`. -/
def columnAfter (tabSize column : Nat) (c : Char) : Nat :=
  (column + widthAt tabSize column c) % UInt64.size

/-- The column behind a text that starts at column `column`. -/
def columnFrom (tabSize column : Nat) (cs : List Char) : Nat :=
  cs.foldl (columnAfter tabSize) column

/-- The column behind a text that starts a line. -/
def columnWidth (tabSize : Nat) (cs : List Char) : Nat := columnFrom tabSize 0 cs

theorem columnFrom_append (tabSize column : Nat) (cs ds : List Char) :
    columnFrom tabSize column (cs ++ ds) =
      columnFrom tabSize (columnFrom tabSize column cs) ds := by
  simp [columnFrom]

theorem columnAfter_lt (tabSize column : Nat) (c : Char) :
    columnAfter tabSize column c < UInt64.size :=
  Nat.mod_lt _ (by decide)

/-- A column is a number of 64 bits. -/
theorem columnFrom_lt (tabSize : Nat) {column : Nat} (h : column < UInt64.size) (cs : List Char) :
    columnFrom tabSize column cs < UInt64.size := by
  induction cs generalizing column with
  | nil => exact h
  | cons c cs ih => exact ih (columnAfter_lt tabSize column c)

/-! ## Offsets -/

/-- The number of bytes of a text in UTF-8. -/
def byteLength : List Char → Nat
  | [] => 0
  | c :: cs => c.utf8Size + byteLength cs

/-- The characters of a text that start before a byte offset. -/
def charsBefore : List Char → Nat → List Char
  | [], _ => []
  | c :: cs, offset => if offset = 0 then [] else c :: charsBefore cs (offset - c.utf8Size)

/-- The column of a byte offset in a line; an offset inside a character counts that character, and
one past the end is the end. -/
def columnAt (tabSize : Nat) (line : List Char) (offset : Nat) : Nat :=
  columnWidth tabSize (charsBefore line offset)

theorem byteLength_append (cs ds : List Char) :
    byteLength (cs ++ ds) = byteLength cs + byteLength ds := by
  induction cs with
  | nil => simp [byteLength]
  | cons c cs ih => simp [byteLength, ih, Nat.add_assoc]

theorem byteLength_reverse (cs : List Char) : byteLength cs.reverse = byteLength cs := by
  induction cs with
  | nil => rfl
  | cons c cs ih => simp [byteLength_append, byteLength, ih, Nat.add_comm]

theorem charsBefore_byteLength (cs ds : List Char) :
    charsBefore (cs ++ ds) (byteLength cs) = cs := by
  induction cs with
  | nil => cases ds <;> simp [charsBefore, byteLength]
  | cons c cs ih =>
    have hc : 0 < c.utf8Size := Char.utf8Size_pos c
    have h : byteLength (c :: cs) = c.utf8Size + byteLength cs := by simp [byteLength]
    have hne : byteLength (c :: cs) ≠ 0 := by omega
    rw [List.cons_append, charsBefore, if_neg hne, h, Nat.add_sub_cancel_left, ih]

/-- At a boundary between characters, the column is that of the text before it. -/
theorem columnAt_byteLength (tabSize : Nat) (cs ds : List Char) :
    columnAt tabSize (cs ++ ds) (byteLength cs) = columnWidth tabSize cs := by
  rw [columnAt, charsBefore_byteLength]

/-! ## Signed numbers -/

/-- A count read as a signed number of 64 bits: from 2^63 on it is negative. -/
def signed (n : Nat) : Int := Int.bmod n UInt64.size

theorem signed_of_lt {n : Nat} (h : 2 * n < UInt64.size) : signed n = n := by
  unfold signed UInt64.size at *; rw [Int.bmod_def]; omega

end ShaderText
